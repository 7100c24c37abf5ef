import Monomorph.Module.Basic

/-!
# Definitions and members

The types of a module with what their place in the forest tells: full names, enclosing types, the
owning module, and for every method its declaring type. A module that was assembled by hand may
have lost some of these links, so a link is an option and carries a mark that says whether it is
the one that the place in the forest gives.

The listing of a module has one line for each type, one for each method, and on request the bodies.
-/

namespace Monomorph

/-- Errors of applying a generic definition to the wrong number of arguments. -/
inductive ArityError where
  | noDefinition
  | detached
  | mismatch (name : Text) (want got : Nat)

namespace ArityError

def message : ArityError → Text
  | .noDefinition => "generic arity mismatch: nil definition"
  | .detached => "generic arity mismatch: detached method"
  | .mismatch name want got =>
    "generic arity mismatch: " ++ name ++ " takes " ++ Text.ofNat want ++ " arguments, got "
      ++ Text.ofNat got

end ArityError

/-- A declaring type as its members see it. -/
structure Owner where
  fullName : Text
  generic : List Text

namespace Owner

/-- The owner's generic parameters as references, in order. -/
def params (o : Owner) : List TypeRef :=
  o.generic.mapIdx fun i name => .typeParam name (Int64.ofNat i) o.fullName

/-- The owner as seen from inside its own bodies: applied to its own parameters. -/
def selfRef (o : Owner) : TypeRef :=
  if o.generic.isEmpty then .define o.fullName else .applied o.fullName o.params

/-- The owner applied to arguments; a plain definition takes none. -/
def instantiate (o : Owner) (args : List TypeRef) : Except ArityError TypeRef :=
  if o.generic.length ≠ args.length then
    .error (.mismatch o.fullName o.generic.length args.length)
  else if args.isEmpty then .ok (.define o.fullName)
  else .ok (.applied o.fullName args)

end Owner

/-- A method with its link to the declaring type. -/
structure Member where
  method : MethodDef
  owner : Option Owner
  linked : Bool := true

namespace Member

/-- The name by which the method's own generic parameters know their owner. -/
def ownerName (m : Member) : Text :=
  ((m.owner.map Owner.fullName).getD []) ++ "::" ++ m.method.name

def params (m : Member) : List TypeRef :=
  m.method.generic.mapIdx fun i name => .methodParam name (Int64.ofNat i) m.ownerName

/-- The text `Ret Decl::Name<T>(Params)`. -/
def fullName (m : Member) : Text :=
  (if m.method.ret.isPresent then m.method.ret.fullName ++ " " else [])
    ++ m.ownerName
    ++ (if m.method.generic.isEmpty then []
        else "<" ++ Text.join "," m.method.generic ++ ">" : Text)
    ++ renderParams m.method.params

/-- A reference to the method on a given declaring type. -/
def refOn (m : Member) (declaring : TypeRef) : MethodRef :=
  { name := m.method.name, declaring, params := m.method.params, ret := m.method.ret,
    hasThis := !m.method.isStatic, arity := Int64.ofNat m.method.generic.length }

/-- The reference that a call inside the declaring type uses. -/
def ref (m : Member) : MethodRef := m.refOn ((m.owner.map Owner.selfRef).getD .absent)

/-- The method on its declaring type applied to arguments. -/
def instantiate (m : Member) (args : List TypeRef) : Except ArityError MethodRef :=
  match m.owner with
  | none => .error .detached
  | some o => (o.instantiate args).map m.refOn

def signature (m : Member) : Text :=
  MethodDef.signature m.method.name m.method.generic.length m.method.params

end Member

/-- A type definition with its links and its methods. -/
structure Definition where
  head : TypeHead
  fullName : Text
  declaring : Option Text
  moduleName : Option Text
  members : List Member
  linked : Bool := true

namespace Definition

/-- The definition as its members see it. -/
def owner (d : Definition) : Owner := { fullName := d.fullName, generic := d.head.generic }

def isGeneric (d : Definition) : Bool := !d.head.generic.isEmpty

def constructors (d : Definition) : List Member :=
  d.members.filter fun m => m.method.isConstructor

/-- The first instance constructor without parameters. -/
def defaultConstructor? (d : Definition) : Option Member :=
  d.constructors.find? fun m => m.method.params.isEmpty

end Definition

mutual
/-- The definitions of a type and of the types nested in it, outer before inner. The placeholder
is left out, the types nested in it are not. -/
def TypeDef.definitions (moduleName : Text) (outer : Option Text) : TypeDef → List Definition
  | .absent => []
  | .node head nested =>
    let fullName := head.fullNameIn outer
    let owner : Owner := { fullName, generic := head.generic }
    let inner := definitionsOf moduleName (some fullName) nested
    if head.name = placeholderName then inner
    else
      { head, fullName, declaring := outer, moduleName := some moduleName,
        members := head.methods.filterMap fun m =>
          m.map fun method => { method, owner := some owner } } :: inner

def TypeDef.definitionsOf (moduleName : Text) (outer : Option Text) :
    List TypeDef → List Definition
  | [] => []
  | t :: ts => t.definitions moduleName outer ++ definitionsOf moduleName outer ts
end

namespace Module

/-- Every type definition, nested ones included, in declaration order. -/
def definitions (m : Module) : List Definition := TypeDef.definitionsOf m.name none m.types

def members (m : Module) : List Member := m.definitions.flatMap Definition.members

end Module

/-! ## Listings -/

/-- The word that introduces a type. -/
def TypeHead.keyword (t : TypeHead) : Text :=
  if t.isInterface then "interface" else if t.isValueType then "struct" else "class"

def Body.listing (b : Body) : Text :=
  (b.locals.mapIdx fun i t =>
      "    .local [" ++ Text.ofNat i ++ "] " ++ t.fullName ++ "\n").flatten
    ++ (b.code.mapIdx fun i c =>
      "    IL_" ++ Text.hexPadded 4 i ++ ": " ++ c.render ++ "\n").flatten

def Member.listing (bodies : Bool) (m : Member) : Text :=
  "  " ++ (if m.method.isStatic then "static " else "" : String) ++ m.fullName ++ "\n"
    ++ (if bodies then (m.method.body.map Body.listing).getD [] else [])

def Definition.listing (bodies : Bool) (d : Definition) : Text :=
  d.head.keyword ++ " " ++ d.fullName
    ++ (if d.isGeneric then "<" ++ Text.join "," d.head.generic ++ ">" else [] : Text)
    ++ (if d.head.base.isPresent then " : " ++ d.head.base.fullName else [] : Text)
    ++ "\n" ++ d.members.flatMap (Member.listing bodies)

/-- The listing of a module with the given definitions. -/
def listingOf (bodies : Bool) (name version : Text) (defs : List Definition) : Text :=
  "module " ++ name ++ " " ++ version ++ "\n" ++ defs.flatMap (Definition.listing bodies)

def Module.listing (bodies : Bool) (m : Module) : Text :=
  listingOf bodies m.name m.version m.definitions

end Monomorph
