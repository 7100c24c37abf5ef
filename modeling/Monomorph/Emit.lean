import Monomorph.Module.File
import Monomorph.Registry

/-!
# The synthetic module

A module whose one static method touches every resolved type, so that a compiler that works ahead
of time sees each of them used: through the parameterless constructor where the registry knows one,
through a default-initialised local otherwise.
-/

namespace Monomorph

inductive EmitError where
  | noName
  | notConcrete (index : Nat) (key : Text)

def EmitError.message : EmitError → Text
  | .noName => "emit: empty module name"
  | .notConcrete i key => "emit: type " ++ Text.ofNat i ++ " (" ++ key ++ ") is not concrete"

namespace Emit

/-- The parameterless constructor of the type's definition, applied to the type's arguments. -/
def constructorRef? (r : Registry) (t : TypeRef) : Option MethodRef := do
  let d ← r.resolveType? t
  let c ← d.defaultConstructor?
  (c.instantiate t.args).toOption

/-- The method that turns any value into text. -/
def toStringRef : MethodRef :=
  { name := "ToString", declaring := .define systemObject, ret := .define systemString,
    hasThis := true }

/-- The instruction that loads the address of a local; low indices have a short form. -/
def loadLocal (index : Nat) : Instruction :=
  { op := if index < 256 then .ldlocaShort else .ldloca,
    operand := { int := Int64.ofNat index } }

/-- The block that touches a type, in a method that has so many locals already. -/
def block (r : Registry) (locals : Nat) (t : TypeRef) : List Instruction :=
  match constructorRef? r t with
  | some c => [{ op := .nop }, { op := .newobj, operand := { method := some c } }, { op := .pop }]
  | none =>
    [{ op := .nop }, loadLocal locals, { op := .dup },
      { op := .initobj, operand := { type := t } },
      { op := .constrained, operand := { type := t } },
      { op := .callvirt, operand := { method := some toStringRef } }, { op := .pop }]

/-- Appends the block of a type, and the local that it needs. -/
def touch (r : Registry) (b : Body) (t : TypeRef) : Body :=
  let code := some (b.code ++ block r b.locals.length t)
  match constructorRef? r t with
  | some _ => { b with stream := code }
  | none => { locals := b.locals ++ [t], stream := code }

/-- The body that touches every type in order. -/
def entryBody (r : Registry) (types : List TypeRef) : Body :=
  (types.foldl (touch r) {}).emit { op := .ret }

def firstGeneric? : Nat → List TypeRef → Option EmitError
  | _, [] => none
  | i, t :: ts => if t.isConcrete then firstGeneric? (i + 1) ts else some (.notConcrete i t.key)

/-- The module called `name` that touches every type. -/
def build (name : Text) (types : List TypeRef) (r : Registry) : Except EmitError Module :=
  if name = [] then .error .noName
  else
    match firstGeneric? 0 types with
    | some e => .error e
    | none =>
      let entry : MethodDef :=
        { MethodDef.new name MethodAttr.isStatic [] with
          attributes := [preserveAttribute], body := some (entryBody r types) }
      .ok <| Module.new name
        [.node
          { TypeDef.newClass name name [] with
            base := .define systemObject,
            methods := [some (MethodDef.newConstructor []), some entry] } []]

inductive WriteError where
  | build (error : EmitError)
  | save (path : Text) (error : SaveError)

def WriteError.message : WriteError → Text
  | .build e => e.message
  | .save path e => "write " ++ path ++ ": " ++ e.message

variable {m : Type → Type} [Monad m] [Host m]

/-- Builds the module and saves it at a path. -/
def write (name : Text) (types : List TypeRef) (r : Registry) (path : Text) :
    ExceptT WriteError m Module := do
  match build name types r with
  | .error e => throw (.build e)
  | .ok module => do
    ExceptT.adapt (.save path) (Module.save path (some module))
    return module

end Emit

end Monomorph
