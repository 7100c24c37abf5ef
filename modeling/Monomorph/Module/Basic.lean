import Monomorph.Instruction

/-!
# Modules

A module is a named forest of type definitions with their methods. This is the form in which a
module is stored: parents are not named by their members, and a place for a type or a method may
be empty. `Module.isComplete` says that no place is, and `Module.definitions` in
`Monomorph.Module.Definition` gives the types with their links.
-/

namespace Monomorph

/-- The name of every instance constructor. -/
def constructorName : Text := ".ctor"

/-- The name of the placeholder type that carries module-level members. -/
def placeholderName : Text := "<Module>"

/-- The attribute that keeps a member from being stripped. -/
def preserveAttribute : Text := "UnityEngine.Scripting.PreserveAttribute"

namespace MethodAttr

def isPublic : UInt16 := 1
def isStatic : UInt16 := 2
def isSpecialName : UInt16 := 16

end MethodAttr

namespace TypeAttr

def isPublic : UInt16 := 1
def isClass : UInt16 := 2
def isValueType : UInt16 := 4
def isInterface : UInt16 := 8
def isSealed : UInt16 := 32

end TypeAttr

/-- A declared method with an optional body. -/
structure MethodDef where
  name : Text
  attrs : UInt16 := 0
  generic : List Text := []
  params : List TypeRef := []
  ret : TypeRef := .absent
  attributes : List Text := []
  body : Option Body := none
deriving DecidableEq

namespace MethodDef

def isGeneric (m : MethodDef) : Bool := !m.generic.isEmpty

def isStatic (m : MethodDef) : Bool := m.attrs &&& MethodAttr.isStatic ≠ 0

def isPublic (m : MethodDef) : Bool := m.attrs &&& MethodAttr.isPublic ≠ 0

def isConstructor (m : MethodDef) : Bool := m.name = constructorName && !m.isStatic

def hasAttribute (m : MethodDef) (name : Text) : Bool := m.attributes.contains name

/-- The instructions; none without a body. -/
def code (m : MethodDef) : List Instruction := (m.body.map Body.code).getD []

/-- What a call site must agree on to reach the method within its type. -/
def signature (name : Text) (arity : Int) (params : List TypeRef) : Text :=
  name ++ "`" ++ Text.ofInt arity ++ "(" ++ Text.join "," (params.map TypeRef.signatureText)
    ++ ")"

end MethodDef

/-- The signature that a call site asks for. -/
def MethodRef.signature (r : MethodRef) : Text :=
  MethodDef.signature r.name r.arity.toInt r.params

/-- Which lists of a type the document holds although they are empty. Only a listing of the
document as read shows the difference. -/
structure EmptyLists where
  generic : Bool := false
  nested : Bool := false
  methods : Bool := false
deriving DecidableEq

/-- A declared type without its nested types. -/
structure TypeHead where
  ns : Text := []
  name : Text := []
  attrs : UInt16 := 0
  generic : List Text := []
  base : TypeRef := .absent
  methods : List (Option MethodDef) := []
  empties : EmptyLists := {}
deriving DecidableEq

namespace TypeHead

def isClass (t : TypeHead) : Bool := t.attrs &&& TypeAttr.isClass ≠ 0

def isValueType (t : TypeHead) : Bool := t.attrs &&& TypeAttr.isValueType ≠ 0

def isInterface (t : TypeHead) : Bool := t.attrs &&& TypeAttr.isInterface ≠ 0

/-- The full name of a type that stands inside `outer`, or at the top of its module. -/
def fullNameIn (t : TypeHead) : Option Text → Text
  | some outer => outer ++ "/" ++ t.name
  | none => if t.ns = [] then t.name else t.ns ++ "." ++ t.name

end TypeHead

/-- A type definition with the types nested in it, or an empty place for one. -/
inductive TypeDef where
  | absent
  | node (head : TypeHead) (nested : List TypeDef)

instance : Inhabited TypeDef := ⟨.absent⟩

mutual
/-- Equality of types can be decided, with the types nested in them. -/
def TypeDef.decEq : (t o : TypeDef) → Decidable (t = o)
  | .absent, .absent => .isTrue rfl
  | .absent, .node .. => .isFalse nofun
  | .node .., .absent => .isFalse nofun
  | .node head nested, .node head' nested' =>
    have := TypeDef.decEqEach nested nested'
    decidable_of_iff (head = head' ∧ nested = nested') (by simp)

def TypeDef.decEqEach : (ts os : List TypeDef) → Decidable (ts = os)
  | [], [] => .isTrue rfl
  | [], _ :: _ => .isFalse nofun
  | _ :: _, [] => .isFalse nofun
  | t :: ts, o :: os =>
    have := TypeDef.decEq t o
    have := TypeDef.decEqEach ts os
    decidable_of_iff (t = o ∧ ts = os) (by simp)
end

instance : DecidableEq TypeDef := TypeDef.decEq

/-- A compiled unit. The list of types may be missing, which the wire tells apart from an empty
list. -/
structure Module where
  name : Text := []
  version : Text := []
  listed : Option (List TypeDef) := none
deriving DecidableEq

namespace TypeDef

mutual
/-- Whether no place for a type or a method is empty. -/
def isComplete : TypeDef → Bool
  | .absent => false
  | .node head nested => head.methods.all Option.isSome && allComplete nested

def allComplete : List TypeDef → Bool
  | [] => true
  | t :: ts => t.isComplete && allComplete ts
end

def newClass (ns name : Text) (generic : List Text) : TypeHead :=
  { ns, name, generic, attrs := TypeAttr.isPublic ||| TypeAttr.isClass }

def newStruct (ns name : Text) (generic : List Text) : TypeHead :=
  { ns, name, generic,
    attrs := TypeAttr.isPublic ||| TypeAttr.isValueType ||| TypeAttr.isSealed }

end TypeDef

namespace MethodDef

/-- A public method that returns nothing, with a body still to be written. -/
def new (name : Text) (attrs : UInt16) (generic : List Text) : MethodDef :=
  { name, generic, attrs := attrs ||| MethodAttr.isPublic, ret := .define systemVoid,
    body := some {} }

/-- A public instance constructor that does nothing. -/
def newConstructor (params : List TypeRef) : MethodDef :=
  { MethodDef.new constructorName MethodAttr.isSpecialName [] with
    params, body := some { stream := some [{ op := .ret }] } }

end MethodDef

namespace Module

/-- The types; none when the list is missing. -/
def types (m : Module) : List TypeDef := m.listed.getD []

def isComplete (m : Module) : Bool := TypeDef.allComplete m.types

/-- The version that new modules carry. -/
def firstVersion : Text := "1.0.0.0"

/-- A module that holds the placeholder type and the given ones. -/
def new (name : Text) (types : List TypeDef) : Module :=
  { name, version := firstVersion, listed := some (.node { name := placeholderName } [] :: types) }

end Module

end Monomorph
