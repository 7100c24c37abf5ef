import Monomorph.Module.Definition
import Monomorph.TypeRef.Instantiate

/-!
# Looking names up

A registry holds the definitions of a list of modules. When two modules declare one full name, the
first declaration is the one found; within a type, the first method of a signature is.

Methods are told apart by where they stand, not by what they are: two modules may declare the same
method, and the two are different callees.
-/

namespace Monomorph

/-- A crash that a look-up outside a list causes. -/
inductive Fault where
  | outOfRange
deriving DecidableEq

/-- Where a method stands: the index of its type among the definitions of all modules, and its
index within the type. -/
structure MethodId where
  type : Nat
  index : Nat
deriving DecidableEq

/-- The definitions of a list of modules, in order. -/
structure Registry where
  definitions : List Definition

namespace Registry

/-- Collects the definitions of the modules; an empty place has none. -/
def ofModules (modules : List (Option Module)) : Registry :=
  ⟨modules.flatMap fun m => (m.map Module.definitions).getD []⟩

/-- The place of the first definition with a full name. -/
def typeIndex? (r : Registry) (fullName : Text) : Option Nat :=
  r.definitions.findIdx? fun d => d.fullName == fullName

def type? (r : Registry) (fullName : Text) : Option Definition :=
  r.definitions.find? fun d => d.fullName == fullName

/-- The definition behind a reference. Parameters and names outside the modules have none. -/
def resolveType? (r : Registry) (t : TypeRef) : Option Definition :=
  if t.definitionName = [] then none else r.type? t.definitionName

def resolveMethod? (r : Registry) (ref : MethodRef) : Option MethodId :=
  if ref.declaring.definitionName = [] then none
  else do
    let type ← r.typeIndex? ref.declaring.definitionName
    let d ← r.definitions[type]?
    let index ← d.members.findIdx? fun m => m.signature == ref.signature
    some { type, index }

def member? (r : Registry) (id : MethodId) : Option Member := do
  let d ← r.definitions[id.type]?
  d.members[id.index]?

def declaring? (r : Registry) (id : MethodId) : Option Definition := r.definitions[id.type]?

/-- The base type of the definition behind a reference, with the reference's arguments filled in. -/
def baseType? (r : Registry) (t : TypeRef) : Except Fault (Option TypeRef) :=
  match r.resolveType? t with
  | none => .ok none
  | some d =>
    if !d.head.base.isPresent then .ok none
    else if !t.isInstance then .ok (some d.head.base)
    else if d.head.base.reachesBefore then .error .outOfRange
    else .ok (some (d.head.base.fillIn t.args))

end Registry

end Monomorph
