import Monomorph.Registry

/-!
# Seeds

A seed says that a generic instance appears in the body of a method, written in terms of that
method's generic context.
-/

namespace Monomorph

/-- A type in the context of an entry method; either may be missing in a seed given by hand. -/
structure CallRef where
  type : TypeRef
  entry : Option MethodId

namespace CallRef

/-- Two calls are equal when their types have one key and their entry methods are one. -/
def equal (a b : CallRef) : Bool := a.type.key == b.type.key && a.entry == b.entry

def render (r : Registry) (c : CallRef) : Text :=
  c.type.fullName ++ " with entry "
    ++ (((c.entry.bind r.member?).map Member.ownerName).getD "<nil>" : Text)

/-- The types that an instruction may seed: its type operand, and what it constructs. -/
def candidates (i : Instruction) : List TypeRef :=
  i.operand.type ::
    (if i.op = .newobj then (i.operand.method.map (·.declaring)).toList else [])

/-- The seeds of one method: instances of the named definitions in generic code. -/
def ofMember (seeds : List Text) (d : Definition) (id : MethodId) (m : Member) : List CallRef :=
  if m.method.isGeneric || d.isGeneric then
    ((m.method.code.flatMap candidates).filter fun t =>
      t.isInstance && seeds.contains t.definitionName).map fun type => { type, entry := some id }
  else []

/-- Keeps the first of equal calls. -/
def dedup (cs : List CallRef) : List CallRef :=
  cs.foldl (fun kept c => if kept.any (equal c) then kept else kept ++ [c]) []

/-- All seeds in the registry's definitions, in order and without repetition. -/
def collect (r : Registry) (seeds : List Text) : List CallRef :=
  dedup (r.definitions.mapIdx fun i d =>
    (d.members.mapIdx fun k m => ofMember seeds d { type := i, index := k } m).flatten).flatten

end CallRef

end Monomorph
