import Monomorph.TypeRef.Basic

/-!
# Filling in the arguments of a base type

A base type is written in terms of the type parameters of the derived definition. Seen from an
instance of that definition, each such parameter is replaced by the instance's argument at its
position; parameters past the arguments, and those of methods, stay.
-/

namespace Monomorph.TypeRef

mutual
/-- Replaces type parameters by position. -/
def fillIn (args : List TypeRef) : TypeRef → TypeRef
  | .absent => .absent
  | .node kind name inner position param owner =>
    if kind = .parameter then
      if param = .type ∧ 0 ≤ position.toInt ∧ position.toInt < args.length then
        args.getD position.toInt.toNat .absent
      else .node kind name inner position param owner
    else if kind = .inst then .applied name (fillInEach args inner)
    else .node kind name inner position param owner

def fillInEach (args : List TypeRef) : List TypeRef → List TypeRef
  | [] => []
  | t :: ts => t.fillIn args :: fillInEach args ts
end

mutual
/-- Whether a type parameter with a position before the first argument occurs. Filling in such a
reference would reach outside the arguments. -/
def reachesBefore : TypeRef → Bool
  | .absent => false
  | .node kind _ inner position param _ =>
    if kind = .parameter then param = .type && position.toInt < 0
    else if kind = .inst then anyReachesBefore inner
    else false

def anyReachesBefore : List TypeRef → Bool
  | [] => false
  | t :: ts => t.reachesBefore || anyReachesBefore ts
end

theorem fillInEach_eq_map (args ts : List TypeRef) :
    fillInEach args ts = ts.map (fillIn args) := by
  induction ts with
  | nil => rfl
  | cons t ts ih => simp [fillInEach, ih]

end Monomorph.TypeRef
