import Monomorph.Instruction

/-!
# Substitution

The arguments visible at a call site in one row: those of the declaring type first, then those of
the method. Substituting them into a reference replaces every parameter or none.
-/

namespace Monomorph

/-- The arguments visible at a call site, and how many of them belong to the declaring type. -/
structure Bindings where
  args : List TypeRef := []
  typeArity : Int64 := 0

/-- Why a reference has no substitution: a parameter without an argument, or one whose index lies
before the first argument. -/
inductive SubstFailure where
  | unbound
  | outOfRange
deriving DecidableEq

namespace Bindings

/-- The bindings that a call through `ref` supplies. -/
def ofSite (ref : MethodRef) : Bindings :=
  if ref.declaring.isInstance then
    { args := ref.declaring.args ++ ref.typeArgs,
      typeArity := Int64.ofNat ref.declaring.args.length }
  else { args := ref.typeArgs }

/-- Bindings for type parameters alone. -/
def ofTypeArgs (args : List TypeRef) : Bindings := { args, typeArity := Int64.ofNat args.length }

def get (b : Bindings) (index : Int) : Except SubstFailure TypeRef :=
  if (b.args.length : Int) ≤ index then .error .unbound
  else if index < 0 then .error .outOfRange
  else .ok (b.args.getD index.toNat .absent)

/-- The argument bound to a parameter. Type parameters index the declaring type's arguments,
method parameters start behind them; the sum of the two is a machine word. -/
def lookup (b : Bindings) : TypeRef → Except SubstFailure TypeRef
  | .absent => .error .unbound
  | .node kind _ _ position param _ =>
    if kind ≠ .parameter ∨ position < 0 then .error .unbound
    else if param = .type then
      if b.typeArity ≤ position then .error .unbound else b.get position.toInt
    else if param = .method then b.get (b.typeArity + position).toInt
    else .error .unbound

mutual
/-- Replaces every parameter of a reference by its argument. An instance without parameters is
returned as it is; one with parameters is built anew from its name and arguments. -/
def apply (b : Bindings) : TypeRef → Except SubstFailure TypeRef
  | .absent => .error .unbound
  | .node kind name args position param owner =>
    if kind = .parameter then b.lookup (.node kind name args position param owner)
    else if kind = .inst then
      match b.applyEach args with
      | .error f => .error f
      | .ok args' =>
        if TypeRef.anyParameter args then .ok (.applied name args')
        else .ok (.node kind name args position param owner)
    else .ok (.node kind name args position param owner)

def applyEach (b : Bindings) : List TypeRef → Except SubstFailure (List TypeRef)
  | [] => .ok []
  | t :: ts =>
    match b.apply t with
    | .error f => .error f
    | .ok r =>
      match b.applyEach ts with
      | .error f => .error f
      | .ok rs => .ok (r :: rs)
end

end Bindings

end Monomorph
