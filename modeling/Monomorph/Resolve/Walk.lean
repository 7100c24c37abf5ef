import Monomorph.CallIndex
import Monomorph.Resolve.Bindings
import Monomorph.Resolve.Calls

/-!
# The chain walk

A seed is carried up the reverse call chain: each call site of the current method substitutes its
arguments into the type and moves on to the calling method. The walk ends on a concrete type, on a
method without call sites, on a pair that is already being walked, and at the depth limit. Finished
pairs are remembered for the rest of the seed's walk.

`Walk.plain` is the same walk without the memory.
-/

namespace Monomorph

/-- A type in the context of a method. -/
structure Pair where
  type : TypeRef
  entry : MethodId

/-- What tells pairs apart. -/
structure PairKey where
  type : Text
  entry : MethodId
deriving DecidableEq

namespace Pair

def key (p : Pair) : PairKey := { type := p.type.key, entry := p.entry }

end Pair

/-- What a walk has counted: call sites that bound no argument, and the two kinds of cuts. The mark
`faulted` records a substitution that reached before its arguments. -/
structure WalkCounts where
  unresolved : Nat := 0
  cycles : Nat := 0
  depth : Nat := 0
  faulted : Bool := false

/-- The state of a walk: the pairs being walked, the finished ones, and the counts. -/
structure WalkState where
  onStack : List PairKey := []
  memo : List (PairKey × List Pair) := []
  counts : WalkCounts := {}

namespace Walk

def countFailure (f : SubstFailure) (c : WalkCounts) : WalkCounts :=
  match f with
  | .unbound => { c with unresolved := c.unresolved + 1 }
  | .outOfRange => { c with faulted := true }

/-- The pairs that `p` ends on, with at most `left` further call sites in a chain. -/
def walk (callers : MethodId → List Site) :
    (left : Nat) → Pair → WalkState → List Pair × WalkState
  | left, p, s =>
    if p.type.isConcrete then ([p], s)
    else
      match s.memo.lookup p.key with
      | some out => (out, s)
      | none =>
        if s.onStack.contains p.key then
          ([p], { s with counts := { s.counts with cycles := s.counts.cycles + 1 } })
        else
          match left with
          | 0 => ([p], { s with counts := { s.counts with depth := s.counts.depth + 1 } })
          | left + 1 =>
            match callers p.entry with
            | [] => ([p], s)
            | site :: sites =>
              let entered := { s with onStack := p.key :: s.onStack }
              let (out, s') := (site :: sites).foldl
                (fun (acc : List Pair × WalkState) site =>
                  match (Bindings.ofSite site.ref).apply p.type with
                  | .error f =>
                    (acc.1, { acc.2 with counts := countFailure f acc.2.counts })
                  | .ok t =>
                    let (more, s) := walk callers left { type := t, entry := site.caller } acc.2
                    (acc.1 ++ more, s))
                ([], entered)
              (out, { s' with onStack := s.onStack, memo := (p.key, out) :: s'.memo })

/-- The pairs that `p` ends on when nothing is remembered; `stack` holds the pairs being walked. -/
def plain (callers : MethodId → List Site) :
    (left : Nat) → (stack : List PairKey) → Pair → List Pair
  | left, stack, p =>
    if p.type.isConcrete then [p]
    else if stack.contains p.key then [p]
    else
      match left with
      | 0 => [p]
      | left + 1 =>
        match callers p.entry with
        | [] => [p]
        | sites =>
          sites.flatMap fun site =>
            match (Bindings.ofSite site.ref).apply p.type with
            | .error _ => []
            | .ok t => plain callers left (p.key :: stack) { type := t, entry := site.caller }

end Walk

end Monomorph
