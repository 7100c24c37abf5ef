import Std.Data.HashSet
import Monomorph.Pool

/-!
# Pools in memory

A pool is asked for a name more often than it grows, so in memory the set of the names stands beside
the list. Pools in memory are told apart by number, and an operation may name one pool twice: what is
added to it is then added to the pool that is being read.
-/

namespace Monomorph

/-- A pool that looks names up in a set. -/
structure IndexedPool where
  types : List TypeRef := []
  seen : Std.HashSet Text := {}

namespace IndexedPool

def toPool (p : IndexedPool) : Pool := ⟨p.types⟩

def contains (p : IndexedPool) (fullName : Text) : Bool := p.seen.contains fullName

/-- Adds a reference unless it is not concrete or its name is already there, and tells whether it
was added. -/
def add (p : IndexedPool) (t : TypeRef) : Bool × IndexedPool :=
  if !t.isConcrete then (false, p)
  else if p.contains t.fullName then (false, p)
  else (true, { types := p.types ++ [t], seen := p.seen.insert t.fullName })

def addAll (p : IndexedPool) (ts : List TypeRef) : IndexedPool := ts.foldl (fun p t => (p.add t).2) p

def merge (p q : IndexedPool) : IndexedPool := p.addAll q.types

end IndexedPool

/-- As many pools, by number. -/
abbrev Pools (n : Nat) := Fin n → IndexedPool

/-- An operation on one of the pools. What is merged may be no pool at all, or the pool itself. -/
inductive PoolOp (n : Nat) where
  | add (pool : Fin n) (t : TypeRef)
  | merge (pool : Fin n) (other : Option (Fin n))

namespace Pools

variable {n : Nat}

def empty : Pools n := fun _ => {}

def put (s : Pools n) (i : Fin n) (p : IndexedPool) : Pools n := fun j => if j = i then p else s j

/-- Adds a reference to a pool, and tells whether it was added. -/
def add (s : Pools n) (i : Fin n) (t : TypeRef) : Bool × Pools n :=
  let (added, p) := (s i).add t
  (added, s.put i p)

/-- Adds the types of another pool one by one. They are read before the first of them is added. -/
def merge (s : Pools n) (i : Fin n) : Option (Fin n) → Pools n
  | none => s
  | some j => (s j).types.foldl (fun s t => (s.add i t).2) s

def step (s : Pools n) : PoolOp n → Pools n
  | .add i t => (s.add i t).2
  | .merge i other => s.merge i other

def run (s : Pools n) (ops : List (PoolOp n)) : Pools n := ops.foldl step s

end Pools

end Monomorph
