import Monomorph.Registry

/-!
# The reverse call index

For every method, the places that call it, in the order in which they stand in the modules. Each
module is scanned on its own and the parts are joined in module order, which gives the same index
as one scan over everything.
-/

namespace Monomorph

/-- One call: the reference as written, and the method that contains it. -/
structure Site where
  ref : MethodRef
  caller : MethodId

/-- Which method references are indexed. -/
inductive Extractor where
  | plain
  | genericOnly
deriving DecidableEq

namespace Extractor

/-- The reference that an operand contributes. The generic extractor keeps only call sites that
carry type arguments of the method or of its declaring type. -/
def pick? (e : Extractor) (o : Operand) : Option MethodRef :=
  match e with
  | .plain => o.method
  | .genericOnly => o.method.filter fun r => r.isGenericInstance || r.declaring.isInstance

end Extractor

/-- The called methods in order of their first call, each with its call sites. -/
structure CallIndex where
  entries : List (MethodId × List Site) := []

namespace CallIndex

/-- Adds call sites of a method behind those already known. -/
def insert (entries : List (MethodId × List Site)) (callee : MethodId) (sites : List Site) :
    List (MethodId × List Site) :=
  match entries with
  | [] => [(callee, sites)]
  | (k, known) :: rest =>
    if k = callee then (k, known ++ sites) :: rest else (k, known) :: insert rest callee sites

/-- The calls in definitions that stand from index `first` on, in order. -/
def occurrences (r : Registry) (e : Extractor) (first : Nat) (defs : List Definition) :
    List (MethodId × Site) :=
  (defs.mapIdx fun i d =>
    (d.members.mapIdx fun k m =>
      m.method.code.filterMap fun c => do
        let ref ← e.pick? c.operand
        let callee ← r.resolveMethod? ref
        some (callee, { ref, caller := { type := first + i, index := k } : Site })).flatten).flatten

/-- The definitions of each module with the index at which they start. -/
def sections : Nat → List (Option Module) → List (Nat × List Definition)
  | _, [] => []
  | first, m :: ms =>
    let defs := (m.map Module.definitions).getD []
    (first, defs) :: sections (first + defs.length) ms

def scan (r : Registry) (e : Extractor) (first : Nat) (defs : List Definition) : CallIndex :=
  ⟨(occurrences r e first defs).foldl (fun es (callee, site) => insert es callee [site]) []⟩

/-- Joins the index of a later module behind an earlier one. -/
def merge (a b : CallIndex) : CallIndex :=
  ⟨b.entries.foldl (fun es (callee, sites) => insert es callee sites) a.entries⟩

def build (r : Registry) (e : Extractor) (modules : List (Option Module)) : CallIndex :=
  ((sections 0 modules).map fun (first, defs) => scan r e first defs).foldl merge {}

def callers (x : CallIndex) (m : MethodId) : List Site := (x.entries.lookup m).getD []

def callees (x : CallIndex) : List MethodId := x.entries.map Prod.fst

end CallIndex

end Monomorph
