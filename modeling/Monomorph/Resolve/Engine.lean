import Monomorph.Pool
import Monomorph.Resolve.Walk

/-!
# Resolution

Each seed is walked up its call chain; what is still generic at the end of the walk is bound
against the pooled instances of the entry method's declaring type; and the concrete results of all
seeds are joined in seed order, the first of each full name first.
-/

namespace Monomorph

/-- What resolution did, and above all what it dropped. -/
structure Stats where
  seeds : Int := 0
  finals : Int := 0
  unresolved : Int := 0
  cycles : Int := 0
  depth : Int := 0
  poolBound : Int := 0
  dropped : Int := 0
  duplicates : Int := 0

namespace Stats

def add (a b : Stats) : Stats :=
  { seeds := a.seeds + b.seeds, finals := a.finals + b.finals,
    unresolved := a.unresolved + b.unresolved, cycles := a.cycles + b.cycles,
    depth := a.depth + b.depth, poolBound := a.poolBound + b.poolBound,
    dropped := a.dropped + b.dropped, duplicates := a.duplicates + b.duplicates }

/-- The counters on one line. -/
def render (s : Stats) : Text :=
  "seeds=" ++ Text.ofInt s.seeds ++ " finals=" ++ Text.ofInt s.finals
    ++ " unresolved=" ++ Text.ofInt s.unresolved ++ " cycles=" ++ Text.ofInt s.cycles
    ++ " depth=" ++ Text.ofInt s.depth ++ " pool=" ++ Text.ofInt s.poolBound
    ++ " dropped=" ++ Text.ofInt s.dropped ++ " dup=" ++ Text.ofInt s.duplicates

end Stats

/-- A program view that seeds are resolved against: the definitions that hold the methods, the
registry in which base types are looked up, the call sites of each method, and the pool. -/
structure Engine where
  program : Registry
  registry : Registry
  callers : MethodId → List Site
  pool : Pool
  maxDepth : Nat

def defaultMaxDepth : Nat := 64

/-- The limit on the length of a chain of base types. -/
def maxBaseDepth : Nat := 256

/-- The depth limit for a given option; what is not positive means the default. -/
def depthLimit (option : Int) : Nat := if option ≤ 0 then defaultMaxDepth else option.toNat

inductive ResolveError where
  | cancelled
  | incomplete (seed : Nat)
  | fault

def ResolveError.message : ResolveError → Text
  | .cancelled => "context canceled"
  | .incomplete i => "seed " ++ Text.ofNat i ++ ": incomplete call reference"
  | .fault => "index out of range"

structure Resolution where
  types : List TypeRef := []
  stats : Stats := {}

namespace Engine

/-- Follows a type up its base chain to an instance of `declaring` and gives that instance's
arguments. -/
def argsFor (e : Engine) (declaring : Text) :
    (left : Nat) → TypeRef → Except Fault (Option (List TypeRef))
  | 0, _ => .ok none
  | left + 1, t =>
    if t.isInstance && t.name == declaring then .ok (some t.args)
    else
      match e.registry.baseType? t with
      | .error f => .error f
      | .ok none => .ok none
      | .ok (some base) => argsFor e declaring left base

/-- The reference with the type parameters bound to the arguments, if the result is concrete. -/
def bindTypeArgs (t : TypeRef) (args : List TypeRef) : Except Fault (Option TypeRef) :=
  match (Bindings.ofTypeArgs args).apply t with
  | .ok r => .ok (if r.isConcrete then some r else none)
  | .error .unbound => .ok none
  | .error .outOfRange => .error .outOfRange

/-- What one pooled type makes of a pair whose declaring type is called `declaring`. -/
def bindWith (e : Engine) (declaring : Text) (t candidate : TypeRef) :
    Except Fault (Option TypeRef) :=
  match e.argsFor declaring maxBaseDepth candidate with
  | .error f => .error f
  | .ok none => .ok none
  | .ok (some args) => bindTypeArgs t args

/-- Binds the type parameters of a pair's type with the arguments of every pooled instance of the
method's declaring type, or of a type that derives from it. -/
def bindFromPool (e : Engine) (p : Pair) : Except Fault (List TypeRef) :=
  match e.program.declaring? p.entry with
  | none => .ok []
  | some d =>
    if !d.isGeneric then .ok []
    else
      (e.pool.types.mapM fun c => e.bindWith d.fullName p.type c).map fun rs => rs.filterMap id

/-- The types that the ends of a walk give, with the counts of pooled and dropped ones. -/
def bindFinals (e : Engine) : List Pair → Except Fault (List TypeRef × Nat × Nat)
  | [] => .ok ([], 0, 0)
  | p :: ps => do
    let (types, bound, dropped) ← bindFinals e ps
    if p.type.isConcrete then return (p.type :: types, bound, dropped)
    else
      match ← e.bindFromPool p with
      | [] => return (types, bound, dropped + 1)
      | more => return (more ++ types, bound + more.length, dropped)

/-- Resolves one seed. The result may hold repetitions. -/
def resolveSeed (e : Engine) (p : Pair) : Except Fault (List TypeRef × Stats) := do
  let (finals, s) := Walk.walk e.callers e.maxDepth p {}
  if s.counts.faulted then throw .outOfRange
  let (types, bound, dropped) ← e.bindFinals finals
  return (types,
    { seeds := 1, finals := finals.length, unresolved := s.counts.unresolved,
      cycles := s.counts.cycles, depth := s.counts.depth, poolBound := bound, dropped })

/-- Joins a seed's types behind those already found and counts the repetitions. -/
def join (r : Resolution) (types : List TypeRef) (stats : Stats) : Resolution :=
  types.foldl
    (fun r t =>
      if r.types.any fun u => u.fullName == t.fullName then
        { r with stats := { r.stats with duplicates := r.stats.duplicates + 1 } }
      else { r with types := r.types ++ [t] })
    { r with stats := r.stats.add stats }

/-- The seed of a call in which nothing is missing. -/
def pair? (c : CallRef) : Option Pair :=
  if c.type.isPresent then c.entry.map fun entry => { type := c.type, entry } else none

def resolveFrom (e : Engine) (cancelled : Bool) :
    Nat → List CallRef → Resolution → Except ResolveError Resolution
  | _, [], r => .ok r
  | i, c :: cs, r =>
    if cancelled then .error .cancelled
    else
      match pair? c with
      | none => .error (.incomplete i)
      | some p =>
        match e.resolveSeed p with
        | .error _ => .error .fault
        | .ok (types, stats) => resolveFrom e cancelled (i + 1) cs (join r types stats)

/-- The concrete instances that seeds resolve to, in seed order. -/
def resolve (e : Engine) (calls : List CallRef) (cancelled : Bool := false) :
    Except ResolveError Resolution := e.resolveFrom cancelled 0 calls {}

/-- The engine over modules: their registry, their generic call index and their pool. -/
def ofModules (modules : List (Option Module)) (maxDepth : Nat) : Engine :=
  let registry := Registry.ofModules modules
  { program := registry, registry,
    callers := (CallIndex.build registry .genericOnly modules).callers,
    pool := Pool.ofModules modules, maxDepth }

end Engine

inductive ProgramError where
  | index
  | resolve (e : ResolveError)

def ProgramError.message : ProgramError → Text
  | .index => "call index: context canceled"
  | .resolve e => e.message

/-- Resolves seeds against modules. A cancelled run fails at the first piece of work it meets. -/
def resolveProgram (modules : List (Option Module)) (calls : List CallRef) (maxDepth : Nat)
    (cancelled : Bool := false) : Except ProgramError Resolution :=
  if cancelled && !modules.isEmpty then .error .index
  else
    match (Engine.ofModules modules maxDepth).resolve calls cancelled with
    | .ok r => .ok r
    | .error e => .error (.resolve e)

end Monomorph
