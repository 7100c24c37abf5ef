import Monomorph.Emit
import Monomorph.PoolCache
import Monomorph.Report
import Monomorph.Run.Monitor

/-!
# The stages of a run

Loading, indexing, harvesting and resolving, each over its modules or seeds. How the pieces of a
stage follow each other is left to a crew; the single one takes them one after another. A cancelled
run fails before the next piece of work of a stage.
-/

namespace Monomorph

inductive StageError where
  | cancelled
  | load (error : LoadError)
  | resolve (error : ResolveError)
  | emit (error : Emit.WriteError)
  | report (error : ReportError)

def StageError.message : StageError → Text
  | .cancelled => ResolveError.cancelled.message
  | .load e => e.message
  | .resolve e => e.message
  | .emit e => e.message
  | .report e => e.message

/-- The pool of a module, and whether it came from the cache. -/
structure Harvest where
  pool : Pool
  cached : Bool

namespace Stage

open Work

variable {m : Type → Type} [Monad m] [Host m]

/-- Fails when the run has been cancelled. -/
def proceed : Work m StageError Unit := do
  if ← isCancelled then throw .cancelled

def loadEach (parent : Nat) : List Text → Work m StageError (List Loaded)
  | [] => return []
  | path :: rest => do
    proceed
    notify { file := path, stage := .load, status := .working }
    match ← outcome (ofHost (Module.load path)) with
    | .error e => do
      notify { file := path, stage := .load, status := .error, error := some e.message }
      throw (.load e)
    | .ok (module, bytes) => do
      point .module ("loaded:" ++ module.name) path parent
      let more ← loadEach parent rest
      return { path, module, digest := Digest.sum bytes } :: more

/-- Scans modules one after another; each is announced by its index when it has been scanned. -/
def indexEach (announce : Nat → Work m StageError Unit) (r : Registry) (e : Extractor) (parent : Nat) :
    (number first : Nat) → List Module → Work m StageError (List CallIndex)
  | _, _, [] => return []
  | number, first, module :: rest => do
    proceed
    let defs := module.definitions
    let part ← spanned .module ("callindex:" ++ module.name) parent StageError.message (fun _ => {})
      fun _ => return CallIndex.scan r e first defs
    announce number
    let more ← indexEach announce r e parent (number + 1) (first + defs.length) rest
    return part :: more

/-- The closing of a harvest: where the pool came from, or how large it is. -/
def harvestClosing (h : Harvest) : Closing :=
  if h.cached then { detail := "cached" }
  else { values := [("types", Text.ofNat h.pool.types.length)] }

/-- The pool of a module from the cache, or from the module itself, which is then kept. -/
def harvestOne (number : Nat) (module : Module) (shelf : Option PoolShelf) :
    Work m StageError (Harvest × Option PoolShelf) := do
  let fresh := Pool.ofModule module
  match shelf with
  | none => return ({ pool := fresh, cached := false }, none)
  | some shelf => do
    match ← sure (shelf.load number) with
    | (some pool, shelf) => return ({ pool, cached := true }, some shelf)
    | (none, shelf) => do
      let shelf ← sure (shelf.store number module.name fresh)
      return ({ pool := fresh, cached := false }, some shelf)

/-- Harvests modules one after another; an empty place gives nothing. -/
def harvestEach (announce : Nat → Work m StageError Unit) (parent : Nat) :
    (number : Nat) → List (Option Module) → Option PoolShelf →
      Work m StageError (List Harvest × Option PoolShelf)
  | _, [], shelf => return ([], shelf)
  | number, module :: rest, shelf => do
    proceed
    match module with
    | none => harvestEach announce parent (number + 1) rest shelf
    | some module => do
      let (h, shelf) ← spanned .module ("harvest:" ++ module.name) parent StageError.message
        (fun h => harvestClosing h.1) fun _ => harvestOne number module shelf
      announce number
      let (more, shelf) ← harvestEach announce parent (number + 1) rest shelf
      return (h :: more, shelf)

/-- The pools of harvests joined in order. -/
def joined (hs : List Harvest) : Pool := (hs.map Harvest.pool).foldl Pool.merge {}

/-- Resolves seeds one after another, each to its types and counters. -/
def resolveEach (e : Engine) (parent : Nat) :
    (number : Nat) → List CallRef → Work m StageError (List (List TypeRef × Stats))
  | _, [] => return []
  | number, call :: rest => do
    proceed
    match Engine.pair? call with
    | none => throw (.resolve (.incomplete number))
    | some pair => do
      let out ← spanned .seed (call.render e.program) parent StageError.message
        (fun out => { values := [("types", Text.ofNat out.1.length)] }) fun _ =>
          match e.resolveSeed pair with
          | .ok out => return out
          | .error _ => throw (.resolve .fault)
      let more ← resolveEach e parent (number + 1) rest
      return out :: more

end Stage

/-- How the pieces of work of each stage are done, and in which order their results stand. -/
structure Crew (m : Type → Type) where
  load (parent : Nat) (paths : List Text) : Work m StageError (List Loaded)
  index (announce : Nat → Work m StageError Unit) (r : Registry) (e : Extractor) (parent : Nat)
    (modules : List Module) : Work m StageError (List CallIndex)
  harvest (announce : Nat → Work m StageError Unit) (parent : Nat) (modules : List (Option Module))
    (shelf : Option PoolShelf) : Work m StageError (List Harvest × Option PoolShelf)
  resolve (e : Engine) (parent : Nat) (calls : List CallRef) :
    Work m StageError (List (List TypeRef × Stats))

namespace Crew

variable {m : Type → Type} [Monad m] [Host m]

/-- Does the pieces one after another. -/
def single : Crew m where
  load := Stage.loadEach
  index announce r e parent modules := Stage.indexEach announce r e parent 0 0 modules
  harvest announce parent modules shelf := Stage.harvestEach announce parent 0 modules shelf
  resolve e parent calls := Stage.resolveEach e parent 0 calls

end Crew

namespace Stage

open Work

variable {m : Type → Type} [Monad m] [Host m]

def loadModules (parent : Nat) (paths : List Text) (crew : Crew m := .single) :
    Work m StageError (List Loaded) :=
  spanned .phase "load" parent StageError.message (fun _ => {}) fun span => crew.load span paths

def indexModules (announce : Nat → Work m StageError Unit) (r : Registry) (e : Extractor)
    (parent : Nat) (modules : List Module) (crew : Crew m := .single) :
    Work m StageError CallIndex :=
  spanned .phase "callindex" parent StageError.message
    (fun x : CallIndex => { values := [("keys", Text.ofNat x.callees.length)] })
    fun span => return (← crew.index announce r e span modules).foldl CallIndex.merge {}

def harvestModules (announce : Nat → Work m StageError Unit) (parent : Nat)
    (modules : List (Option Module)) (shelf : Option PoolShelf) (crew : Crew m := .single) :
    Work m StageError (List Harvest × Option PoolShelf) :=
  spanned .phase "harvest" parent StageError.message
    (fun h => { values := [("types", Text.ofNat (joined h.1).types.length)] })
    fun span => crew.harvest announce span modules shelf

def resolveSeeds (e : Engine) (parent : Nat) (calls : List CallRef) (crew : Crew m := .single) :
    Work m StageError Resolution :=
  spanned .phase "resolve" parent StageError.message
    (fun r : Resolution =>
      { values := [("types", Text.ofNat r.types.length)], detail := r.stats.render })
    fun span => do
      let outs ← crew.resolve e span calls
      return outs.foldl (fun r (types, stats) => Engine.join r types stats) {}

end Stage

end Monomorph
