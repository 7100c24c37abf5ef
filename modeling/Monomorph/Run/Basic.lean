import Monomorph.Run.Stages

/-!
# Runs

A run loads modules, indexes their calls, harvests the instances they mention, resolves the seeds
against all that, writes the synthetic module and then the report. A failing stage ends the run, so
nothing is written before everything is resolved.
-/

namespace Monomorph

structure Request where
  target : Text
  output : Text
  paths : List Text
  seeds : List Text
  /-- The directory for the report; empty for none. -/
  reportDir : Text := []
  cache : Option PoolCache := none
  maxDepth : Int := 0
  /-- Resolve without writing anything. -/
  dryRun : Bool := false

inductive RunError where
  | missingRequest
  | noSeeds
  | noTarget
  | stage (stage : Stage) (error : StageError)

def RunError.message : RunError → Text
  | .missingRequest => "missing request"
  | .noSeeds => "no seed types configured"
  | .noTarget => "missing target name"
  | .stage s e => s.name ++ ": " ++ e.message

namespace Run

open Work

variable {m : Type → Type} [Monad m] [Host m]

/-- Ends the timing of a stage. -/
def closeStage (s : Stage) (number : Nat) (nanos : Int64) (note : Text) : Work m RunError Unit :=
  modify fun w =>
    { w with
      timings := w.timings.set s nanos
      timer := w.timer.finish number nanos note }

/-- Does the work of a stage with its timing, its note and its progress. -/
def stage (s : Stage) (work : Work m StageError Text) : Work m RunError Unit := do
  let start ← now
  let number := (← get).timer.phases.length
  modify fun w => { w with timer := w.timer.begin s.name }
  notify { stage := s, status := .working }
  let result ← outcome work
  let nanos := (← now).since start
  match result with
  | .ok note => do
    closeStage s number nanos note
    notify { stage := s, status := .done }
  | .error e => do
    closeStage s number nanos ("error: " ++ e.message)
    notify { stage := s, status := .error, error := some e.message }
    throw (.stage s e)

/-- Tells for the file of a module, known by its index, how far it is. -/
def announce (loaded : List Loaded) (s : Stage) (status : Status) (number : Nat) :
    Work m StageError Unit :=
  notify { file := ((loaded[number]?).map Loaded.path).getD [], stage := s, status }

/-- Tells that files are in a stage. -/
def announceAll (s : Stage) (status : Status) {ε : Type} : List Text → Work m ε Unit
  | [] => return
  | file :: files => do
    notify { file, stage := s, status }
    announceAll s status files

def load (span : Nat) (req : Request) (crew : Crew m := .single) : Work m StageError Text := do
  let loaded ← Stage.loadModules span req.paths crew
  record fun p => { p with loaded := some loaded }
  announceAll .index .working (loaded.map Loaded.path)
  return Text.ofNat loaded.length ++ " modules"

def index (span : Nat) (crew : Crew m := .single) : Work m StageError Text := do
  let p ← products
  let x ← Stage.indexModules (announce (p.loaded.getD []) .harvest .working) p.registry
    .genericOnly span p.modules crew
  record fun p => { p with index := some x }
  return Text.ofNat x.callees.length ++ " callees"

/-- The shelf of a cache that knows the loaded modules. -/
def shelfFor (cache : PoolCache) (loaded : List Loaded) : PoolShelf :=
  { cache, digests := loaded.mapIdx fun i l => (i, l.digest) }

def harvest (span : Nat) (req : Request) (crew : Crew m := .single) : Work m StageError Text := do
  let p ← products
  let loaded := p.loaded.getD []
  let (hs, shelf) ← Stage.harvestModules (announce loaded .harvest .done) span
    (p.modules.map some) (req.cache.map fun c => shelfFor c loaded) crew
  let pool := Stage.joined hs
  record fun p => { p with pool := some pool }
  let note := Text.ofNat pool.types.length ++ " types"
  match shelf with
  | none => return note
  | some s => do
    record fun p => { p with hits := s.hits, misses := s.misses }
    return note ++ ", cache " ++ Text.ofNat s.hits ++ "/" ++ Text.ofNat (s.hits + s.misses)

def resolve (span : Nat) (req : Request) (crew : Crew m := .single) : Work m StageError Text := do
  let p ← products
  let registry := p.registry
  let calls := CallRef.collect registry req.seeds
  record fun p => { p with calls := some calls }
  let engine : Engine :=
    { program := registry, registry, callers := (p.index.getD {}).callers, pool := p.pool.getD {},
      maxDepth := depthLimit req.maxDepth }
  let r ← Stage.resolveSeeds engine span calls crew
  record fun p => { p with resolved := some r }
  return Text.ofNat calls.length ++ " seeds, " ++ Text.ofNat r.types.length ++ " types"

def emit (req : Request) : Work m StageError Text := do
  let p ← products
  let module ← ofHost (ExceptT.adapt StageError.emit
    (Emit.write req.target p.resolution.types p.registry req.output))
  record fun p => { p with emitted := some module }
  return req.output

def report (cwd : Text) (start : Instant) (req : Request) : Work m StageError Text := do
  let p ← products
  let r : Report :=
    { target := req.target, output := req.output, result := p.resolution,
      nanos := ((← now).since start).toInt }
  let path ← ofHost (ExceptT.adapt StageError.report (r.save cwd req.reportDir))
  record fun p => { p with reportPath := path }
  return path

/-- The stages up to resolution, which write nothing but cache entries. -/
def findTypes (req : Request) (span : Nat) (crew : Crew m := .single) : Work m RunError Unit := do
  announceAll .load .queued req.paths
  stage .load (load span req crew)
  stage .index (index span crew)
  stage .harvest (harvest span req crew)
  stage .resolve (resolve span req crew)

/-- The stages that write. -/
def writeTypes (cwd : Text) (start : Instant) (req : Request) : Work m RunError Unit := do
  stage .emit (emit req)
  if req.reportDir = [] then return
  stage .report (report cwd start req)

/-- All stages in order; the number of resolved types. -/
def stages (cwd : Text) (start : Instant) (req : Request) (span : Nat)
    (crew : Crew m := .single) : Work m RunError Nat := do
  findTypes req span crew
  unless req.dryRun do writeTypes cwd start req
  return (← products).resolution.types.length

/-- Why a request is refused. -/
def refusal? (req : Request) : Option RunError :=
  if req.seeds.isEmpty then some .noSeeds
  else if req.target = [] then some .noTarget
  else none

/-- Runs a request; there may be none. The products are there also when the run fails. -/
def run (cwd : Text) (request : Option Request) (crew : Crew m := .single) :
    Work m RunError Unit := do
  match request with
  | none => throw .missingRequest
  | some req =>
    match refusal? req with
    | some e => throw e
    | none => do
      let start ← now
      let result ← outcome (spanned .run ("concretize:" ++ req.target) 0 RunError.message
        (fun n : Nat => { values := [("types", Text.ofNat n)] })
        fun span => stages cwd start req span crew)
      let nanos := (← now).since start
      record fun p => { p with elapsed := nanos }
      match result with
      | .ok _ => return
      | .error e => throw e

end Run

end Monomorph
