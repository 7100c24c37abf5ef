import Monomorph.Run.Stages

/-!
# Workers that take turns

A stage may give each of its pieces to a worker of its own. What a worker does is a `Task`: acts that
are done at once, each going on from the answer to the one before. Between two acts of a worker any
acts of the others may fall, and the run may be cancelled from outside; `Turn`s say what happens
next. Workers that are not done when the turns have run out are finished in order.

A worker that fails calls the others off when it returns, and they notice before they start. The
first failure to be returned is that of the stage.
-/

namespace Monomorph

/-- What a worker does at once. -/
inductive Act where
  /-- Asks whether the work has been called off. -/
  | check
  | tell (event : Progress)
  /-- Announces a module by its index. -/
  | announce (number : Nat)
  /-- Takes a number for a span. -/
  | number (scope : Trace.Scope) (name : Text) (parent : Nat)
  | enter (span : Trace.Span)
  | leave (span : Trace.Span) (closing : Closing)
  | point (scope : Trace.Scope) (name detail : Text) (parent : Nat)
  | load (path : Text)
  /-- Asks the cache, if there is one, for the pool of a module. -/
  | fetch (number : Nat)
  /-- Keeps the pool of a module in the cache, if there is one. -/
  | keep (number : Nat) (name : Text) (pool : Pool)

/-- What workers share: the first failure that was returned, and the shelf of the cache. -/
structure Shared where
  failure : Option StageError := none
  shelf : Option PoolShelf := none

/-- A worker returns a failure. -/
def Shared.failWith (s : Shared) (e : StageError) : Shared :=
  { s with failure := s.failure.or (some e) }

namespace Act

open Work

/-- What a worker learns from an act. -/
abbrev Answer : Act → Type
  | check => Bool
  | announce _ => Except StageError Unit
  | number .. => Trace.Span
  | load _ => Except LoadError (Module × List UInt8)
  | fetch _ => Option Pool
  | tell _ | enter _ | leave .. | point .. | keep .. => Unit

variable {m : Type → Type} [Monad m] [Host m]

def perform (announcing : Nat → Work m StageError Unit) (s : Shared) :
    (a : Act) → Work m StageError (a.Answer × Shared)
  | check => return (s.failure.isSome || (← isCancelled), s)
  | tell event => do
    notify event
    return ((), s)
  | announce i => return (← outcome (announcing i), s)
  | number scope name parent => return (← Work.trace fun t => t.number scope name parent, s)
  | enter span => return (← Work.trace fun t => (t.enter span, ()), s)
  | leave span closing => do
    Work.finish span closing
    return ((), s)
  | point scope name detail parent => do
    Work.point scope name detail parent
    return ((), s)
  | load path => return (← outcome (ofHost (Module.load path)), s)
  | fetch i =>
    match s.shelf with
    | none => return (none, s)
    | some shelf => do
      let (pool, shelf) ← sure (shelf.load i)
      return (pool, { s with shelf := some shelf })
  | keep i name pool =>
    match s.shelf with
    | none => return ((), s)
    | some shelf => do
      let shelf ← sure (shelf.store i name pool)
      return ((), { s with shelf := some shelf })

end Act

/-- What a worker has left to do. -/
inductive Task (α : Type) where
  | done (a : α)
  /-- Fails, and so calls the others off. -/
  | fail (e : StageError)
  | step (a : Act) (next : a.Answer → Task α)

namespace Task

variable {m : Type → Type} [Monad m] [Host m] {α : Type}

/-- A task that is not started once the work has been called off. -/
def guarded (t : Task α) : Task α :=
  .step .check fun off => if off then .fail .cancelled else t

/-- A task inside a span, which it has to leave. -/
def within (scope : Trace.Scope) (name : Text) (parent : Nat) (t : Trace.Span → Task α) : Task α :=
  .step (.number scope name parent) fun span => .step (.enter span) fun _ => t span

/-- Announces a module and is done. -/
def announced (number : Nat) (a : α) : Task α :=
  .step (.announce number) fun
    | .ok _ => .done a
    | .error e => .fail e

/-- Does all that is left, without interruption. -/
def finish (announcing : Nat → Work m StageError Unit) :
    Task α → Shared → Work m StageError (Option α × Shared)
  | .done a, s => return (some a, s)
  | .fail e, s => return (none, s.failWith e)
  | .step a next, s => do
    let (answer, s) ← a.perform announcing s
    finish announcing (next answer) s

/-- Does all that is left of tasks, one after another. -/
def finishEach (announcing : Nat → Work m StageError Unit) :
    List (Task α) → Shared → Work m StageError (List α × Shared)
  | [], s => return ([], s)
  | t :: ts, s => do
    let (a, s) ← t.finish announcing s
    let (as, s) ← finishEach announcing ts s
    return (a.toList ++ as, s)

end Task

/-- What happens next: a worker acts, or the run is cancelled from outside. -/
inductive Turn where
  | worker (index : Nat)
  | cancel

structure Squad (α : Type) where
  tasks : List (Task α)
  shared : Shared := {}

namespace Squad

open Work

variable {m : Type → Type} [Monad m] [Host m] {α : Type}

/-- A worker acts, or returns its failure. -/
def act (announcing : Nat → Work m StageError Unit) (q : Squad α) (index : Nat) :
    Work m StageError (Squad α) :=
  match q.tasks[index]? with
  | some (.step a next) => do
    let (answer, shared) ← a.perform announcing q.shared
    return { tasks := q.tasks.set index (next answer), shared }
  | some (.fail e) => return { q with shared := q.shared.failWith e }
  | _ => return q

def takeTurn (announcing : Nat → Work m StageError Unit) (q : Squad α) :
    Turn → Work m StageError (Squad α)
  | .worker index => q.act announcing index
  | .cancel => do
    modify fun w => { w with cancelled := true }
    return q

def takeTurns (announcing : Nat → Work m StageError Unit) :
    List Turn → Squad α → Work m StageError (Squad α)
  | [], q => return q
  | turn :: turns, q => do
    let q ← q.takeTurn announcing turn
    takeTurns announcing turns q

/-- Takes turns, finishes what is left, and gives the results in the order of the workers. -/
def finish (announcing : Nat → Work m StageError Unit) (turns : List Turn) (q : Squad α) :
    Work m StageError (List α × Option PoolShelf) := do
  let q ← takeTurns announcing turns q
  let (results, shared) ← Task.finishEach announcing q.tasks q.shared
  match shared.failure with
  | some e => throw e
  | none => return (results, shared.shelf)

end Squad

namespace Stage

def loadTask (parent : Nat) (path : Text) : Task Loaded :=
  .guarded <|
    .step (.tell { file := path, stage := .load, status := .working }) fun _ =>
    .step (.load path) fun
      | .error e =>
        .step (.tell { file := path, stage := .load, status := .error, error := some e.message })
          fun _ => .fail (.load e)
      | .ok (module, bytes) =>
        .step (.point .module ("loaded:" ++ module.name) path parent)
          fun _ => .done { path, module, digest := Digest.sum bytes }

/-- Scans a module whose definitions stand from index `first` on. -/
def indexTask (r : Registry) (e : Extractor) (parent number first : Nat) (module : Module) :
    Task CallIndex :=
  .guarded <| .within .module ("callindex:" ++ module.name) parent fun span =>
    .step (.leave span {}) fun _ => .announced number (CallIndex.scan r e first module.definitions)

/-- A task for each of the modules. -/
def indexTasks (r : Registry) (e : Extractor) (parent : Nat) :
    (number first : Nat) → List Module → List (Task CallIndex)
  | _, _, [] => []
  | number, first, module :: rest =>
    indexTask r e parent number first module ::
      indexTasks r e parent (number + 1) (first + module.definitions.length) rest

/-- Harvests a module inside a span, from the cache if that holds its pool. -/
def harvestWithin (number : Nat) (module : Module) (span : Trace.Span) : Task (Option Harvest) :=
  let fresh := Pool.ofModule module
  let close (h : Harvest) : Task (Option Harvest) :=
    .step (.leave span (harvestClosing h)) fun _ => .announced number (some h)
  .step (.fetch number) fun
    | some pool => close { pool, cached := true }
    | none => .step (.keep number module.name fresh) fun _ => close { pool := fresh, cached := false }

/-- Harvests a module; an empty place gives nothing. -/
def harvestTask (parent number : Nat) : Option Module → Task (Option Harvest)
  | none => .guarded (.done none)
  | some module =>
    .guarded <| .within .module ("harvest:" ++ module.name) parent (harvestWithin number module)

@[inherit_doc indexTasks]
def harvestTasks (parent : Nat) :
    (number : Nat) → List (Option Module) → List (Task (Option Harvest))
  | _, [] => []
  | number, module :: rest =>
    harvestTask parent number module :: harvestTasks parent (number + 1) rest

def resolveTask (e : Engine) (parent number : Nat) (call : CallRef) :
    Task (List TypeRef × Stats) :=
  .guarded <|
    match Engine.pair? call with
    | none => .fail (.resolve (.incomplete number))
    | some pair =>
      .within .seed (call.render e.program) parent fun span =>
        match e.resolveSeed pair with
        | .ok out =>
          .step (.leave span { values := [("types", Text.ofNat out.1.length)] })
            fun _ => .done out
        | .error _ =>
          .step (.leave span { detail := (StageError.resolve .fault).message })
            fun _ => .fail (.resolve .fault)

def resolveTasks (e : Engine) (parent : Nat) :
    (number : Nat) → List CallRef → List (Task (List TypeRef × Stats))
  | _, [] => []
  | number, call :: rest =>
    resolveTask e parent number call :: resolveTasks e parent (number + 1) rest

end Stage

namespace Crew

variable {m : Type → Type} [Monad m] [Host m]

/-- A worker for each piece, taking turns in each stage as given. -/
def taking (turns : Stage → List Turn) : Crew m where
  load parent paths := do
    let squad : Squad Loaded := { tasks := paths.map (Stage.loadTask parent) }
    return (← squad.finish (fun _ => return) (turns .load)).1
  index announcing r e parent modules := do
    let squad : Squad CallIndex := { tasks := Stage.indexTasks r e parent 0 0 modules }
    return (← squad.finish announcing (turns .index)).1
  harvest announcing parent modules shelf := do
    let squad : Squad (Option Harvest) :=
      { tasks := Stage.harvestTasks parent 0 modules, shared := { shelf } }
    let (hs, shelf) ← squad.finish announcing (turns .harvest)
    return (hs.filterMap id, shelf)
  resolve e parent calls := do
    let squad : Squad (List TypeRef × Stats) := { tasks := Stage.resolveTasks e parent 0 calls }
    return (← squad.finish (fun _ => return) (turns .resolve)).1

end Crew

end Monomorph
