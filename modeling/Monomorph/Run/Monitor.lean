import Monomorph.CallIndex
import Monomorph.Digest
import Monomorph.Host
import Monomorph.Resolve.Engine
import Monomorph.Stage
import Monomorph.Trace.Tracer

/-!
# Watching a run

The work of a run goes on in a state that its surroundings can see: the products so far, the
trace, the progress events, the timer, and whether the run has been cancelled. A run that fails
leaves the products that it has made. Events may cancel the run that sends them. Spans nest, and a
span that was begun is ended whether its work succeeds or fails.
-/

namespace Monomorph

/-- A loaded module with the path and the digest of its file. -/
structure Loaded where
  path : Text
  module : Module
  digest : Digest

/-- What a run has made so far. -/
structure Products where
  loaded : Option (List Loaded) := none
  index : Option CallIndex := none
  pool : Option Pool := none
  calls : Option (List CallRef) := none
  resolved : Option Resolution := none
  emitted : Option Module := none
  reportPath : Text := []
  hits : Nat := 0
  misses : Nat := 0
  elapsed : Int64 := 0

namespace Products

def modules (p : Products) : List Module := (p.loaded.getD []).map Loaded.module

def registry (p : Products) : Registry := Registry.ofModules (p.modules.map some)

/-- The result; an empty one before seeds have been resolved. -/
def resolution (p : Products) : Resolution := p.resolved.getD {}

end Products

/-- What is watched of a run. -/
structure Monitor where
  products : Products := {}
  tracer : Trace.Tracer := .nop
  events : List Progress := []
  cancelled : Bool := false
  cancelsOn : Progress → Bool := fun _ => false
  timer : Timer := {}
  timings : Timings := {}

/-- Work under a monitor that may fail. -/
abbrev Work (m : Type → Type) (ε α : Type) := ExceptT ε (StateT Monitor m) α

/-- How a span ends: its values and its detail. -/
structure Closing where
  values : List (Text × Text) := []
  detail : Text := []

namespace Work

variable {m : Type → Type} [Monad m] {ε δ α : Type}

/-- The outcome of work that may fail, as a value. -/
def outcome (w : Work m ε α) : Work m δ (Except ε α) := ExceptT.lift w.run

/-- Work of the host that may fail, as part of a run. -/
def ofHost (w : ExceptT ε m α) : Work m ε α := ExceptT.mk (StateT.lift w.run)

/-- Work of the host that cannot fail, as part of a run. -/
def sure (w : m α) : Work m ε α := ExceptT.lift (StateT.lift w)

def notify (p : Progress) : Work m ε Unit :=
  modify fun w => { w with events := w.events ++ [p], cancelled := w.cancelled || w.cancelsOn p }

def isCancelled : Work m ε Bool := return (← get).cancelled

def products : Work m ε Products := return (← get).products

def record (f : Products → Products) : Work m ε Unit :=
  modify fun w => { w with products := f w.products }

variable [Host m]

def now : Work m ε Instant := sure Host.now

/-- Does something to the tracer at the current time. -/
def trace (f : Trace.Tracer → Trace.Tracer × α) : Work m ε α := do
  let t ← now
  modifyGet fun w =>
    let (tracer, a) := f { w.tracer with now := t }
    (a, { w with tracer })

/-- Emits an event of its own. -/
def point (scope : Trace.Scope) (name detail : Text) (parent : Nat) : Work m ε Unit :=
  trace fun t => (t.point scope name detail parent, ())

def finish (span : Trace.Span) (c : Closing) : Work m ε Unit :=
  trace fun t =>
    let (t, span) := c.values.foldl (fun (t, s) (k, v) => t.attach s k v) (t, span)
    (t.finish span c.detail, ())

/-- Work inside a span, which is given the span's number. A failure is the detail of the end. -/
def spanned (scope : Trace.Scope) (name : Text) (parent : Nat) (message : ε → Text)
    (closing : α → Closing) (work : Nat → Work m ε α) : Work m ε α := do
  let span ← trace fun t => t.begin scope name parent
  match ← outcome (work span.id) with
  | .ok a => do
    finish span (closing a)
    return a
  | .error e => do
    finish span { detail := message e }
    throw e

end Work

end Monomorph
