import Monomorph.Trace.Event

/-!
# Tracers

A tracer hands each event to its sinks: streams, which write it at once, and rings, which keep the
last events in memory for a dump after a failure. A sink keeps what its own level keeps, and every
heartbeat. Sequence numbers and span numbers are counted by the tracer.
-/

namespace Monomorph.Trace

/-- A stream's output: what has been written, and how much it takes. A write that does not fit
leaves the part that fits. -/
structure Writer where
  limit : Option Nat := none
  written : Text := []
  flushFails : Bool := false
  closeFails : Bool := false
  closed : Nat := 0

namespace Writer

def write (w : Writer) (t : Text) : Writer :=
  { w with
    written := match w.limit with
      | none => w.written ++ t
      | some n => (w.written ++ t).take n }

end Writer

/-- The number of events that a ring keeps when no positive number is given. -/
def defaultCapacity : Nat := 4096

/-- A circular store of events: `head` is where the next event goes once all slots are used. -/
structure Ring where
  capacity : Nat
  slots : List Event := []
  head : Nat := 0
  full : Bool := false

namespace Ring

def new (capacity : Int) : Ring :=
  { capacity := if capacity ≤ 0 then defaultCapacity else capacity.toNat }

/-- Stores an event, over the oldest one when all slots are used. -/
def push (r : Ring) (e : Event) : Ring :=
  let head := (r.head + 1) % r.capacity
  { r with
    slots := if r.full then r.slots.set r.head e else r.slots ++ [e],
    head, full := r.full || head == 0 }

/-- The stored events, oldest first. -/
def snapshot (r : Ring) : List Event :=
  if r.full then r.slots.drop r.head ++ r.slots.take r.head else r.slots

def dump (r : Ring) (f : Format) : Text := r.snapshot.flatMap (Event.render f)

end Ring

inductive Store where
  | stream (format : Format) (out : Writer)
  | ring (ring : Ring)

/-- A store with its own level. -/
structure Sink where
  level : Level
  store : Store

/-- A tracer with its counters, the time that its own events carry, and all that was emitted. -/
structure Tracer where
  level : Level
  sinks : List Sink := []
  now : Instant := { sec := 0, nano := 0 }
  seq : Nat := 0
  spans : Nat := 0
  history : List Event := []

/-- An open span, or an inert one that emits nothing. -/
structure Span where
  live : Bool := false
  id : Nat := 0
  parent : Nat := 0
  scope : Scope := ⟨0⟩
  name : Text := []
  extra : List (Text × Text) := []

namespace Sink

def accepts (s : Sink) (e : Event) : Bool := s.level.keeps e.scope || e.kind == .heartbeat

def put (s : Sink) (e : Event) : Sink :=
  match s.store with
  | .stream f out => { s with store := .stream f (out.write (e.render f)) }
  | .ring r => { s with store := .ring (r.push e) }

end Sink

namespace Tracer

/-- A tracer that discards everything. -/
def nop : Tracer := { level := .off }

/-- Hands an event to the sinks from left to right. A sink that keeps an event without a sequence
number gives it the next one. -/
def emitTo (e : Event) : (seq : Nat) → List Sink → Nat × List Sink
  | seq, [] => (seq, [])
  | seq, s :: rest =>
    if s.accepts e then
      let n := if e.seq = 0 then seq + 1 else seq
      let (m, rest) := emitTo e n rest
      (m, s.put { e with seq := if e.seq = 0 then n else e.seq } :: rest)
    else
      let (m, rest) := emitTo e seq rest
      (m, s :: rest)

def emit (t : Tracer) (e : Event) : Tracer :=
  let (seq, sinks) := emitTo e t.seq t.sinks
  { t with seq, sinks, history := t.history ++ [e] }

/-- Emits an event under the next sequence number. -/
def emitNext (t : Tracer) (e : Event) : Tracer :=
  ({ t with seq := t.seq + 1 } : Tracer).emit { e with seq := t.seq + 1, time := t.now }

def isActive (t : Tracer) (s : Scope) : Bool := t.level.isOn && t.level.keeps s

/-- Numbers a span under a parent. -/
def number (t : Tracer) (scope : Scope) (name : Text) (parent : Nat) : Tracer × Span :=
  if t.isActive scope then
    let id := t.spans + 1
    ({ t with spans := id }, { live := true, id, parent, scope, name })
  else (t, {})

def enter (t : Tracer) (s : Span) : Tracer :=
  if s.live then
    t.emitNext { kind := .begin, scope := s.scope, span := s.id, parent := s.parent, name := s.name }
  else t

def begin (t : Tracer) (scope : Scope) (name : Text) (parent : Nat) : Tracer × Span :=
  let (t, span) := t.number scope name parent
  (t.enter span, span)

def finish (t : Tracer) (s : Span) (detail : Text) : Tracer :=
  if s.live then
    t.emitNext
      { kind := .finish, scope := s.scope, span := s.id, parent := s.parent, name := s.name,
        detail, extra := s.extra }
  else t

def point (t : Tracer) (scope : Scope) (name detail : Text) (parent : Nat) : Tracer :=
  if t.isActive scope then t.emitNext { kind := .point, scope, parent, name, detail } else t

/-- Attaches a value to the span's end. An end that a ring still keeps shows the values of its
span, so it changes too once it has any. -/
def attach (t : Tracer) (s : Span) (key value : Text) : Tracer × Span :=
  if !s.live then (t, s)
  else
    let extra := setExtra key value s.extra
    let refresh (e : Event) : Event :=
      if e.kind = .finish ∧ e.span = s.id ∧ e.extra ≠ [] then { e with extra } else e
    let sinks := t.sinks.map fun k =>
      match k.store with
      | .stream .. => k
      | .ring r => { k with store := .ring { r with slots := r.slots.map refresh } }
    ({ t with sinks }, { s with extra })

def ring? (t : Tracer) : Option Ring :=
  t.sinks.findSome? fun s =>
    match s.store with
    | .ring r => some r
    | .stream .. => none

def writers (t : Tracer) : List Writer :=
  t.sinks.filterMap fun s =>
    match s.store with
    | .stream _ w => some w
    | .ring _ => none

def output (t : Tracer) : Text := t.writers.flatMap Writer.written

/-- The error of the first stream that does not flush. -/
def flush (t : Tracer) : Option Text :=
  if t.writers.any Writer.flushFails then some "flush failed" else none

/-- Closes the streams that flush; the first error is reported. -/
def close (t : Tracer) : Tracer × Option Text :=
  let errors := t.writers.filterMap fun w : Writer =>
    if w.flushFails then some (Text.ofString "flush failed")
    else if w.closeFails then some (Text.ofString "close failed")
    else none
  let sinks := t.sinks.map fun s =>
    match s.store with
    | .stream f w =>
      { s with store := .stream f (if w.flushFails then w else { w with closed := w.closed + 1 }) }
    | .ring _ => s
  ({ t with sinks }, errors.head?)

def formatFor (f : Format) (path : Text) : Format :=
  if f ≠ .auto then f
  else if Text.endsWith path ".ndjson" || Text.endsWith path ".jsonl" then .objects
  else .text

/-- Builds a tracer whose stream, if it has one, writes to `out`. The error level keeps a ring
whatever the storage. -/
def new (level : Level) (mode : Storage) (format : Format) (path : Text) (ringSize : Int)
    (out : Writer := {}) : Except Text Tracer :=
  if level = .off then .ok nop
  else
    let stream : Sink := { level, store := .stream (formatFor format path) out }
    let ring : Sink := { level, store := .ring (.new ringSize) }
    if level = .error ∨ mode = .ring then .ok { level, sinks := [ring] }
    else if mode = .stream then .ok { level, sinks := [stream] }
    else if mode = .both then .ok { level, sinks := [stream, ring] }
    else .error ("unknown storage mode: " ++ mode.word)

/-- The dump after a failure: what the ring holds, under a heading. -/
def failureDump (t : Tracer) : Text :=
  match t.ring? with
  | none => []
  | some r => "trace: last events before failure\n" ++ r.dump .text

/-- Whether a heartbeat with that interval starts. -/
def beats (t : Tracer) (interval : Int) : Bool := t.level.isOn && 0 < interval

def heartbeat (t : Tracer) (n : Nat) : Tracer :=
  t.emitNext { kind := .heartbeat, scope := .run, name := "heartbeat", detail := "#" ++ Text.ofNat n }

end Tracer

end Monomorph.Trace
