import Mathlib.Data.List.DropRight
import Monomorph.Trace.Tracer

/-!
# A ring holds the tail of the stream

A ring is a circular store. While there is room its slots are the events so far; from then on they
are the newest events followed by the oldest ones, with the head between the two (`Ring.Holds`). One
more event goes over the oldest one, so what the ring shows is always the end of what went into it
(`Ring.Holds.snapshot`).

A tracer with several sinks hands each of them what its own level keeps. An event that has a number
is the same for all of them, so a stream and a ring of one level keep the same events, and the ring
dumps the end of what the stream has written.
-/

namespace Monomorph.Trace

/-! ## The circular store -/

namespace Ring

/-- The events that went into a ring, in order: all of them are there, or some are lost and the slots
hold the newer of the others in front of the older. -/
inductive Holds (r : Ring) : List Event → Prop where
  | filling {es : List Event} (room : es.length < r.capacity) (slots : r.slots = es)
      (head : r.head = es.length) (full : r.full = false) : r.Holds es
  | wrapped {lost old new : List Event} (size : (new ++ old).length = r.capacity)
      (slots : r.slots = new ++ old) (head : r.head = new.length) (full : r.full = true)
      (left : old ≠ []) : r.Holds (lost ++ old ++ new)

theorem holds_new (capacity : Int) : (new capacity).Holds [] := by
  refine .filling ?_ rfl rfl rfl
  unfold new
  dsimp only
  split
  · decide
  · rw [List.length_nil]
    omega

/-- One more event. -/
theorem Holds.push {r : Ring} {es : List Event} (h : r.Holds es) (e : Event) :
    (r.push e).Holds (es ++ [e]) := by
  cases h with
  | filling room slots head full =>
      by_cases hroom : es.length + 1 < r.capacity
      · have hhead : (r.head + 1) % r.capacity = es.length + 1 := by
          rw [head, Nat.mod_eq_of_lt hroom]
        refine .filling (by simpa [Ring.push] using hroom) ?_ ?_ ?_
        · simp [Ring.push, full, slots]
        · simp [Ring.push, hhead]
        · simp [Ring.push, full, hhead]
      -- The last slot is used now, and the next event goes over the first.
      · have hlast : es.length + 1 = r.capacity := by omega
        have hhead : (r.head + 1) % r.capacity = 0 := by rw [head, hlast, Nat.mod_self]
        have hwrapped : (r.push e).Holds ([] ++ (es ++ [e]) ++ []) := by
          refine .wrapped (by simpa [Ring.push] using hlast) ?_ ?_ ?_ (by simp)
          · simp [Ring.push, full, slots]
          · simp [Ring.push, hhead]
          · simp [Ring.push, hhead]
        simpa using hwrapped
  | @wrapped lost old new size slots head full left =>
      obtain ⟨oldest, rest, rfl⟩ := List.exists_cons_of_ne_nil left
      rw [List.length_append, List.length_cons] at size
      by_cases hrest : rest = []
      -- The head goes back to the first slot: what was new is old now.
      · subst hrest
        have hhead : (r.head + 1) % r.capacity = 0 := by rw [head, ← size]; simp
        have hwrapped : (r.push e).Holds (lost ++ [oldest] ++ (new ++ [e]) ++ []) := by
          refine .wrapped (by simpa [Ring.push] using size) ?_ ?_ ?_ (by simp)
          · simp [Ring.push, full, slots, head]
          · simp [Ring.push, hhead]
          · simp [Ring.push, full]
        simpa using hwrapped
      · have hpos : 0 < rest.length := List.length_pos_of_ne_nil hrest
        have hhead : (r.head + 1) % r.capacity = new.length + 1 := by
          rw [head, Nat.mod_eq_of_lt (by omega)]
        have hwrapped : (r.push e).Holds (lost ++ [oldest] ++ rest ++ (new ++ [e])) := by
          refine .wrapped (by simpa [Ring.push, Nat.add_right_comm] using size) ?_ ?_ ?_ hrest
          · simp [Ring.push, full, slots, head]
          · simp [Ring.push, hhead]
          · simp [Ring.push, full]
        simpa using hwrapped

theorem Holds.foldl_push {r : Ring} {es : List Event} (h : r.Holds es) (more : List Event) :
    (more.foldl Ring.push r).Holds (es ++ more) := by
  induction more generalizing r es with
  | nil => simpa using h
  | cons e more ih => simpa using ih (h.push e)

/-- A ring shows the end of what went into it, as much as it has room for. -/
theorem Holds.snapshot {r : Ring} {es : List Event} (h : r.Holds es) :
    r.snapshot = es.rtake r.capacity := by
  cases h with
  | filling room slots head full =>
      rw [Ring.snapshot, if_neg (by simp [full]), slots, List.rtake, Nat.sub_eq_zero_of_le room.le,
        List.drop_zero]
  | @wrapped lost old new size slots head full left =>
      have hlost : (lost ++ old ++ new).length - r.capacity = lost.length := by
        rw [← size]
        simp only [List.length_append]
        omega
      rw [Ring.snapshot, if_pos full, slots, head, List.rtake, hlost]
      simp

theorem capacity_foldl_push (r : Ring) (es : List Event) :
    (es.foldl push r).capacity = r.capacity := by
  induction es generalizing r with
  | nil => rfl
  | cons e es ih => exact ih (r.push e)

/-- After some events a new ring shows the last of them, as many as it has room for. -/
theorem snapshot_new (capacity : Int) (es : List Event) :
    (es.foldl push (new capacity)).snapshot
      = es.rtake (min es.length (if capacity ≤ 0 then 4096 else capacity.toNat)) := by
  have hholds := (holds_new capacity).foldl_push es
  rw [List.nil_append] at hholds
  have hsize : (new capacity).capacity = if capacity ≤ 0 then 4096 else capacity.toNat := rfl
  rw [hholds.snapshot, capacity_foldl_push, hsize, List.rtake, List.rtake]
  congr 1
  omega

end Ring

/-! ## What a level keeps -/

/-- The events of the scopes that a level keeps, and every heartbeat. -/
def Level.accepted (l : Level) (es : List Event) : List Event :=
  es.filter fun e => l.keeps e.scope || e.kind == .heartbeat

/-- The events with a number each: one that has none gets the next. -/
def numbered : (last : Nat) → List Event → List Event
  | _, [] => []
  | last, e :: es =>
    if e.seq = 0 then { e with seq := last + 1 } :: numbered (last + 1) es
    else e :: numbered last es

theorem numbered_eq_self {es : List Event} (h : ∀ e ∈ es, e.seq ≠ 0) (last : Nat) :
    numbered last es = es := by
  induction es with
  | nil => rfl
  | cons e es ih =>
      obtain ⟨he, hes⟩ := List.forall_mem_cons.mp h
      rw [numbered, if_neg he, ih hes]

theorem length_numbered (last : Nat) (es : List Event) :
    (numbered last es).length = es.length := by
  induction es generalizing last with
  | nil => rfl
  | cons e es ih =>
      rw [numbered]
      split <;> simp [ih]

theorem Level.accepted_cons (l : Level) (e : Event) (es : List Event) :
    l.accepted (e :: es) = if l.keeps e.scope || e.kind == .heartbeat then e :: l.accepted es
      else l.accepted es := List.filter_cons

namespace Sink

/-- A sink takes from some events those that its level keeps. -/
def feed (s : Sink) (es : List Event) : Sink := (s.level.accepted es).foldl put s

theorem level_put (s : Sink) (e : Event) : (s.put e).level = s.level := by
  unfold put
  split <;> rfl

theorem feed_cons (s : Sink) (e : Event) (es : List Event) :
    s.feed (e :: es) = (if s.accepts e then s.put e else s).feed es := by
  rw [feed, Level.accepted_cons, accepts]
  split
  · rw [feed, level_put, List.foldl_cons]
  · rfl

/-- What a store of one kind becomes, given what one event does to it. -/
theorem feed_of_put {α : Type} {l : Level} {store : α → Store} {take : α → Event → α}
    (h : ∀ a e, put ⟨l, store a⟩ e = ⟨l, store (take a e)⟩) (a : α) (es : List Event) :
    feed ⟨l, store a⟩ es = ⟨l, store ((l.accepted es).foldl take a)⟩ := by
  unfold feed
  dsimp only
  generalize l.accepted es = kept
  induction kept generalizing a with
  | nil => rfl
  | cons e kept ih => rw [List.foldl_cons, h, ih, List.foldl_cons]

theorem feed_ring (l : Level) (r : Ring) (es : List Event) :
    feed ⟨l, .ring r⟩ es = ⟨l, .ring ((l.accepted es).foldl Ring.push r)⟩ :=
  feed_of_put (fun _ _ => rfl) r es

theorem feed_stream (l : Level) (f : Format) (w : Writer) (es : List Event) :
    feed ⟨l, .stream f w⟩ es
      = ⟨l, .stream f (((l.accepted es).map (Event.render f)).foldl Writer.write w)⟩ := by
  rw [List.foldl_map]
  exact feed_of_put (fun _ _ => rfl) w es

end Sink

/-- An output without a limit holds all that was written to it. -/
theorem Writer.written_foldl_write {w : Writer} (h : w.limit = none) (ts : List Text) :
    (ts.foldl Writer.write w).written = w.written ++ ts.flatten := by
  induction ts generalizing w with
  | nil => simp
  | cons t ts ih =>
      have hlimit : (w.write t).limit = none := h
      rw [List.foldl_cons, ih hlimit, write, h]
      simp

namespace Tracer

/-! ## What reaches the sinks -/

/-- An event with a number reaches every sink that keeps it as it is. -/
theorem emitTo_of_numbered {e : Event} (h : e.seq ≠ 0) (last : Nat) (sinks : List Sink) :
    emitTo e last sinks = (last, sinks.map fun s => if s.accepts e then s.put e else s) := by
  induction sinks with
  | nil => rfl
  | cons s sinks ih =>
      rw [emitTo]
      by_cases hs : s.accepts e = true
      · simp [hs, h, ih]
      · simp [hs, ih]

theorem sinks_foldl_emit {es : List Event} (h : ∀ e ∈ es, e.seq ≠ 0) (t : Tracer) :
    (es.foldl emit t).sinks = t.sinks.map fun s => s.feed es := by
  induction es generalizing t with
  | nil => exact (List.map_id _).symm
  | cons e es ih =>
      obtain ⟨he, hes⟩ := List.forall_mem_cons.mp h
      have hsinks : (t.emit e).sinks = t.sinks.map fun s => if s.accepts e then s.put e else s := by
        rw [emit, emitTo_of_numbered he]
      rw [List.foldl_cons, ih hes, hsinks, List.map_map]
      exact List.map_congr_left fun s _ => (s.feed_cons e es).symm

/-- A ring that stands alone takes an event that it keeps, with the next number if it has none. -/
theorem emit_ring {t : Tracer} {l : Level} {r : Ring} (h : t.sinks = [⟨l, .ring r⟩]) (e : Event) :
    (t.emit e).sinks = [⟨l, .ring ((numbered t.seq (l.accepted [e])).foldl Ring.push r)⟩] ∧
      ∀ rest, numbered t.seq (l.accepted (e :: rest))
        = numbered t.seq (l.accepted [e]) ++ numbered (t.emit e).seq (l.accepted rest) := by
  rw [emit, h]
  by_cases hkeeps : (l.keeps e.scope || e.kind == .heartbeat) = true
  · by_cases hseq : e.seq = 0
    · simp [emitTo, Sink.accepts, Sink.put, Level.accepted, numbered, hkeeps, hseq]
    · simp [emitTo, Sink.accepts, Sink.put, Level.accepted, numbered, hkeeps, hseq]
  · simp [emitTo, Sink.accepts, Level.accepted, numbered, hkeeps]

theorem sinks_foldl_emit_ring {t : Tracer} {l : Level} {r : Ring}
    (h : t.sinks = [⟨l, .ring r⟩]) (es : List Event) :
    (es.foldl emit t).sinks
      = [⟨l, .ring ((numbered t.seq (l.accepted es)).foldl Ring.push r)⟩] := by
  induction es generalizing t r with
  | nil => exact h
  | cons e es ih =>
      obtain ⟨hsinks, hnumbered⟩ := emit_ring h e
      rw [List.foldl_cons, ih hsinks, hnumbered es, List.foldl_append]

/-! ## Streams and rings -/

/-- A tracer of both storages, above the error level, has a stream and a ring of its level. -/
theorem new_both {level : Level} (h : Level.error.code < level.code) (format : Format) (path : Text)
    (capacity : Int) (out : Writer) :
    new level .both format path capacity out
      = .ok { level, sinks := [⟨level, .stream (formatFor format path) out⟩,
          ⟨level, .ring (.new capacity)⟩] } := by
  have hoff : level ≠ .off := by
    rintro rfl
    exact absurd h (by decide)
  have herror : level ≠ .error := by
    rintro rfl
    exact absurd h (by decide)
  rw [new, if_neg hoff]
  simp [herror, show Storage.both ≠ .ring by decide, show Storage.both ≠ .stream by decide]

/-- **A ring holds the tail of the stream.** Take any capacity, level and events in a row, and call
those accepted whose scope the level keeps, and the heartbeats.

* A ring of the level shows the last accepted events, oldest first, as many as it has room for: as
  many as its capacity, or 4096 if that is not positive. An event without a number is shown with the
  next one.
* A tracer of both storages above the error level has, after events with numbers, written each
  accepted event to its stream, in order and in its format. Its ring shows the last of them, as many
  as it has room for, and dumps these in the same format. -/
theorem ring_holds_tail (capacity : Int) (level : Level) (events : List Event) :
    let size := if capacity ≤ 0 then 4096 else capacity.toNat
    let accepted := level.accepted events
    let count := min accepted.length size
    (∀ t : Tracer, t.sinks = [⟨level, .ring (.new capacity)⟩] →
      ∃ r, (events.foldl emit t).ring? = some r ∧
        r.snapshot = (numbered t.seq accepted).rtake count ∧
        ((∀ e ∈ events, e.seq ≠ 0) → r.snapshot = accepted.rtake count)) ∧
    ∀ (format : Format) (path : Text) (out : Writer), Level.error.code < level.code →
      (∀ e ∈ events, e.seq ≠ 0) →
        ∃ t, new level .both format path capacity out = .ok t ∧
          let f := formatFor format path
          let after := events.foldl emit t
          after.writers = [(accepted.map (Event.render f)).foldl Writer.write out] ∧
            (out.limit = none → after.output = out.written ++ accepted.flatMap (Event.render f)) ∧
            ∃ r, after.ring? = some r ∧ r.snapshot = accepted.rtake count ∧
              r.dump f = (accepted.rtake count).flatMap (Event.render f) := by
  intro size accepted count
  have haccepted : (∀ e ∈ events, e.seq ≠ 0) → ∀ e ∈ accepted, e.seq ≠ 0 :=
    fun h e he => h e (List.mem_filter.mp he).1
  constructor
  · intro t ht
    have hsnapshot : (((numbered t.seq accepted).foldl Ring.push (.new capacity)).snapshot)
        = (numbered t.seq accepted).rtake count := by
      rw [Ring.snapshot_new, length_numbered]
    refine ⟨_, by rw [ring?, sinks_foldl_emit_ring ht]; rfl, hsnapshot, fun h => ?_⟩
    rw [hsnapshot, numbered_eq_self (haccepted h)]
  · intro format path out hlevel hseq
    refine ⟨_, new_both hlevel format path capacity out, ?_⟩
    intro f after
    have hsinks : after.sinks
        = [⟨level, .stream f ((accepted.map (Event.render f)).foldl Writer.write out)⟩,
          ⟨level, .ring (accepted.foldl Ring.push (.new capacity))⟩] := by
      have hfed := sinks_foldl_emit hseq
        { level, sinks := [⟨level, .stream f out⟩, ⟨level, .ring (.new capacity)⟩] }
      rwa [List.map_cons, List.map_cons, Sink.feed_stream, Sink.feed_ring] at hfed
    have hwriters : after.writers = [(accepted.map (Event.render f)).foldl Writer.write out] := by
      rw [writers, hsinks]
      rfl
    have hsnapshot := Ring.snapshot_new capacity accepted
    refine ⟨hwriters, fun hlimit => ?_, _, by rw [ring?, hsinks]; rfl, hsnapshot, ?_⟩
    · rw [output, hwriters, List.flatMap_singleton, Writer.written_foldl_write hlimit,
        List.flatMap_def]
    · rw [Ring.dump, hsnapshot]

/-- Four of five events are accepted, a heartbeat of a scope that the level does not keep among them.
A ring for two of them is used twice over: it holds the last two, and the stream has all four. -/
theorem ring_holds_tail_lapped :
    let begun : Event := { seq := 1, kind := .begin, scope := .run, name := "build" }
    let walked : Event := { seq := 2, kind := .point, scope := .seed, name := "walk" }
    let beat : Event := { seq := 3, kind := .heartbeat, scope := .seed, name := "heartbeat" }
    let staged : Event := { seq := 4, kind := .point, scope := .phase, name := "resolve" }
    let ended : Event := { seq := 5, kind := .finish, scope := .run, name := "build" }
    let events := [begun, walked, beat, staged, ended]
    let alone : Tracer := { level := .detail, sinks := [⟨.detail, .ring (.new 2)⟩] }
    Level.error.code < Level.detail.code ∧ (∀ e ∈ events, e.seq ≠ 0) ∧
      (∃ r, (events.foldl emit alone).ring? = some r ∧ r.snapshot = [staged, ended]) ∧
      ∃ t, new .detail .both .auto "trace.ndjson" 2 = .ok t ∧
        (events.foldl emit t).output
          = [begun, beat, staged, ended].flatMap (Event.render .objects) ∧
        ∃ r, (events.foldl emit t).ring? = some r ∧ r.snapshot = [staged, ended] ∧
          r.dump .objects = [staged, ended].flatMap (Event.render .objects) := by
  intro begun walked beat staged ended events alone
  have hlevel : Level.error.code < Level.detail.code := by decide
  have hseq : ∀ e ∈ events, e.seq ≠ 0 := by
    simp [events, begun, walked, beat, staged, ended]
  obtain ⟨hring, hboth⟩ := ring_holds_tail 2 .detail events
  obtain ⟨r, hr, -, hsnapshot⟩ := hring alone rfl
  obtain ⟨t, ht, -, houtput, r', hr', hsnapshot', hdump⟩ :=
    hboth .auto "trace.ndjson" {} hlevel hseq
  exact ⟨hlevel, hseq, ⟨r, hr, hsnapshot hseq⟩, t, ht, houtput rfl, r', hr', hsnapshot', hdump⟩

end Tracer

end Monomorph.Trace
