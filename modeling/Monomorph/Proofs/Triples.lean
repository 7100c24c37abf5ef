import Monomorph.Proofs.Lockstep

/-!
# Triples for the work of a run

`Work.Ensures P x Q E` says that work, from a monitor and a disk that satisfy `P`, succeeds with `Q`
or fails with `E`. There is a rule for each way in which work is put together, so what a stage
ensures is read off its text.

Events, timings and the trace go on all the while. The rules for spans and stages are for predicates
that do not look at them, which are `Indifferent`.
-/

namespace Monomorph

variable {ε δ α β : Type}

namespace Work

/-! ## Single steps -/

section Steps

variable (w : Monitor) (d : Disk)

theorem exec_pure (a : α) : exec (pure a : Work DiskM ε α) w d = ((.ok a, w), d) := rfl

theorem exec_notify (p : Progress) : exec (notify p : Work DiskM ε Unit) w d
    = ((.ok (),
        { w with events := w.events ++ [p], cancelled := w.cancelled || w.cancelsOn p }), d) := rfl

theorem exec_trace (f : Trace.Tracer → Trace.Tracer × α) : exec (trace f : Work DiskM ε α) w d
    = ((.ok (f { w.tracer with now := d.clock }).2,
        { w with tracer := (f { w.tracer with now := d.clock }).1 }), d) := rfl

theorem exec_sure (x : DiskM α) :
    exec (sure x : Work DiskM ε α) w d = ((.ok (x.run d).1, w), (x.run d).2) := rfl

end Steps

/-- A span is seen in the trace only. -/
theorem exec_spanned (scope : Trace.Scope) (name : Text) (parent : Nat) (message : ε → Text)
    (closing : α → Closing) (work : Nat → Work DiskM ε α) (w : Monitor) (d : Disk) :
    ∃ n tracer tracer', exec (spanned scope name parent message closing work) w d
      = (((exec (work n) { w with tracer } d).1.1,
          { (exec (work n) { w with tracer } d).1.2 with tracer := tracer' }),
        (exec (work n) { w with tracer } d).2) := by
  unfold spanned
  rw [exec_bind, exec_trace]
  generalize Trace.Tracer.begin _ scope name parent = begun
  dsimp only
  rw [exec_bind, exec_outcome]
  refine ⟨begun.2.id, begun.1, ?_⟩
  rcases exec (work begun.2.id) { w with tracer := begun.1 } d with ⟨⟨r, w'⟩, d'⟩
  cases r with
  | ok a => exact ⟨_, rfl⟩
  | error e => exact ⟨_, rfl⟩

/-! ## Rules -/

/-- Work that from a state with `P` comes to `Q` when it succeeds and to `E` when it fails. -/
def Ensures (P : Monitor → Disk → Prop) (x : Work DiskM ε α) (Q : α → Monitor → Disk → Prop)
    (E : ε → Monitor → Disk → Prop) : Prop :=
  ∀ w d, P w d → match (exec x w d).1.1 with
    | .ok a => Q a (exec x w d).1.2 (exec x w d).2
    | .error e => E e (exec x w d).1.2 (exec x w d).2

/-- What is only watched does not matter to the predicate: events, timings and the trace. -/
structure Indifferent (P : Monitor → Disk → Prop) : Prop where
  told : ∀ {w d} (p : Progress), P w d →
    P { w with events := w.events ++ [p], cancelled := w.cancelled || w.cancelsOn p } d
  timed : ∀ {w d} (timer : Timer) (timings : Timings), P w d → P { w with timer, timings } d
  traced : ∀ {w d} (tracer : Trace.Tracer), P w d → P { w with tracer } d

theorem Indifferent.of_products (P : Products → Disk → Prop) :
    Indifferent fun w d => P w.products d :=
  ⟨fun _ => id, fun _ _ => id, fun _ => id⟩

theorem Indifferent.assuming {φ : Prop} {P : Monitor → Disk → Prop} (h : Indifferent P) :
    Indifferent fun w d => φ ∧ P w d :=
  ⟨fun p => .imp id (h.told p), fun t s => .imp id (h.timed t s), fun t => .imp id (h.traced t)⟩

theorem Indifferent.exists {ι : Sort*} {P : ι → Monitor → Disk → Prop} (h : ∀ i, Indifferent (P i)) :
    Indifferent fun w d => ∃ i, P i w d :=
  ⟨fun p => .imp fun i => (h i).told p, fun t s => .imp fun i => (h i).timed t s,
    fun t => .imp fun i => (h i).traced t⟩

namespace Ensures

variable {P P' : Monitor → Disk → Prop} {Q Q' : α → Monitor → Disk → Prop}
  {R : β → Monitor → Disk → Prop} {E E' : ε → Monitor → Disk → Prop}
  {F : δ → Monitor → Disk → Prop} {x : Work DiskM ε α}

theorem imp (h : Ensures P x Q E) (hP : ∀ w d, P' w d → P w d)
    (hQ : ∀ a w d, Q a w d → Q' a w d) (hE : ∀ e w d, E e w d → E' e w d) :
    Ensures P' x Q' E' := by
  intro w d hstart
  have hend := h w d (hP w d hstart)
  revert hend
  cases (exec x w d).1.1 with
  | ok a => exact hQ a _ _
  | error e => exact hE e _ _

theorem pure {a : α} (h : ∀ w d, P w d → Q a w d) : Ensures P (pure a : Work DiskM ε α) Q E := h

theorem throw {e : ε} (h : ∀ w d, P w d → E e w d) : Ensures P (throw e : Work DiskM ε α) Q E := h

theorem assuming {φ : Prop} (h : φ → Ensures P x Q E) : Ensures (fun w d => φ ∧ P w d) x Q E :=
  fun w d hP => h hP.1 w d hP.2

theorem any {ι : Sort*} {P : ι → Monitor → Disk → Prop} (h : ∀ i, Ensures (P i) x Q E) :
    Ensures (fun w d => ∃ i, P i w d) x Q E :=
  fun w d ⟨i, hP⟩ => h i w d hP

theorem bind {f : α → Work DiskM ε β} (h : Ensures P x Q E) (hf : ∀ a, Ensures (Q a) (f a) R E) :
    Ensures P (x >>= f) R E := by
  intro w d hP
  have hend := h w d hP
  rw [exec_bind]
  rcases hx : exec x w d with ⟨⟨r, w'⟩, d'⟩
  rw [hx] at hend
  cases r with
  | ok a => exact hf a w' d' hend
  | error e => exact hend

theorem outcome (h : Ensures P x Q E) :
    Ensures P (Work.outcome x : Work DiskM δ (Except ε α))
      (fun r w d => (∀ a, r = .ok a → Q a w d) ∧ ∀ e, r = .error e → E e w d) F := by
  intro w d hP
  have hend := h w d hP
  rw [exec_outcome]
  refine ⟨?_, ?_⟩
  · intro a ha
    rw [ha] at hend
    exact hend
  · intro e he
    rw [he] at hend
    exact hend

theorem record {f : Products → Products} {Q : Monitor → Disk → Prop}
    (h : ∀ w d, P w d → Q { w with products := f w.products } d) :
    Ensures P (Work.record f : Work DiskM ε Unit) (fun _ => Q) E := h

theorem notify (hP : Indifferent P) (p : Progress) :
    Ensures P (Work.notify p : Work DiskM ε Unit) (fun _ => P) E :=
  fun _ _ => hP.told p

theorem announceAll (hP : Indifferent P) (s : Stage) (status : Status) : ∀ files : List Text,
    Ensures P (Run.announceAll s status files : Work DiskM ε Unit) (fun _ => P) E
  | [] => pure fun _ _ => id
  | _ :: files => (notify hP _).bind fun _ => announceAll hP s status files

/-- A span does what its work does, for all that does not look at the trace. -/
theorem spanned (hP : ∀ {w d} (tracer : Trace.Tracer), P w d → P { w with tracer } d)
    (hQ : ∀ {a w d} (tracer : Trace.Tracer), Q a w d → Q a { w with tracer } d)
    (hE : ∀ {e w d} (tracer : Trace.Tracer), E e w d → E e { w with tracer } d)
    {scope : Trace.Scope} {name : Text} {parent : Nat} {message : ε → Text} {closing : α → Closing}
    {work : Nat → Work DiskM ε α} (h : ∀ n, Ensures P (work n) Q E) :
    Ensures P (Work.spanned scope name parent message closing work) Q E := by
  intro w d hstart
  obtain ⟨n, tracer, tracer', hexec⟩ := exec_spanned scope name parent message closing work w d
  have hend := h n { w with tracer } d (hP tracer hstart)
  rw [hexec]
  revert hend
  dsimp only
  cases (exec (work n) { w with tracer } d).1.1 with
  | ok a => exact hQ tracer'
  | error e => exact hE tracer'

/-- A stage does its work, and its failure says which stage it was. -/
theorem stage (s : Stage) {work : Work DiskM StageError Text} {Q : Monitor → Disk → Prop}
    {E : StageError → Monitor → Disk → Prop} (hP : Indifferent P) (hQ : Indifferent Q)
    (hE : ∀ e, Indifferent (E e)) (h : Ensures P work (fun _ => Q) E) :
    Ensures P (Run.stage s work) (fun _ => Q)
      (fun e w d => ∃ cause, e = .stage s cause ∧ E cause w d) := by
  have hget : ∀ {P : Monitor → Disk → Prop} {E : RunError → Monitor → Disk → Prop},
      Ensures P (get : Work DiskM RunError Monitor) (fun _ => P) E := fun _ _ hstart => hstart
  have hnow : ∀ {P : Monitor → Disk → Prop} {E : RunError → Monitor → Disk → Prop},
      Ensures P (Work.now : Work DiskM RunError Instant) (fun _ => P) E := fun _ _ hstart => hstart
  have hclose : ∀ {P : Monitor → Disk → Prop} {E : RunError → Monitor → Disk → Prop}, Indifferent P →
      ∀ number nanos note, Ensures P (Run.closeStage s number nanos note) (fun _ => P) E :=
    fun hP _ _ _ _ _ => hP.timed _ _
  have hbegin : Ensures P
      (modify fun w => { w with timer := w.timer.begin s.name } : Work DiskM RunError Unit)
      (fun _ => P) (fun e w d => ∃ cause, e = .stage s cause ∧ E cause w d) :=
    fun w _ => hP.timed _ w.timings
  refine hnow.bind fun start => hget.bind fun w => ?_
  refine hbegin.bind fun _ => (notify hP _).bind fun _ => ?_
  refine h.outcome.bind fun r => hnow.bind fun stop => ?_
  cases r with
  | ok note =>
      refine .imp (P := Q) ?_ (fun w d hr => hr.1 note rfl) (fun _ _ _ => id) fun _ _ _ => id
      exact (hclose hQ _ _ _).bind fun _ => notify hQ _
  | error cause =>
      refine .imp (P := E cause) ?_ (fun w d hr => hr.2 cause rfl) (fun _ _ _ => id)
        fun _ _ _ => id
      refine (hclose (hE cause) _ _ _).bind fun _ => (notify (hE cause) _).bind fun _ => ?_
      exact .throw fun w d he => ⟨cause, rfl, he⟩

end Ensures

end Work

end Monomorph
