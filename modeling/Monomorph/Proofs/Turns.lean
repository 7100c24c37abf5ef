import Monomorph.Proofs.Triples
import Monomorph.Run.Crew

/-!
# What holds whatever turns are taken

What a worker's single act keeps, and a returned failure and a cancellation from outside keep as
well, holds when the workers of a stage are done, in whatever order they acted
(`Squad.Upholds.exec_finish`). Where an invariant is about the tasks and the monitor alone,
`Act.Does` says once what an act can do to the monitor, so that clients look at the acts they care
about and at nothing else (`Squad.exec_finish`).

Where no turns are given, the workers act one after another, and that is what the single crew does
(`Crew.taking_nil`).
-/

namespace Monomorph

/-- The tracer once a span has been left with its values. -/
def Trace.Tracer.left (t : Trace.Tracer) (span : Trace.Span) (c : Closing) : Trace.Tracer :=
  let r := c.values.foldl (fun (t, s) (k, v) => t.attach s k v) (t, span)
  r.1.finish r.2 c.detail

namespace Act

/-- What an act answers and does to the monitor. -/
def Does (announcing : Nat → Work DiskM StageError Unit) (w : Monitor) :
    (a : Act) → a.Answer → Monitor → Prop
  | .check, _, w' | .load _, _, w' | .fetch _, _, w' | .keep .., _, w' => w' = w
  | .tell p, _, w' =>
    w' = { w with events := w.events ++ [p], cancelled := w.cancelled || w.cancelsOn p }
  | .announce i, r, w' => ∃ d, (Work.exec (announcing i) w d).1 = (r, w')
  | .number scope name parent, span, w' =>
    ∃ now, ({ w.tracer with now } : Trace.Tracer).number scope name parent = (w'.tracer, span) ∧
      w' = { w with tracer := w'.tracer }
  | .enter span, _, w' => ∃ now, w' = { w with tracer := { w.tracer with now }.enter span }
  | .leave span c, _, w' => ∃ now, w' = { w with tracer := { w.tracer with now }.left span c }
  | .point scope name detail parent, _, w' =>
    ∃ now, w' = { w with tracer := { w.tracer with now }.point scope name detail parent }

theorem exec_perform (announcing : Nat → Work DiskM StageError Unit) (s : Shared) (a : Act)
    (w : Monitor) (d : Disk) :
    ∃ answer s' w' d', Work.exec (a.perform announcing s) w d = ((.ok (answer, s'), w'), d') ∧
      s'.failure = s.failure ∧ a.Does announcing w answer w' := by
  cases a with
  | check => exact ⟨_, _, _, _, rfl, rfl, rfl⟩
  | tell p => exact ⟨_, _, _, _, rfl, rfl, rfl⟩
  | announce i => exact ⟨_, _, _, _, rfl, rfl, d, rfl⟩
  | number scope name parent => exact ⟨_, _, _, _, rfl, rfl, d.clock, rfl, rfl⟩
  | enter span => exact ⟨_, _, _, _, rfl, rfl, d.clock, rfl⟩
  | leave span c => exact ⟨_, _, _, _, rfl, rfl, d.clock, rfl⟩
  | point scope name detail parent => exact ⟨_, _, _, _, rfl, rfl, d.clock, rfl⟩
  | load path => exact ⟨_, _, _, _, rfl, rfl, rfl⟩
  | fetch i =>
      rcases s with ⟨failure, _ | shelf⟩
      · exact ⟨_, _, _, _, rfl, rfl, rfl⟩
      · exact ⟨_, _, _, _, rfl, rfl, rfl⟩
  | keep i name pool =>
      rcases s with ⟨failure, _ | shelf⟩
      · exact ⟨_, _, _, _, rfl, rfl, rfl⟩
      · exact ⟨_, _, _, _, rfl, rfl, rfl⟩

theorem failure_of_exec_perform {announcing : Nat → Work DiskM StageError Unit} {a : Act}
    {answer : a.Answer} {s s' : Shared} {w w' : Monitor} {d d' : Disk}
    (h : Work.exec (a.perform announcing s) w d = ((.ok (answer, s'), w'), d')) :
    s'.failure = s.failure := by
  obtain ⟨_, _, _, _, hexec, hfailure, -⟩ := a.exec_perform announcing s w d
  cases hexec.symm.trans h
  exact hfailure

end Act

/-! ## The rule for squads -/

variable {α β : Type} {announcing : Nat → Work DiskM StageError Unit}

/-- Nothing is left of the task. -/
def Task.Ended (t : Task α) : Prop := (∃ a, t = .done a) ∨ ∃ e, t = .fail e

/-- Every act of a worker keeps the invariant, and so does a failure that a worker returns. If the
run is cancelled from outside, that keeps it too. -/
structure Squad.Upholds (announcing : Nat → Work DiskM StageError Unit) (turns : List Turn)
    (I : List (Task α) → Shared → Monitor → Disk → Prop) : Prop where
  act : ∀ {pre post : List (Task α)} {a : Act} {next : a.Answer → Task α} {s : Shared} {w : Monitor}
    {d : Disk}, I (pre ++ .step a next :: post) s w d →
      ∃ answer s' w' d', Work.exec (a.perform announcing s) w d = ((.ok (answer, s'), w'), d') ∧
        I (pre ++ next answer :: post) s' w' d'
  fail : ∀ {pre post : List (Task α)} {e : StageError} {s : Shared} {w : Monitor} {d : Disk},
    I (pre ++ .fail e :: post) s w d → I (pre ++ .fail e :: post) (s.failWith e) w d
  cancel : .cancel ∈ turns → ∀ {tasks : List (Task α)} {s : Shared} {w : Monitor} {d : Disk},
    I tasks s w d → I tasks s { w with cancelled := true } d

theorem Squad.exec_finish_of {turns : List Turn} {q q₁ : Squad α} {vs : List α} {s : Shared}
    {w w₁ w₂ : Monitor} {d d₁ d₂ : Disk}
    (hturns : Work.exec (takeTurns announcing turns q) w d = ((.ok q₁, w₁), d₁))
    (hrest : Work.exec (Task.finishEach announcing q₁.tasks q₁.shared) w₁ d₁
      = ((.ok (vs, s), w₂), d₂)) :
    Work.exec (q.finish announcing turns) w d
      = s.failure.elim ((.ok (vs, s.shelf), w₂), d₂) fun e => ((.error e, w₂), d₂) := by
  unfold finish
  rw [Work.exec_bind, hturns]
  dsimp only
  rw [Work.exec_bind, hrest]
  dsimp only
  cases s.failure <;> rfl

section Rule

variable {turns : List Turn} {I : List (Task α) → Shared → Monitor → Disk → Prop}
  (hI : Squad.Upholds announcing turns I)

include hI

theorem Task.exec_finish (t : Task α) : ∀ (pre post : List (Task α)) (s : Shared) (w : Monitor)
    (d : Disk), I (pre ++ t :: post) s w d →
      ∃ v s' w' d' last, Work.exec (t.finish announcing s) w d = ((.ok (v, s'), w'), d') ∧
        I (pre ++ last :: post) s' w' d' ∧ last.Ended ∧
        (s'.failure = none → s.failure = none ∧ ∃ a, v = some a ∧ last = .done a) := by
  induction t with
  | done a =>
      intro pre post s w d h
      exact ⟨_, _, _, _, _, rfl, h, Or.inl ⟨a, rfl⟩, fun hs => ⟨hs, a, rfl, rfl⟩⟩
  | fail e =>
      intro pre post s w d h
      refine ⟨_, _, _, _, _, rfl, hI.fail h, Or.inr ⟨e, rfl⟩, ?_⟩
      intro hs
      cases hf : s.failure <;> simp [Shared.failWith, hf] at hs
  | step a next ih =>
      intro pre post s w d h
      rcases hI.act h with ⟨answer, s₁, w₁, d₁, hexec, hone⟩
      rcases ih answer pre post s₁ w₁ d₁ hone with
        ⟨v, s', w', d', last, hrest, hlast, hended, hdone⟩
      refine ⟨v, s', w', d', last, ?_, hlast, hended, ?_⟩
      · rw [Task.finish, Work.exec_bind, hexec]
        exact hrest
      · intro hs
        rw [← Act.failure_of_exec_perform hexec]
        exact hdone hs

theorem Task.exec_finishEach (ts : List (Task α)) : ∀ (pre : List (Task α)) (s : Shared)
    (w : Monitor) (d : Disk), I (pre ++ ts) s w d →
      ∃ vs s' w' d' ends, Work.exec (Task.finishEach announcing ts s) w d
          = ((.ok (vs, s'), w'), d') ∧
        I (pre ++ ends) s' w' d' ∧ (∀ t ∈ ends, t.Ended) ∧
        (s'.failure = none → s.failure = none ∧ ends = vs.map .done) := by
  induction ts with
  | nil =>
      intro pre s w d h
      exact ⟨_, _, _, _, [], rfl, h, by simp, fun hs => ⟨hs, rfl⟩⟩
  | cons t ts ih =>
      intro pre s w d h
      -- The task that has ended joins those before it, and the rest goes on from there.
      rcases t.exec_finish hI pre ts s w d h with ⟨v, s₁, w₁, d₁, last, hexec, hlast, hended, hone⟩
      rw [List.append_cons] at hlast
      rcases ih (pre ++ [last]) s₁ w₁ d₁ hlast with
        ⟨vs, s', w', d', ends, hrest, hends, hall, hdone⟩
      refine ⟨v.toList ++ vs, s', w', d', last :: ends, ?_, ?_, ?_, ?_⟩
      · rw [Task.finishEach, Work.exec_bind, hexec]
        show Work.exec (_ >>= _) w₁ d₁ = _
        rw [Work.exec_bind, hrest]
        rfl
      · rw [List.append_cons]
        exact hends
      · exact List.forall_mem_cons.mpr ⟨hended, hall⟩
      · intro hs
        rcases hdone hs with ⟨hs₁, rfl⟩
        rcases hone hs₁ with ⟨hs₀, a, rfl, rfl⟩
        exact ⟨hs₀, rfl⟩

namespace Squad

theorem exec_act (q : Squad α) (i : Nat) (w : Monitor) (d : Disk) (h : I q.tasks q.shared w d) :
    ∃ q' w' d', Work.exec (q.act announcing i) w d = ((.ok q', w'), d') ∧
      I q'.tasks q'.shared w' d' := by
  unfold act
  cases ht : q.tasks[i]? with
  | none => exact ⟨q, w, d, rfl, h⟩
  | some t =>
      obtain ⟨hi, hget⟩ := List.getElem?_eq_some_iff.mp ht
      have hsplit : q.tasks = q.tasks.take i ++ t :: q.tasks.drop (i + 1) := by
        rw [← hget, List.getElem_cons_drop, List.take_append_drop]
      cases t with
      | done a => exact ⟨q, w, d, rfl, h⟩
      | fail e =>
          refine ⟨{ q with shared := q.shared.failWith e }, w, d, rfl, ?_⟩
          show I q.tasks _ w d
          rw [hsplit] at h ⊢
          exact hI.fail h
      | step a next =>
          rw [hsplit] at h
          rcases hI.act h with ⟨answer, s', w', d', hexec, hone⟩
          refine ⟨{ tasks := q.tasks.set i (next answer), shared := s' }, w', d', ?_, ?_⟩
          · dsimp only
            rw [Work.exec_bind, hexec]
            rfl
          · show I (q.tasks.set i (next answer)) s' w' d'
            rw [List.set_eq_take_append_cons_drop, if_pos hi]
            exact hone

theorem exec_takeTurns (ts : List Turn) : ∀ (q : Squad α) (w : Monitor) (d : Disk),
    (∀ turn ∈ ts, turn ∈ turns) → I q.tasks q.shared w d →
      ∃ q' w' d', Work.exec (takeTurns announcing ts q) w d = ((.ok q', w'), d') ∧
        I q'.tasks q'.shared w' d' := by
  induction ts with
  | nil => exact fun q w d _ h => ⟨q, w, d, rfl, h⟩
  | cons turn ts ih =>
      intro q w d hts h
      obtain ⟨hfirst, hts⟩ := List.forall_mem_cons.mp hts
      have hturn : ∃ q' w' d', Work.exec (q.takeTurn announcing turn) w d = ((.ok q', w'), d') ∧
          I q'.tasks q'.shared w' d' := by
        cases turn with
        | worker i => exact exec_act hI q i w d h
        | cancel => exact ⟨q, _, d, rfl, hI.cancel hfirst h⟩
      rcases hturn with ⟨q₁, w₁, d₁, hexec, h₁⟩
      rcases ih q₁ w₁ d₁ hts h₁ with ⟨q', w', d', hrest, h'⟩
      refine ⟨q', w', d', ?_, h'⟩
      rw [takeTurns, Work.exec_bind, hexec]
      exact hrest

/-- **Turns.** What is upheld holds of the ended tasks, whatever turns were taken; and if no failure
was returned, the results are those of the tasks. -/
theorem Upholds.exec_finish (q : Squad α) (w : Monitor) (d : Disk) (h : I q.tasks q.shared w d) :
    ∃ ends vs s' w' d', Work.exec (q.finish announcing turns) w d
        = s'.failure.elim ((.ok (vs, s'.shelf), w'), d') (fun e => ((.error e, w'), d')) ∧
      I ends s' w' d' ∧ (∀ t ∈ ends, t.Ended) ∧ (s'.failure = none → ends = vs.map .done) := by
  rcases exec_takeTurns hI turns q w d (fun _ => id) h with ⟨q₁, w₁, d₁, hexec, h₁⟩
  rcases Task.exec_finishEach hI q₁.tasks [] q₁.shared w₁ d₁ h₁ with
    ⟨vs, s', w', d', ends, hrest, hends, hall, hdone⟩
  exact ⟨ends, vs, s', w', d', exec_finish_of hexec hrest, hends, hall, fun hs => (hdone hs).2⟩

end Squad

end Rule

/-- Every act of a worker keeps the invariant, and so does a cancellation. -/
structure Squad.Keeps (announcing : Nat → Work DiskM StageError Unit)
    (I : List (Task α) → Monitor → Prop) : Prop where
  act : ∀ {pre post : List (Task α)} {a : Act} {next : a.Answer → Task α} {w w' : Monitor}
    {answer : a.Answer}, I (pre ++ .step a next :: post) w → a.Does announcing w answer w' →
      I (pre ++ next answer :: post) w'
  cancel : ∀ {tasks : List (Task α)} {w : Monitor}, I tasks w → I tasks { w with cancelled := true }

theorem Squad.Keeps.upholds {I : List (Task α) → Monitor → Prop} (hI : Keeps announcing I)
    (turns : List Turn) : Upholds announcing turns fun tasks _ w _ => I tasks w := by
  refine ⟨?_, id, fun _ => hI.cancel⟩
  intro pre post a next s w d h
  obtain ⟨answer, s', w', d', hexec, -, hdoes⟩ := a.exec_perform announcing s w d
  exact ⟨answer, s', w', d', hexec, hI.act h hdoes⟩

/-- What every act keeps, holds of the ended tasks, whatever turns were taken; and if the squad
succeeds, its results are those of the tasks. -/
theorem Squad.exec_finish {I : List (Task α) → Monitor → Prop} (hI : Keeps announcing I)
    (turns : List Turn) (q : Squad α) (w : Monitor) (d : Disk) (h : I q.tasks w) :
    ∃ ends, I ends (Work.exec (q.finish announcing turns) w d).1.2 ∧ (∀ t ∈ ends, t.Ended) ∧
      ∀ r, (Work.exec (q.finish announcing turns) w d).1.1 = .ok r → ends = r.1.map .done := by
  rcases (hI.upholds turns).exec_finish q w d h with ⟨ends, vs, s', w', d', hexec, hends, hall, hdone⟩
  rw [hexec]
  cases hs : s'.failure with
  | some e =>
      refine ⟨ends, hends, hall, ?_⟩
      intro r hr
      cases hr
  | none =>
      refine ⟨ends, hends, hall, ?_⟩
      intro r hr
      cases hr
      exact hdone hs

/-! ## One after another -/

theorem Stage.exec_proceed (w : Monitor) (d : Disk) :
    Work.exec (Stage.proceed : Work DiskM StageError Unit) w d
      = ((if w.cancelled then .error .cancelled else .ok (), w), d) := by
  rcases hw : w.cancelled with _ | _ <;> simp only [Stage.proceed, Work.exec_bind]
  · show Work.exec (if w.cancelled = true then _ else _) w d = _
    rw [hw]
    rfl
  · show Work.exec (if w.cancelled = true then _ else _) w d = _
    rw [hw]
    rfl

namespace Task

theorem exec_finish_guarded (t : Task α) {s : Shared} (hs : s.failure = none) (w : Monitor)
    (d : Disk) : Work.exec ((guarded t).finish announcing s) w d
      = if w.cancelled then ((.ok (none, s.failWith .cancelled), w), d)
        else Work.exec (t.finish announcing s) w d := by
  have hexec : Work.exec ((guarded t).finish announcing s) w d
      = Work.exec ((if s.failure.isSome || w.cancelled then .fail .cancelled else t : Task α).finish
          announcing s) w d := rfl
  rw [hexec, hs]
  cases w.cancelled <;> rfl

/-- Work that has been called off is not started. -/
theorem exec_finishEach_off {s : Shared} {e : StageError} (hs : s.failure = some e) (w : Monitor)
    (d : Disk) : ∀ {ts : List (Task α)}, (∀ t ∈ ts, ∃ u : Task α, t = guarded u) →
      Work.exec (finishEach announcing ts s) w d = ((.ok ([], s), w), d)
  | [], _ => rfl
  | t :: ts, h => by
      obtain ⟨u, rfl⟩ := h t List.mem_cons_self
      have hone : Work.exec ((guarded u).finish announcing s) w d = ((.ok (none, s), w), d) := by
        show Work.exec ((if s.failure.isSome || w.cancelled then .fail .cancelled else u :
          Task α).finish announcing s) w d = _
        rcases s with ⟨failure, shelf⟩
        cases hs
        rfl
      rw [finishEach, Work.exec_bind, hone]
      show Work.exec (_ >>= _) w d = _
      rw [Work.exec_bind, exec_finishEach_off hs w d fun t ht => h t (List.mem_cons_of_mem _ ht)]
      rfl

/-- A task that is done alone either gives its result or fails with its failure. -/
theorem exec_finish_alone (t : Task α) : ∀ (shelf : Option PoolShelf) (w : Monitor) (d : Disk),
    ∃ shelf' w' d',
      (∃ a, Work.exec (t.finish announcing { shelf }) w d
        = ((.ok (some a, { shelf := shelf' }), w'), d')) ∨
      ∃ e, Work.exec (t.finish announcing { shelf }) w d
        = ((.ok (none, { failure := some e, shelf := shelf' }), w'), d') := by
  induction t with
  | done a => exact fun shelf w d => ⟨shelf, w, d, Or.inl ⟨a, rfl⟩⟩
  | fail e => exact fun shelf w d => ⟨shelf, w, d, Or.inr ⟨e, rfl⟩⟩
  | step a next ih =>
      intro shelf w d
      rcases a.exec_perform announcing { shelf } w d with
        ⟨answer, ⟨failure, shelf₁⟩, w₁, d₁, hexec, rfl, -⟩
      rcases ih answer shelf₁ w₁ d₁ with ⟨shelf', w', d', hrest⟩
      refine ⟨shelf', w', d', ?_⟩
      rw [Task.finish, Work.exec_bind, hexec]
      exact hrest

/-- The task as a piece of work of its own. -/
def alone (announcing : Nat → Work DiskM StageError Unit) (t : Task α)
    (shelf : Option PoolShelf) : Work DiskM StageError (α × Option PoolShelf) := do
  match ← t.finish announcing { shelf } with
  | (some a, s) => return (a, s.shelf)
  | (none, s) => throw (s.failure.getD .cancelled)

/-- Finishing the tasks in order comes to the same as the work, which gives the results as `f` says. -/
def InOrder (announcing : Nat → Work DiskM StageError Unit) (f : List α → List β)
    (ts : List (Task α))
    (each : Option PoolShelf → Work DiskM StageError (List β × Option PoolShelf)) : Prop :=
  ∀ shelf w d, ∃ as, match Work.exec (each shelf) w d with
    | ((.ok (bs, shelf'), w'), d') =>
        Work.exec (finishEach announcing ts { shelf }) w d
          = ((.ok (as, { shelf := shelf' }), w'), d') ∧ bs = f as
    | ((.error e, w'), d') => ∃ shelf', Work.exec (finishEach announcing ts { shelf }) w d
          = ((.ok (as, { failure := some e, shelf := shelf' }), w'), d')

theorem InOrder.nil {f : List α → List β} (hf : f [] = []) :
    InOrder announcing f [] fun shelf => pure ([], shelf) :=
  fun _ _ _ => ⟨[], rfl, hf.symm⟩

theorem InOrder.cons {f : List α → List β} {add : α → List β → List β} {t : Task α}
    {ts : List (Task α)}
    {each each' : Option PoolShelf → Work DiskM StageError (List β × Option PoolShelf)}
    (hf : ∀ a as, f (a :: as) = add a (f as))
    (hguarded : ∀ t ∈ ts, ∃ u : Task α, t = guarded u) (hts : InOrder announcing f ts each)
    (h : ∀ shelf, each' shelf = do
      Stage.proceed
      let (a, shelf) ← t.alone announcing shelf
      let (bs, shelf) ← each shelf
      return (add a bs, shelf)) :
    InOrder announcing f (guarded t :: ts) each' := by
  intro shelf w d
  have hfirst : Work.exec ((guarded t).finish announcing { shelf }) w d
      = if w.cancelled then ((.ok (none, Shared.failWith { shelf } .cancelled), w), d)
        else Work.exec (t.finish announcing { shelf }) w d :=
    exec_finish_guarded t rfl w d
  -- A task that does not start, or fails, leaves a failure behind, and then none of the others
  -- starts; the plain work throws at the same place.
  rw [h, Work.exec_bind, Stage.exec_proceed, finishEach, Work.exec_bind, hfirst]
  cases w.cancelled with
  | true =>
      refine ⟨[], shelf, ?_⟩
      show Work.exec (_ >>= _) w d = _
      rw [Work.exec_bind, exec_finishEach_off rfl w d hguarded]
      rfl
  | false =>
      simp only [Bool.false_eq_true, if_false]
      rw [Work.exec_bind]
      rcases t.exec_finish_alone shelf w d with ⟨shelf₁, w₁, d₁, ⟨a, hone⟩ | ⟨e, hone⟩⟩
      · have halone : Work.exec (t.alone announcing shelf) w d = ((.ok (a, shelf₁), w₁), d₁) := by
          rw [alone, Work.exec_bind, hone]
          rfl
        rcases hts shelf₁ w₁ d₁ with ⟨as, hrest⟩
        refine ⟨a :: as, ?_⟩
        rw [halone, hone]
        dsimp only
        rw [Work.exec_bind]
        rcases hx : Work.exec (each shelf₁) w₁ d₁ with ⟨⟨_ | ⟨bs, shelf₂⟩, w₂⟩, d₂⟩
        · rw [hx] at hrest
          rcases hrest with ⟨shelf', hrest⟩
          refine ⟨shelf', ?_⟩
          rw [Work.exec_bind, hrest]
          rfl
        · rw [hx] at hrest
          rcases hrest with ⟨hrest, rfl⟩
          refine ⟨?_, (hf a as).symm⟩
          rw [Work.exec_bind, hrest]
          rfl
      · have halone : Work.exec (t.alone announcing shelf) w d = ((.error e, w₁), d₁) := by
          rw [alone, Work.exec_bind, hone]
          rfl
        rw [halone, hone]
        refine ⟨[], shelf₁, ?_⟩
        show Work.exec (_ >>= _) w₁ d₁ = _
        rw [Work.exec_bind, exec_finishEach_off rfl w₁ d₁ hguarded]
        rfl

end Task

theorem Work.ext {ε : Type} {x y : Work DiskM ε α} (h : ∀ w d, exec x w d = exec y w d) : x = y :=
  funext fun w => funext fun d => h w d

theorem Squad.finish_nil {f : List α → List β} {ts : List (Task α)}
    {each : Option PoolShelf → Work DiskM StageError (List β × Option PoolShelf)}
    (h : Task.InOrder announcing f ts each) (shelf : Option PoolShelf) :
    (do
      let r ← ({ tasks := ts, shared := { shelf } } : Squad α).finish announcing []
      return (f r.1, r.2)) = each shelf := by
  refine Work.ext fun w d => ?_
  have hturns : Work.exec (takeTurns announcing [] { tasks := ts, shared := { shelf } }) w d
      = ((.ok { tasks := ts, shared := { shelf } }, w), d) := rfl
  rcases h shelf w d with ⟨as, hts⟩
  rw [Work.exec_bind]
  rcases hx : Work.exec (each shelf) w d with ⟨⟨_ | ⟨bs, shelf'⟩, w'⟩, d'⟩
  · rw [hx] at hts
    rcases hts with ⟨shelf', hts⟩
    rw [exec_finish_of hturns hts]
    rfl
  · rw [hx] at hts
    rcases hts with ⟨hts, rfl⟩
    rw [exec_finish_of hturns hts]
    rfl

/-- A span is numbered and entered at once. -/
theorem Work.trace_begin {ε : Type} (scope : Trace.Scope) (name : Text) (parent : Nat) :
    (Work.trace fun t => t.begin scope name parent : Work DiskM ε Trace.Span) = (do
      let span ← Work.trace fun t => t.number scope name parent
      Work.trace fun t => (t.enter span, ())
      return span) := by
  refine Work.ext fun w d => ?_
  simp only [Work.exec_bind, Work.exec_trace, Work.exec_pure, Trace.Tracer.begin]
  unfold Trace.Tracer.number
  split <;> rfl

namespace Task

theorem alone_done (a : α) (shelf : Option PoolShelf) :
    (Task.done a).alone announcing shelf = pure (a, shelf) := rfl

theorem alone_fail (e : StageError) (shelf : Option PoolShelf) :
    (Task.fail e : Task α).alone announcing shelf = throw e := rfl

theorem alone_step (a : Act) (next : a.Answer → Task α) (shelf : Option PoolShelf) :
    (Task.step a next).alone announcing shelf = (do
      let (answer, s) ← a.perform announcing { shelf }
      (next answer).alone announcing s.shelf) := by
  refine Work.ext fun w d => ?_
  rcases a.exec_perform announcing { shelf } w d with
    ⟨answer, ⟨failure, shelf₁⟩, w₁, d₁, hexec, rfl, -⟩
  rw [alone, Task.finish, Work.exec_bind, Work.exec_bind, Work.exec_bind, hexec]
  dsimp only
  rw [alone, Work.exec_bind]

theorem alone_within (scope : Trace.Scope) (name : Text) (parent : Nat) (t : Trace.Span → Task α)
    (shelf : Option PoolShelf) : (within scope name parent t).alone announcing shelf = (do
      let span ← Work.trace fun tracer => tracer.begin scope name parent
      (t span).alone announcing shelf) := by
  simp only [Work.trace_begin, within, alone_step, Act.perform, bind_assoc, pure_bind]

theorem alone_leave (span : Trace.Span) (c : Closing) (t : Task α) (shelf : Option PoolShelf) :
    (Task.step (.leave span c) fun _ => t).alone announcing shelf = (do
      Work.finish span c
      t.alone announcing shelf) := rfl

theorem alone_announced (number : Nat) (a : α) (shelf : Option PoolShelf) :
    (announced number a).alone announcing shelf = (do
      announcing number
      return (a, shelf)) := by
  refine Work.ext fun w d => ?_
  rw [announced, alone_step, Work.exec_bind, Work.exec_bind, Act.perform, Work.exec_bind,
    Work.exec_outcome]
  rcases Work.exec (announcing number) w d with ⟨⟨_ | _, w'⟩, d'⟩ <;> rfl

end Task

theorem Work.spanned_pure {ε : Type} (scope : Trace.Scope) (name : Text) (parent : Nat)
    (message : ε → Text) (closing : α → Closing) (a : α) :
    (Work.spanned scope name parent message closing fun _ => pure a : Work DiskM ε α) = (do
      let span ← Work.trace fun tracer => tracer.begin scope name parent
      Work.finish span (closing a)
      return a) := rfl

theorem Work.spanned_throw {ε : Type} (scope : Trace.Scope) (name : Text) (parent : Nat)
    (message : ε → Text) (closing : α → Closing) (e : ε) :
    (Work.spanned scope name parent message closing fun _ => throw e : Work DiskM ε α) = (do
      let span ← Work.trace fun tracer => tracer.begin scope name parent
      Work.finish span { detail := message e }
      throw e) := rfl

namespace Stage

theorem inOrder_load (parent : Nat) : ∀ paths : List Text,
    Task.InOrder announcing id (paths.map (loadTask parent)) fun shelf => do
      let loaded ← loadEach parent paths
      return (loaded, shelf)
  | [] => .nil rfl
  | path :: rest => by
      refine .cons (fun _ _ => rfl) ?_ (inOrder_load parent rest) ?_
      · intro t ht
        rcases List.mem_map.mp ht with ⟨path, -, rfl⟩
        exact ⟨_, rfl⟩
      · intro shelf
        simp only [loadEach, Task.alone_step, Act.perform, bind_assoc, pure_bind]
        refine bind_congr fun _ => bind_congr fun _ => bind_congr fun r => ?_
        rcases r with e | ⟨module, bytes⟩
        · rfl
        · simp only [Task.alone_step, Task.alone_done, Act.perform, bind_assoc, pure_bind]

theorem guarded_of_mem_indexTasks {r : Registry} {e : Extractor} {parent : Nat}
    {t : Task CallIndex} : ∀ {modules : List Module} {number first : Nat},
      t ∈ indexTasks r e parent number first modules → ∃ u : Task CallIndex, t = .guarded u
  | _ :: _, _, _, h => by
      rcases List.mem_cons.mp h with rfl | h
      · exact ⟨_, rfl⟩
      · exact guarded_of_mem_indexTasks h

theorem inOrder_index (r : Registry) (e : Extractor) (parent : Nat) :
    ∀ (modules : List Module) (number first : Nat),
    Task.InOrder announcing id (indexTasks r e parent number first modules) fun shelf => do
      let parts ← indexEach announcing r e parent number first modules
      return (parts, shelf)
  | [], _, _ => .nil rfl
  | module :: rest, number, first => by
      refine .cons (fun _ _ => rfl) (fun t => guarded_of_mem_indexTasks)
        (inOrder_index r e parent rest (number + 1) (first + module.definitions.length)) ?_
      intro shelf
      simp only [indexEach, Work.spanned_pure, Task.alone_within, Task.alone_leave,
        Task.alone_announced, bind_assoc, pure_bind]

theorem guarded_of_mem_harvestTasks {parent : Nat} {t : Task (Option Harvest)} :
    ∀ {modules : List (Option Module)} {number : Nat},
      t ∈ harvestTasks parent number modules → ∃ u : Task (Option Harvest), t = .guarded u
  | module :: _, _, h => by
      rcases List.mem_cons.mp h with rfl | h
      · cases module <;> exact ⟨_, rfl⟩
      · exact guarded_of_mem_harvestTasks h

/-- A harvest does not fail. -/
theorem outcome_harvestOne {ε : Type} (number : Nat) (module : Module) (shelf : Option PoolShelf) :
    (Work.outcome (harvestOne number module shelf) : Work DiskM ε (Except StageError _)) = (do
      match shelf with
      | none => return .ok ({ pool := Pool.ofModule module, cached := false }, none)
      | some shelf => do
        match ← Work.sure (shelf.load number) with
        | (some pool, shelf) => return .ok ({ pool, cached := true }, some shelf)
        | (none, shelf) => do
          let shelf ← Work.sure (shelf.store number module.name (Pool.ofModule module))
          return .ok ({ pool := Pool.ofModule module, cached := false }, some shelf)) := by
  refine Work.ext fun w d => ?_
  cases shelf with
  | none => rfl
  | some shelf =>
      rw [Work.exec_outcome, harvestOne, Work.exec_bind, Work.exec_bind, Work.exec_sure,
        Work.exec_sure]
      rcases (shelf.load number : DiskM _).run d with ⟨⟨_ | pool, shelf₁⟩, d₁⟩ <;> rfl

theorem inOrder_harvest (parent : Nat) : ∀ (modules : List (Option Module)) (number : Nat),
    Task.InOrder announcing (List.filterMap id) (harvestTasks parent number modules) fun shelf =>
      harvestEach announcing parent number modules shelf
  | [], _ => .nil rfl
  | module :: rest, number => by
      have hadd : ∀ (h : Option Harvest) (hs : List (Option Harvest)),
          (h :: hs).filterMap id = h.toList ++ hs.filterMap id := by
        rintro (_ | h) hs <;> rfl
      cases module with
      | none =>
          refine .cons hadd (fun t => guarded_of_mem_harvestTasks)
            (inOrder_harvest parent rest (number + 1)) ?_
          intro shelf
          simp only [harvestEach, Task.alone_done, pure_bind, Option.toList_none, List.nil_append]
          exact bind_congr fun _ => (bind_pure _).symm
      | some module =>
          refine .cons hadd (fun t => guarded_of_mem_harvestTasks)
            (inOrder_harvest parent rest (number + 1)) ?_
          intro shelf
          simp only [harvestEach, Work.spanned, Task.alone_within, outcome_harvestOne, bind_assoc]
          refine bind_congr fun _ => bind_congr fun span => ?_
          cases shelf with
          | none =>
              simp only [harvestWithin, Task.alone_step, Task.alone_announced, Act.perform,
                bind_assoc, pure_bind, Option.toList_some, List.singleton_append]
          | some shelf =>
              simp only [harvestWithin, Task.alone_step, Act.perform, bind_assoc, pure_bind]
              refine bind_congr fun r => ?_
              rcases r with ⟨_ | pool, shelf₁⟩
              · simp only [Task.alone_step, Task.alone_announced, Act.perform, bind_assoc,
                  pure_bind, Option.toList_some, List.singleton_append]
              · simp only [Task.alone_step, Task.alone_announced, Act.perform, bind_assoc,
                  pure_bind, Option.toList_some, List.singleton_append]

theorem guarded_of_mem_resolveTasks {e : Engine} {parent : Nat} {t : Task (List TypeRef × Stats)} :
    ∀ {calls : List CallRef} {number : Nat}, t ∈ resolveTasks e parent number calls →
      ∃ u : Task (List TypeRef × Stats), t = .guarded u
  | _ :: _, _, h => by
      rcases List.mem_cons.mp h with rfl | h
      · exact ⟨_, rfl⟩
      · exact guarded_of_mem_resolveTasks h

theorem inOrder_resolve (e : Engine) (parent : Nat) : ∀ (calls : List CallRef) (number : Nat),
    Task.InOrder announcing id (resolveTasks e parent number calls) fun shelf => do
      let outs ← resolveEach e parent number calls
      return (outs, shelf)
  | [], _ => .nil rfl
  | call :: rest, number => by
      refine .cons (fun _ _ => rfl) (fun t => guarded_of_mem_resolveTasks)
        (inOrder_resolve e parent rest (number + 1)) ?_
      intro shelf
      simp only [resolveEach, bind_assoc, pure_bind]
      refine bind_congr fun _ => ?_
      cases Engine.pair? call with
      | none => rfl
      | some pair =>
          simp only [Task.alone_within]
          cases e.resolveSeed pair with
          | ok out =>
              simp only [Work.spanned_pure, Task.alone_leave, Task.alone_done, bind_assoc,
                pure_bind]
          | error cause =>
              simp only [Work.spanned_throw, Task.alone_leave, Task.alone_fail, bind_assoc]
              rfl

end Stage

namespace Crew

/-- The results of a squad without turns, where there is no shelf. -/
theorem results_nil {ts : List (Task α)} {each : Work DiskM StageError (List α)}
    (h : Task.InOrder announcing id ts fun shelf => do
      let as ← each
      return (as, shelf)) :
    (do
      let r ← ({ tasks := ts } : Squad α).finish announcing []
      return r.1) = each := by
  have hsame := congrArg (fun x => x >>= fun r => (pure r.1 : Work DiskM StageError (List α)))
    (Squad.finish_nil h none)
  simpa only [bind_assoc, pure_bind, bind_pure, id_eq] using hsame

/-- **The single crew takes turns too.** Without turns the workers finish in order, and that is what
the single crew does. -/
theorem taking_nil : (taking fun _ => [] : Crew DiskM) = single := by
  unfold taking single
  congr
  · funext parent paths
    exact results_nil (Stage.inOrder_load parent paths)
  · funext announcing r e parent modules
    exact results_nil (Stage.inOrder_index r e parent modules 0 0)
  · funext announcing parent modules shelf
    exact Squad.finish_nil (Stage.inOrder_harvest parent modules 0) shelf
  · funext e parent calls
    exact results_nil (Stage.inOrder_resolve e parent calls 0)

end Crew

/-- The first worker has begun when the second one overtakes it. -/
def Sample.overtaking (_ : Stage) : List Turn :=
  List.replicate 3 (.worker 0) ++ List.replicate 8 (.worker 1)

end Monomorph
