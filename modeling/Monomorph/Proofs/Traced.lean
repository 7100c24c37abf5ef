import Monomorph.Proofs.Spans
import Monomorph.Proofs.Transparency

/-!
# The trace of a run is a forest

A run leaves a trail whatever turns its workers take. A worker holds at most one span and leaves it
before it ends (`Task.Nests`), so a stage holds its own span and what each of its workers holds
(`Squad.nests_keeps`). Work that gives back what it holds is put together from its parts
(`Work.Nested`), up to a whole run, which starts and ends with nothing held.
-/

namespace Monomorph

open Trace

/-! ## Workers hold one span at most -/

/-- The act leaves the trace alone. -/
def Act.Silent : Act → Prop
  | .number .. | .enter _ | .leave .. | .point .. => False
  | .check | .tell _ | .announce _ | .load _ | .fetch _ | .keep .. => True

/-- The task, which holds `hs`, leaves every span that it enters, and traces nothing but such spans
and points, under one parent and in one scope. -/
inductive Task.Nests {α : Type} (level : Level) (parent : Nat) (scope : Scope) :
    List Held → Task α → Prop
  | done (a : α) : Nests level parent scope [] (.done a)
  | fail (e : StageError) : Nests level parent scope [] (.fail e)
  | number {name : Text} {next : Span → Task α}
      (h : ∀ s : Span, s.Fits level parent scope → Nests level parent scope s.waits (next s)) :
      Nests level parent scope [] (.step (.number scope name parent) next)
  | enter {s : Span} {next : Unit → Task α} (hs : s.Fits level parent scope)
      (h : Nests level parent scope s.opens (next ())) :
      Nests level parent scope s.waits (.step (.enter s) next)
  | leave {s : Span} {c : Closing} {next : Unit → Task α} (hs : s.Fits level parent scope)
      (h : Nests level parent scope [] (next ())) :
      Nests level parent scope s.opens (.step (.leave s c) next)
  | point {hs : List Held} {name detail : Text} {next : Unit → Task α}
      (h : Nests level parent scope hs (next ())) :
      Nests level parent scope hs (.step (.point scope name detail parent) next)
  | silent {hs : List Held} {a : Act} {next : a.Answer → Task α} (ha : a.Silent)
      (h : ∀ answer, Nests level parent scope hs (next answer)) :
      Nests level parent scope hs (.step a next)

section Squads

variable {α : Type} {announcing : Nat → Work DiskM StageError Unit} {level : Level}
  {old : List Event} {base : List Held} {parent : Nat} {scope : Scope}

theorem Act.Silent.tracer {a : Act} (ha : a.Silent)
    (hannounce : ∀ i w d, (Work.exec (announcing i) w d).1.2.tracer = w.tracer) {w w' : Monitor}
    {answer : a.Answer} (h : a.Does announcing w answer w') : w'.tracer = w.tracer := by
  cases a with
  | number scope name parent => cases ha
  | enter s => cases ha
  | leave s c => cases ha
  | point scope name detail parent => cases ha
  | announce i =>
      rcases h with ⟨d, hexec⟩
      rw [← hannounce i w d, hexec]
  | check => rw [show w' = w from h]
  | tell p => rw [show w' = _ from h]
  | load path => rw [show w' = w from h]
  | fetch i => rw [show w' = w from h]
  | keep i name pool => rw [show w' = w from h]

/-- An act of a worker goes on with the trail, and the worker holds what it has to. -/
theorem Task.Nests.act (hannounce : ∀ i w d, (Work.exec (announcing i) w d).1.2.tracer = w.tracer)
    {hs xs ys : List Held} {a : Act} {next : a.Answer → Task α} {w w' : Monitor}
    {answer : a.Answer} (h : Task.Nests level parent scope hs (.step a next))
    (hu : Under (xs ++ ys) parent scope) (hw : Trails level old (xs ++ hs ++ ys) w.tracer)
    (hdoes : a.Does announcing w answer w') :
    ∃ hs', Task.Nests level parent scope hs' (next answer) ∧
      Trails level old (xs ++ hs' ++ ys) w'.tracer := by
  cases h with
  | number h =>
      rcases hdoes with ⟨now, hnumber, -⟩
      rw [List.append_nil] at hw
      rcases (hw.later now).number hnumber with ⟨hw', hfits⟩
      exact ⟨_, h answer hfits, hw'⟩
  | enter hfits h =>
      rcases hdoes with ⟨now, rfl⟩
      exact ⟨_, h, (hw.later now).enter hfits hu⟩
  | leave hfits h =>
      rcases hdoes with ⟨now, rfl⟩
      refine ⟨[], h, ?_⟩
      rw [List.append_nil]
      exact (hw.later now).left _ hfits hu
  | point h =>
      rcases hdoes with ⟨now, rfl⟩
      refine ⟨_, h, (hw.later now).point _ (hu.mono ?_)⟩
      intro x hx
      rcases List.mem_append.mp hx with hx | hx
      · exact List.mem_append_left _ (List.mem_append_left _ hx)
      · exact List.mem_append_right _ hx
  | silent ha h =>
      exact ⟨_, h answer, ha.tracer hannounce hdoes ▸ hw⟩

/-- What the workers of a stage hold, and that they will leave it. -/
def Squad.Nests (level : Level) (old : List Event) (base : List Held) (parent : Nat)
    (scope : Scope) (tasks : List (Task α)) (w : Monitor) : Prop :=
  ∃ squad : List (List Held × Task α), squad.map Prod.snd = tasks ∧
    (∀ p ∈ squad, p.2.Nests level parent scope p.1) ∧
    Trails level old ((squad.map Prod.fst).flatten ++ base) w.tracer

theorem Squad.nests_keeps
    (hannounce : ∀ i w d, (Work.exec (announcing i) w d).1.2.tracer = w.tracer)
    (hu : Under base parent scope) :
    Squad.Keeps announcing (Squad.Nests (α := α) level old base parent scope) := by
  refine ⟨?_, ?_⟩
  · rintro pre post a next w w' answer ⟨squad, hsquad, hnests, hw⟩ hdoes
    rcases List.map_eq_append_iff.mp hsquad with ⟨before, rest, rfl, rfl, hrest⟩
    rcases List.map_eq_cons_iff.mp hrest with ⟨⟨hs, t⟩, behind, rfl, rfl, rfl⟩
    have htask := hnests (hs, .step a next) (by simp)
    -- What the acting worker holds stands between what the others hold, who keep it.
    have hsplit : ∀ (hs : List Held) (t : Task α),
        ((before ++ (hs, t) :: behind).map Prod.fst).flatten ++ base
          = (before.map Prod.fst).flatten ++ hs ++ ((behind.map Prod.fst).flatten ++ base) := by
      simp
    have hunder : Under ((before.map Prod.fst).flatten ++ ((behind.map Prod.fst).flatten ++ base))
        parent scope :=
      hu.mono fun x hx => List.mem_append_right _ (List.mem_append_right _ hx)
    rw [hsplit] at hw
    rcases htask.act hannounce hunder hw hdoes with ⟨hs', hnext, hw'⟩
    refine ⟨before ++ (hs', next answer) :: behind, by simp, ?_, ?_⟩
    · rw [List.forall_mem_append, List.forall_mem_cons] at hnests ⊢
      exact ⟨hnests.1, hnext, hnests.2.2⟩
    · rw [hsplit]
      exact hw'
  · rintro tasks w ⟨squad, hsquad, hnests, hw⟩
    exact ⟨squad, hsquad, hnests, hw⟩

theorem Task.Nests.held_eq_nil {hs : List Held} {t : Task α}
    (h : t.Nests level parent scope hs) (ht : t.Ended) : hs = [] := by
  rcases ht with ⟨a, rfl⟩ | ⟨e, rfl⟩ <;> cases h <;> rfl

end Squads

/-! ## The tasks of the stages -/

section Tasks

variable {α : Type} {level : Level} {parent : Nat} {scope : Scope}

theorem Task.Nests.guarded {t : Task α} (h : t.Nests level parent scope []) :
    (Task.guarded t).Nests level parent scope [] := by
  refine .silent trivial fun off => ?_
  show Task.Nests level parent scope [] (if off = true then _ else _)
  split
  · exact .fail _
  · exact h

theorem Task.Nests.within {name : Text} {t : Span → Task α}
    (h : ∀ s : Span, s.Fits level parent scope → (t s).Nests level parent scope s.opens) :
    (Task.within scope name parent t).Nests level parent scope [] :=
  .number fun s hs => .enter hs (h s hs)

theorem Task.Nests.announced (number : Nat) (a : α) :
    (Task.announced number a).Nests level parent scope [] := by
  refine .silent trivial ?_
  rintro (e | _)
  · exact .fail e
  · exact .done a

namespace Stage

theorem nests_loadTask (path : Text) : (loadTask parent path).Nests level parent .module [] := by
  refine .guarded (.silent trivial fun _ => .silent trivial ?_)
  rintro (e | ⟨module, bytes⟩)
  · exact .silent trivial fun _ => .fail _
  · exact .point (.done _)

theorem nests_indexTasks {r : Registry} {e : Extractor} {t : Task CallIndex} :
    ∀ {modules : List Module} {number first : Nat},
      t ∈ indexTasks r e parent number first modules → t.Nests level parent .module []
  | module :: _, number, first, h => by
      rcases List.mem_cons.mp h with rfl | h
      · exact .guarded (.within fun s hs => .leave hs (.announced _ _))
      · exact nests_indexTasks h

theorem nests_harvestWithin (number : Nat) (module : Module) {s : Span}
    (hs : s.Fits level parent .module) :
    (harvestWithin number module s).Nests level parent .module s.opens := by
  refine .silent trivial ?_
  rintro (_ | pool)
  · exact .silent trivial fun _ => .leave hs (.announced _ _)
  · exact .leave hs (.announced _ _)

theorem nests_harvestTasks {t : Task (Option Harvest)} :
    ∀ {modules : List (Option Module)} {number : Nat},
      t ∈ harvestTasks parent number modules → t.Nests level parent .module []
  | module :: _, number, h => by
      rcases List.mem_cons.mp h with rfl | h
      · cases module with
        | none => exact .guarded (.done none)
        | some module => exact .guarded (.within fun s hs => nests_harvestWithin number module hs)
      · exact nests_harvestTasks h

theorem nests_resolveTasks {e : Engine} {t : Task (List TypeRef × Stats)} :
    ∀ {calls : List CallRef} {number : Nat},
      t ∈ resolveTasks e parent number calls → t.Nests level parent .seed []
  | call :: _, number, h => by
      rcases List.mem_cons.mp h with rfl | h
      · refine .guarded ?_
        cases Engine.pair? call with
        | none => exact .fail _
        | some pair =>
            refine .within fun s hs => ?_
            cases e.resolveSeed pair with
            | ok out => exact .leave hs (.done out)
            | error cause => exact .leave hs (.fail _)
      · exact nests_resolveTasks h

end Stage

end Tasks

/-! ## Work under spans -/

/-- The work leaves a trail from the held spans to the same held spans. -/
def Work.Nested {ε α : Type} (level : Level) (old : List Event) (hs : List Held)
    (x : Work DiskM ε α) : Prop :=
  ∀ w d, Trails level old hs w.tracer → Trails level old hs (Work.exec x w d).1.2.tracer

namespace Work.Nested

variable {ε δ α β : Type} {level : Level} {old : List Event} {hs : List Held}
  {x : Work DiskM ε α}

/-- Work that leaves the tracer alone. -/
theorem of_tracer (h : ∀ w d, (Work.exec x w d).1.2.tracer = w.tracer) :
    Work.Nested level old hs x :=
  fun w d hw => (h w d).symm ▸ hw

theorem pure (a : α) : Work.Nested level old hs (pure a : Work DiskM ε α) :=
  of_tracer fun _ _ => rfl

theorem throw (e : ε) : Work.Nested level old hs (throw e : Work DiskM ε α) :=
  of_tracer fun _ _ => rfl

theorem notify (p : Progress) : Work.Nested level old hs (Work.notify p : Work DiskM ε Unit) :=
  of_tracer fun _ _ => rfl

theorem now : Work.Nested level old hs (Work.now : Work DiskM ε Instant) := of_tracer fun _ _ => rfl

theorem products : Work.Nested level old hs (Work.products : Work DiskM ε Products) :=
  of_tracer fun _ _ => rfl

theorem record (f : Products → Products) :
    Work.Nested level old hs (Work.record f : Work DiskM ε Unit) := of_tracer fun _ _ => rfl

theorem ofHost (x : ExceptT ε DiskM α) : Work.Nested level old hs (Work.ofHost x) :=
  of_tracer fun _ _ => rfl

theorem bind {f : α → Work DiskM ε β} (hx : Work.Nested level old hs x)
    (hf : ∀ a, Work.Nested level old hs (f a)) : Work.Nested level old hs (x >>= f) := by
  intro w d hw
  have hx' := hx w d hw
  rw [Work.exec_bind]
  rcases hexec : Work.exec x w d with ⟨⟨e | a, w₁⟩, d₁⟩
  · rw [hexec] at hx'
    exact hx'
  · rw [hexec] at hx'
    exact hf a w₁ d₁ hx'

theorem outcome (hx : Work.Nested level old hs x) :
    Work.Nested level old hs (Work.outcome x : Work DiskM δ (Except ε α)) :=
  fun w d hw => hx w d hw

/-- Work inside a span ends by leaving the span, which is open meanwhile. -/
theorem exec_spanned {scope : Scope} {parent : Nat} (name : Text) (message : ε → Text)
    (closing : α → Closing) {work : Nat → Work DiskM ε α} (hu : Under hs parent scope)
    (h : ∀ n hs', (∀ finer, scope.code < finer.code → Under hs' n finer) →
      Work.Nested level old hs' (work n)) (w : Monitor) (d : Disk)
    (hw : Trails level old hs w.tracer) :
    ∃ s t now c, s.Fits level parent scope ∧
      (w.tracer.isActive scope = true → s.live = true ∧ s.name = name) ∧
      Trails level old (s.opens ++ hs) t ∧
      (Work.exec (Work.spanned scope name parent message closing work) w d).1.2.tracer
        = Tracer.left { t with now } s c := by
  rcases hnumber : ({ w.tracer with now := d.clock } : Tracer).number scope name parent with ⟨t, s⟩
  rcases Trails.number (show Trails level old ([] ++ hs) _ from hw.later d.clock) hnumber with
    ⟨hnumbered, hfits⟩
  have hlive : w.tracer.isActive scope = true → s.live = true ∧ s.name = name := by
    intro hactive
    have hbegun := Tracer.number_active (t := { w.tracer with now := d.clock }) hactive name parent
    rw [hnumber] at hbegun
    exact hbegun
  have hentered : Trails level old (s.opens ++ hs) (t.enter s) := hnumbered.enter hfits hu
  -- A live span is open and may be a parent; an inert one has the number of the top.
  have hwork : Work.Nested level old (s.opens ++ hs) (work s.id) :=
    h s.id _ fun finer hfiner => hfits.under hfiner hs
  have hdone := hwork { w with tracer := t.enter s } d hentered
  unfold Work.spanned
  rw [Work.exec_bind, Work.exec_trace, Tracer.begin, hnumber]
  dsimp only
  rw [Work.exec_bind, Work.exec_outcome]
  rcases hexec : Work.exec (work s.id) { w with tracer := t.enter s } d with ⟨⟨e | a, w₁⟩, d₁⟩
  · rw [hexec] at hdone
    exact ⟨s, w₁.tracer, d₁.clock, { detail := message e }, hfits, hlive, hdone, rfl⟩
  · rw [hexec] at hdone
    exact ⟨s, w₁.tracer, d₁.clock, closing a, hfits, hlive, hdone, rfl⟩

theorem spanned {scope : Scope} {name : Text} {parent : Nat} {message : ε → Text}
    {closing : α → Closing} {work : Nat → Work DiskM ε α} (hu : Under hs parent scope)
    (h : ∀ n hs', (∀ finer, scope.code < finer.code → Under hs' n finer) →
      Work.Nested level old hs' (work n)) :
    Work.Nested level old hs (Work.spanned scope name parent message closing work) := by
  intro w d hw
  rcases exec_spanned name message closing hu h w d hw with ⟨s, t, now, c, hfits, -, ht, hleft⟩
  rw [hleft]
  show Trails level old ([] ++ hs) _
  exact Trails.left (ht.later now) c hfits hu

end Work.Nested

section Runs

variable {level : Level} {old : List Event} {hs : List Held}

/-- A squad whose workers hold nothing at first gives back what the stage holds. -/
theorem Squad.nested_finish {α : Type} {announcing : Nat → Work DiskM StageError Unit}
    {parent : Nat} {scope : Scope} {q : Squad α} (turns : List Turn)
    (hannounce : ∀ i w d, (Work.exec (announcing i) w d).1.2.tracer = w.tracer)
    (hu : Under hs parent scope) (hq : ∀ t ∈ q.tasks, t.Nests level parent scope []) :
    Work.Nested level old hs (q.finish announcing turns) := by
  intro w d hw
  have hfirst : Squad.Nests level old hs parent scope q.tasks w := by
    refine ⟨q.tasks.map fun t => ([], t), by simp, ?_, ?_⟩
    · intro p hp
      rcases List.mem_map.mp hp with ⟨t, ht, rfl⟩
      exact hq t ht
    · have hnone : ((q.tasks.map fun t => (([] : List Held), t)).map Prod.fst).flatten = [] := by
        simp
      rw [hnone]
      exact hw
  rcases Squad.exec_finish (Squad.nests_keeps hannounce hu) turns q w d hfirst with
    ⟨ends, ⟨squad, rfl, hnests, hlast⟩, hended, -⟩
  -- Workers that have ended hold nothing, so only what the stage itself holds is left.
  have hnone : (squad.map Prod.fst).flatten = [] := by
    refine List.flatten_eq_nil_iff.mpr fun held hheld => ?_
    rcases List.mem_map.mp hheld with ⟨p, hp, rfl⟩
    exact (hnests p hp).held_eq_nil (hended _ (List.mem_map_of_mem hp))
  rw [hnone] at hlast
  exact hlast

namespace Crew

variable (turns : Stage → List Turn) {parent : Nat}

theorem nested_load (hu : Under hs parent .module) (paths : List Text) :
    Work.Nested level old hs ((taking turns : Crew DiskM).load parent paths) := by
  refine Work.Nested.bind (Squad.nested_finish _ (fun _ _ _ => rfl) hu ?_) fun _ => .pure _
  intro t ht
  rcases List.mem_map.mp ht with ⟨path, -, rfl⟩
  exact Stage.nests_loadTask path

theorem nested_index {announcing : Nat → Work DiskM StageError Unit}
    (hannounce : ∀ i w d, (Work.exec (announcing i) w d).1.2.tracer = w.tracer)
    (hu : Under hs parent .module) (r : Registry) (e : Extractor) (modules : List Module) :
    Work.Nested level old hs ((taking turns : Crew DiskM).index announcing r e parent modules) :=
  Work.Nested.bind (Squad.nested_finish _ hannounce hu fun _ => Stage.nests_indexTasks)
    fun _ => .pure _

theorem nested_harvest {announcing : Nat → Work DiskM StageError Unit}
    (hannounce : ∀ i w d, (Work.exec (announcing i) w d).1.2.tracer = w.tracer)
    (hu : Under hs parent .module) (modules : List (Option Module)) (shelf : Option PoolShelf) :
    Work.Nested level old hs
      ((taking turns : Crew DiskM).harvest announcing parent modules shelf) :=
  Work.Nested.bind (Squad.nested_finish _ hannounce hu fun _ => Stage.nests_harvestTasks)
    fun _ => .pure _

theorem nested_resolve (hu : Under hs parent .seed) (e : Engine) (calls : List CallRef) :
    Work.Nested level old hs ((taking turns : Crew DiskM).resolve e parent calls) :=
  Work.Nested.bind
    (Squad.nested_finish _ (fun _ _ _ => rfl) hu fun _ => Stage.nests_resolveTasks)
    fun _ => .pure _

end Crew

namespace Run

theorem nested_announceAll {ε : Type} (s : Stage) (status : Status) : ∀ files : List Text,
    Work.Nested level old hs (announceAll s status files : Work DiskM ε Unit)
  | [] => .pure _
  | _ :: files => (Work.Nested.notify _).bind fun _ => nested_announceAll s status files

variable (turns : Stage → List Turn) {span : Nat} (req : Request)

theorem nested_load (hu : Under hs span .phase) :
    Work.Nested level old hs (load span req (.taking turns) : Work DiskM StageError Text) := by
  refine (Work.Nested.spanned hu fun n hs' hn => ?_).bind fun loaded => ?_
  · exact Crew.nested_load turns (hn .module (by decide)) req.paths
  · refine (Work.Nested.record _).bind fun _ => ?_
    exact (nested_announceAll _ _ _).bind fun _ => .pure _

theorem nested_index (hu : Under hs span .phase) :
    Work.Nested level old hs (index span (.taking turns) : Work DiskM StageError Text) := by
  refine Work.Nested.products.bind fun p => ?_
  refine (Work.Nested.spanned hu fun n hs' hn => ?_).bind fun x => ?_
  · exact (Crew.nested_index turns (fun _ _ _ => rfl) (hn .module (by decide)) _ _ _).bind
      fun _ => .pure _
  · exact (Work.Nested.record _).bind fun _ => .pure _

theorem nested_harvest (hu : Under hs span .phase) :
    Work.Nested level old hs (harvest span req (.taking turns) : Work DiskM StageError Text) := by
  refine Work.Nested.products.bind fun p => ?_
  refine (Work.Nested.spanned hu fun n hs' hn => ?_).bind ?_
  · exact Crew.nested_harvest turns (fun _ _ _ => rfl) (hn .module (by decide)) _ _
  · rintro ⟨harvests, _ | shelf⟩
    · exact (Work.Nested.record _).bind fun _ => .pure _
    · refine (Work.Nested.record _).bind fun _ => ?_
      exact (Work.Nested.record _).bind fun _ => .pure _

theorem nested_resolve (hu : Under hs span .phase) :
    Work.Nested level old hs (resolve span req (.taking turns) : Work DiskM StageError Text) := by
  refine Work.Nested.products.bind fun p => (Work.Nested.record _).bind fun _ => ?_
  refine (Work.Nested.spanned hu fun n hs' hn => ?_).bind fun r => ?_
  · exact (Crew.nested_resolve turns (hn .seed (by decide)) _ _).bind fun _ => .pure _
  · exact (Work.Nested.record _).bind fun _ => .pure _

theorem nested_emit : Work.Nested level old hs (emit req : Work DiskM StageError Text) :=
  Work.Nested.products.bind fun _ => (Work.Nested.ofHost _).bind fun _ =>
    (Work.Nested.record _).bind fun _ => .pure _

theorem nested_report (home : Text) (start : Instant) :
    Work.Nested level old hs (report home start req : Work DiskM StageError Text) :=
  Work.Nested.products.bind fun _ => Work.Nested.now.bind fun _ =>
    (Work.Nested.ofHost _).bind fun _ => (Work.Nested.record _).bind fun _ => .pure _

theorem nested_stage (s : Stage) {work : Work DiskM StageError Text}
    (h : Work.Nested level old hs work) : Work.Nested level old hs (stage s work) := by
  refine Work.Nested.now.bind fun start => ?_
  refine (Work.Nested.of_tracer fun _ _ => rfl).bind fun w => ?_
  refine (Work.Nested.of_tracer fun _ _ => rfl).bind fun _ => ?_
  refine (Work.Nested.notify _).bind fun _ => h.outcome.bind fun result => ?_
  refine Work.Nested.now.bind fun stop => ?_
  have hclose : ∀ number nanos note, Work.Nested level old hs (closeStage s number nanos note) :=
    fun _ _ _ => .of_tracer fun _ _ => rfl
  cases result with
  | ok note => exact (hclose _ _ _).bind fun _ => .notify _
  | error e => exact (hclose _ _ _).bind fun _ => (Work.Nested.notify _).bind fun _ => .throw _

theorem nested_stages (home : Text) (start : Instant) (hu : Under hs span .phase) :
    Work.Nested level old hs
      (stages home start req span (.taking turns) : Work DiskM RunError Nat) := by
  have hfind : Work.Nested level old hs (findTypes req span (.taking turns)) := by
    refine (nested_announceAll _ _ _).bind fun _ => ?_
    refine (nested_stage _ (nested_load turns req hu)).bind fun _ => ?_
    refine (nested_stage _ (nested_index turns hu)).bind fun _ => ?_
    refine (nested_stage _ (nested_harvest turns req hu)).bind fun _ => ?_
    exact nested_stage _ (nested_resolve turns req hu)
  have hwrite : Work.Nested level old hs (writeTypes home start req) := by
    refine (nested_stage _ (nested_emit req)).bind fun _ => ?_
    split
    · exact .pure _
    · exact nested_stage _ (nested_report req home start)
  refine hfind.bind fun _ => ?_
  cases req.dryRun with
  | true => exact Work.Nested.products.bind fun _ => .pure _
  | false => exact hwrite.bind fun _ => Work.Nested.products.bind fun _ => .pure _

/-- A run that is not refused is its stages inside the span of the run. -/
theorem exec_run_tracer (home : Text) {req : Request} (h : refusal? req = none)
    (crew : Crew DiskM) (w : Monitor) (d : Disk) :
    (Work.exec (run home (some req) crew) w d).1.2.tracer
      = (Work.exec (Work.spanned .run ("concretize:" ++ req.target) 0 RunError.message
          (fun n : Nat => { values := [("types", Text.ofNat n)] })
          fun span => stages home d.clock req span crew) w d).1.2.tracer := by
  have hnow : ∀ (w : Monitor) (d : Disk), Work.exec (Work.now : Work DiskM RunError Instant) w d
      = ((.ok d.clock, w), d) := fun _ _ => rfl
  unfold run
  dsimp only
  rw [h]
  dsimp only
  rw [Work.exec_bind, hnow]
  dsimp only
  rw [Work.exec_bind, Work.exec_outcome]
  rcases Work.exec (Work.spanned .run ("concretize:" ++ req.target) 0 RunError.message
    (fun n : Nat => { values := [("types", Text.ofNat n)] })
    fun span => stages home d.clock req span crew) w d with ⟨⟨_ | _, w'⟩, d'⟩ <;> rfl

/-- What a run that is not refused adds to a trace: a trail that ends with the run's own end. -/
theorem exec_run_trail (home : Text) {req : Request} (h : refusal? req = none) (w : Monitor)
    (d : Disk) :
    Trails w.tracer.level w.tracer.history []
        (Work.exec (run home (some req) (.taking turns)) w d).1.2.tracer ∧
      (w.tracer.isActive .run = true → ∃ es f,
        (Work.exec (run home (some req) (.taking turns)) w d).1.2.tracer.history
          = w.tracer.history ++ es ++ [f] ∧
        f.kind = .finish ∧ f.scope = .run ∧ f.name = "concretize:" ++ req.target ∧ f.parent = 0) := by
  have hw : Trails w.tracer.level w.tracer.history [] w.tracer :=
    ⟨rfl, [], (List.append_nil _).symm, .empty _, by simp⟩
  have hstages : ∀ n hs', (∀ finer, Scope.run.code < finer.code → Under hs' n finer) →
      Work.Nested w.tracer.level w.tracer.history hs'
        (stages home d.clock req n (.taking turns)) :=
    fun n hs' hn => nested_stages turns req home d.clock (hn .phase (by decide))
  rw [exec_run_tracer home h]
  refine ⟨Work.Nested.spanned (Or.inl rfl) hstages w d hw, fun hactive => ?_⟩
  rcases Work.Nested.exec_spanned ("concretize:" ++ req.target) RunError.message
    (fun n : Nat => { values := [("types", Text.ofNat n)] }) (Or.inl rfl) hstages w d hw with
    ⟨s, t, now, c, hfits, hname, ht, hleft⟩
  rcases hname hactive with ⟨hlive, hname⟩
  rcases ht with ⟨-, es, hes, -, -⟩
  rcases Tracer.left_live { t with now } hlive c with ⟨f, hf, hkind, hof⟩
  rcases hfits with ⟨-, hparent, hscope, -⟩ | ⟨hinert, -⟩
  · refine ⟨es, f, ?_, hkind, hof.scope.trans hscope, hof.name.trans hname, hof.parent.trans hparent⟩
    rw [hleft, hf, ← hes]
  · rw [hlive] at hinert
    cases hinert

/-- **The trace of a run is a forest.** Whatever turns the workers take and however the run ends, it
adds to the trace a forest of events that the level keeps, and what any level keeps of them is a
forest as well. Where spans of runs are traced, the forest of a run that is not refused ends with the
end of its own span. -/
theorem trace_forest (home : Text) (request : Option Request) (w : Monitor) (d : Disk) :
    ∃ es, (Work.exec (run home request (.taking turns)) w d).1.2.tracer.history
        = w.tracer.history ++ es ∧
      Forest es ∧ (∀ e ∈ es, w.tracer.level.keeps e.scope = true) ∧
      (∀ level : Level, Forest (es.filter fun e => level.keeps e.scope)) ∧
      ∀ req, request = some req → refusal? req = none → w.tracer.isActive .run = true →
        ∃ f, es.getLast? = some f ∧ f.kind = .finish ∧ f.scope = .run ∧
          f.name = "concretize:" ++ req.target ∧ f.parent = 0 := by
  have hempty : Forest [] := (Trail.empty 0).forest
  cases request with
  | none => exact ⟨[], (List.append_nil _).symm, hempty, by simp, fun _ => hempty, by simp⟩
  | some req =>
      cases hrefusal : refusal? req with
      | some e =>
          rw [exec_run_refused home hrefusal]
          refine ⟨[], (List.append_nil _).symm, hempty, by simp, fun _ => hempty, ?_⟩
          rintro req' ⟨⟩ hnone
          rw [hrefusal] at hnone
          cases hnone
      | none =>
          rcases exec_run_trail turns home hrefusal w d with ⟨⟨-, es, hes, htrail, hkept⟩, hends⟩
          have hforest := htrail.forest
          refine ⟨es, hes, hforest, hkept, hforest.keeps, ?_⟩
          rintro req' ⟨⟩ - hactive
          rcases hends hactive with ⟨es', f, hes', hf⟩
          have hsplit : es = es' ++ [f] := by
            rw [hes, List.append_assoc] at hes'
            exact List.append_cancel_left hes'
          exact ⟨f, by rw [hsplit, List.getLast?_concat], hf⟩

end Run

end Runs

/-- The spans of two modules that are indexed at once overlap. -/
example : (Work.exec (Run.run "" (some Sample.twice) (.taking Sample.overtaking))
      { tracer := { level := .detail } } Sample.stocked).1.2.tracer.history.filterMap
        (fun e => if e.parent = 3 then some (e.span, e.kind) else none)
      = [(4, .begin), (5, .begin), (5, .finish), (4, .finish)] := by
  decide +kernel

end Monomorph
