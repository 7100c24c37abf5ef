import Monomorph.Proofs.Engine
import Monomorph.Proofs.Turns

/-!
# What workers come to

A worker goes by the answers to its acts. `Terms` say for a stage what these answers may be, what a
worker may do, and what its failure shows. A task that `Meets` the terms ends in a result as
described, whichever of the answers it gets.

Where the surroundings keep to the terms (`Terms.Kept`), a squad of such tasks succeeds with results
as described, in the order of the workers and whatever turns are taken, or it fails and shows what a
failure shows (`Squad.ensures_finish`). The tasks of the four stages meet any terms on which the
answers are right.
-/

namespace Monomorph

variable {α ι : Type} {announcing : Nat → Work DiskM StageError Unit} {turns : List Turn}

/-! ## Terms -/

/-- What the workers of a stage can count on. -/
structure Terms where
  /-- What is the case if a worker fails. -/
  fails : Prop
  /-- Whether workers may tell events. -/
  tells : Prop := True
  /-- What may come of loading the module at a path. -/
  loads : Text → Except LoadError (Module × List UInt8) → Prop := fun _ _ => True
  /-- What the cache may give for a module. -/
  fetches : Nat → Option Pool → Prop := fun _ _ => True
  /-- What workers may keep in the cache for a module, under its name. -/
  keeps : Nat → Text → Pool → Prop := fun _ _ _ => True

namespace Terms

def allows (T : Terms) : Act → Prop
  | .tell _ => T.tells
  | .keep number name pool => T.keeps number name pool
  | _ => True

def answers (T : Terms) : (a : Act) → a.Answer → Prop
  | .check, off => off = true → T.fails
  | .announce _, r => ∀ e, r = .error e → T.fails
  | .load path, r => T.loads path r
  | .fetch number, found => T.fetches number found
  | .tell _, _ | .number .., _ | .enter _, _ | .leave .., _ | .point .., _ | .keep .., _ => True

end Terms

/-- On these terms, the task does what is allowed and ends in a result with `Q`, or fails as the
terms say. -/
def Task.Meets (T : Terms) (Q : α → Prop) : Task α → Prop
  | .done a => Q a
  | .fail _ => T.fails
  | .step a next => T.allows a ∧ ∀ answer, T.answers a answer → (next answer).Meets T Q

/-- Whatever is allowed keeps `Φ`, a state of the shelf, the monitor and the disk, and is answered
on these terms. -/
structure Terms.Kept (T : Terms) (announcing : Nat → Work DiskM StageError Unit) (turns : List Turn)
    (Φ : Option PoolShelf → Monitor → Disk → Prop) : Prop where
  called : ∀ {shelf w d}, Φ shelf w d → w.cancelled = true → T.fails
  told : T.tells → ∀ {shelf w d} (p : Progress), Φ shelf w d →
    Φ shelf { w with events := w.events ++ [p], cancelled := w.cancelled || w.cancelsOn p } d
  traced : ∀ {shelf w d} (tracer : Trace.Tracer), Φ shelf w d → Φ shelf { w with tracer } d
  announced : ∀ {shelf} number, Work.Ensures (Φ shelf) (announcing number) (fun _ => Φ shelf)
    (fun _ w d => Φ shelf w d ∧ T.fails)
  loaded : ∀ {shelf w d} path, Φ shelf w d → T.loads path (Disk.run (Module.load path) d).1 ∧
    Φ shelf w (Disk.run (Module.load path) d).2
  fetched : ∀ {s : PoolShelf} {w d} number, Φ (some s) w d →
    T.fetches number ((s.load number : DiskM _).run d).1.1 ∧
      Φ (some ((s.load number : DiskM _).run d).1.2) w ((s.load number : DiskM _).run d).2
  missed : ∀ {w d} number, Φ none w d → T.fetches number none
  stored : ∀ {s : PoolShelf} {w d number name pool}, T.keeps number name pool → Φ (some s) w d →
    Φ (some ((s.store number name pool : DiskM _).run d).1) w
      ((s.store number name pool : DiskM _).run d).2
  cancelled : .cancel ∈ turns → ∀ {shelf w d}, Φ shelf w d → Φ shelf { w with cancelled := true } d

/-- One of two related lists may be changed at a place where the relation stays. -/
theorem forall₂_replace {β : Type} {R : ι → β → Prop} : ∀ {xs : List ι}
    {pre post : List β} {b : β}, List.Forall₂ R xs (pre ++ b :: post) →
      ∃ x, R x b ∧ ∀ c, R x c → List.Forall₂ R xs (pre ++ c :: post)
  | _, [], _, _, .cons h hs => ⟨_, h, fun _ hc => .cons hc hs⟩
  | _, _ :: _, _, _, .cons h hs => by
      obtain ⟨x, hx, hrest⟩ := forall₂_replace hs
      exact ⟨x, hx, fun c hc => .cons h (hrest c hc)⟩

section Rule

variable {T : Terms} {Φ : Option PoolShelf → Monitor → Disk → Prop} (hT : T.Kept announcing turns Φ)

include hT

/-- An act that is allowed keeps `Φ` and is answered on the terms. -/
theorem Terms.Kept.exec_perform {a : Act} (ha : T.allows a) {s : Shared} {w : Monitor} {d : Disk}
    (hs : s.failure.isSome = true → T.fails) (hΦ : Φ s.shelf w d) :
    ∃ answer s' w' d', Work.exec (a.perform announcing s) w d = ((.ok (answer, s'), w'), d') ∧
      T.answers a answer ∧ Φ s'.shelf w' d' := by
  cases a with
  | check =>
      refine ⟨s.failure.isSome || w.cancelled, s, w, d, rfl, fun hoff => ?_, hΦ⟩
      rcases Bool.or_eq_true_iff.mp hoff with hfailed | hcancelled
      · exact hs hfailed
      · exact hT.called hΦ hcancelled
  | tell p => exact ⟨(), s, _, d, rfl, trivial, hT.told ha p hΦ⟩
  | announce i =>
      have hend := hT.announced i w d hΦ
      refine ⟨(Work.exec (announcing i) w d).1.1, s, _, _, rfl, ?_, ?_⟩
      · intro e he
        rw [he] at hend
        exact hend.2
      · revert hend
        cases (Work.exec (announcing i) w d).1.1 with
        | ok u => exact id
        | error e => exact And.left
  | number scope name parent => exact ⟨_, s, _, d, rfl, trivial, hT.traced _ hΦ⟩
  | enter span => exact ⟨_, s, _, d, rfl, trivial, hT.traced _ hΦ⟩
  | leave span c => exact ⟨_, s, _, d, rfl, trivial, hT.traced _ hΦ⟩
  | point scope name detail parent => exact ⟨_, s, _, d, rfl, trivial, hT.traced _ hΦ⟩
  | load path => exact ⟨_, s, w, _, rfl, (hT.loaded path hΦ).1, (hT.loaded path hΦ).2⟩
  | fetch i =>
      rcases s with ⟨failure, _ | shelf⟩
      · exact ⟨none, _, w, d, rfl, hT.missed i hΦ, hΦ⟩
      · exact ⟨_, ⟨failure, some _⟩, w, _, rfl, (hT.fetched i hΦ).1, (hT.fetched i hΦ).2⟩
  | keep i name pool =>
      rcases s with ⟨failure, _ | shelf⟩
      · exact ⟨(), _, w, d, rfl, trivial, hΦ⟩
      · exact ⟨(), ⟨failure, some _⟩, w, _, rfl, trivial, hT.stored ha hΦ⟩

theorem Terms.Kept.upholds {xs : List ι} {R : ι → α → Prop} :
    Squad.Upholds announcing turns fun tasks s w d =>
      List.Forall₂ (fun x t => Task.Meets T (R x) t) xs tasks ∧
        (s.failure.isSome = true → T.fails) ∧ Φ s.shelf w d := by
  refine ⟨?_, ?_, ?_⟩
  · rintro pre post a next s w d ⟨htasks, hs, hΦ⟩
    obtain ⟨x, ⟨ha, hnext⟩, hrest⟩ := forall₂_replace htasks
    obtain ⟨answer, s', w', d', hexec, hanswer, hΦ'⟩ := hT.exec_perform ha hs hΦ
    refine ⟨answer, s', w', d', hexec, hrest _ (hnext answer hanswer), ?_, hΦ'⟩
    rw [Act.failure_of_exec_perform hexec]
    exact hs
  · rintro pre post e s w d ⟨htasks, hs, hΦ⟩
    obtain ⟨x, hfails, -⟩ := forall₂_replace htasks
    exact ⟨htasks, fun _ => hfails, hΦ⟩
  · rintro hcancel tasks s w d ⟨htasks, hs, hΦ⟩
    exact ⟨htasks, hs, hT.cancelled hcancel hΦ⟩

/-- **Workers.** A squad of tasks that meet the terms gives results as described, in order, or fails
as the terms say, whatever turns are taken. -/
theorem Squad.ensures_finish {xs : List ι} {R : ι → α → Prop} {q : Squad α}
    (hq : List.Forall₂ (fun x t => Task.Meets T (R x) t) xs q.tasks)
    (hfailure : q.shared.failure = none) :
    Work.Ensures (Φ q.shared.shelf) (q.finish announcing turns)
      (fun r w d => Φ r.2 w d ∧ List.Forall₂ R xs r.1)
      (fun _ w d => (∃ shelf, Φ shelf w d) ∧ T.fails) := by
  intro w d hΦ
  obtain ⟨ends, vs, s', w', d', hexec, ⟨hends, hfails, hΦ'⟩, -, hdone⟩ :=
    hT.upholds.exec_finish q w d ⟨hq, by simp [hfailure], hΦ⟩
  rw [hexec]
  cases hs : s'.failure with
  | some e => exact ⟨⟨_, hΦ'⟩, hfails (by rw [hs]; rfl)⟩
  | none =>
      rw [hdone hs, List.forall₂_map_right_iff] at hends
      exact ⟨hΦ', hends⟩

end Rule

/-! ## The tasks of the stages -/

namespace Task.Meets

variable {T : Terms} {Q : α → Prop}

theorem guarded {t : Task α} (h : t.Meets T Q) : (Task.guarded t).Meets T Q := by
  refine ⟨trivial, fun off hoff => ?_⟩
  cases off with
  | true => exact hoff rfl
  | false => exact h

theorem within {scope : Trace.Scope} {name : Text} {parent : Nat} {t : Trace.Span → Task α}
    (h : ∀ span, (t span).Meets T Q) : (Task.within scope name parent t).Meets T Q :=
  ⟨trivial, fun span _ => ⟨trivial, fun _ _ => h span⟩⟩

theorem leave {span : Trace.Span} {c : Closing} {t : Task α} (h : t.Meets T Q) :
    (Task.step (.leave span c) fun _ => t).Meets T Q :=
  ⟨trivial, fun _ _ => h⟩

theorem announced {number : Nat} {a : α} (h : Q a) : (Task.announced number a).Meets T Q := by
  refine ⟨trivial, fun r hr => ?_⟩
  cases r with
  | ok _ => exact h
  | error e => exact hr e rfl

end Task.Meets

/-- A call that an engine resolves to types and counters. -/
def Engine.ResolvesTo (e : Engine) (call : CallRef) (out : List TypeRef × Stats) : Prop :=
  ∃ pair, Engine.pair? call = some pair ∧ e.resolveSeed pair = .ok out

/-- Seeds that are each resolved are resolved together, to the joined types. -/
theorem Engine.resolve_of_forall₂ {e : Engine} {calls : List CallRef}
    {outs : List (List TypeRef × Stats)} (h : List.Forall₂ e.ResolvesTo calls outs) :
    e.resolve calls = .ok (outs.foldl (fun r (types, stats) => join r types stats) {}) := by
  have hfrom : ∀ i r, e.resolveFrom false i calls r
      = .ok (outs.foldl (fun r (types, stats) => join r types stats) r) := by
    induction h with
    | nil => exact fun _ _ => rfl
    | cons hone _ ih =>
        intro i r
        obtain ⟨pair, hpair, hout⟩ := hone
        rw [resolveFrom, if_neg Bool.false_ne_true, hpair]
        dsimp only
        rw [hout]
        exact ih _ _
  exact hfrom 0 {}

namespace Stage

variable {T : Terms} {parent : Nat}

theorem meets_loadTask (htells : T.tells) {path : Text}
    (hfails : ∀ e, T.loads path (.error e) → T.fails) :
    (loadTask parent path).Meets T fun l =>
      ∃ module bytes, T.loads path (.ok (module, bytes)) ∧
        l = { path, module, digest := Digest.sum bytes } := by
  refine .guarded ⟨htells, fun _ _ => ⟨trivial, fun r hr => ?_⟩⟩
  rcases r with e | ⟨module, bytes⟩
  · exact ⟨htells, fun _ _ => hfails e hr⟩
  · exact ⟨trivial, fun _ _ => ⟨module, bytes, hr, rfl⟩⟩

theorem meets_indexTasks {r : Registry} {e : Extractor} (modules : List Module) :
    ∀ number first : Nat, List.Forall₂
      (fun part t => Task.Meets T (· = CallIndex.scan r e part.1 part.2) t)
      (CallIndex.sections first (modules.map some))
      (indexTasks r e parent number first modules) := by
  induction modules with
  | nil => exact fun _ _ => .nil
  | cons module modules ih =>
      intro number first
      exact .cons (.guarded (.within fun _ => .leave (.announced rfl))) (ih _ _)

/-- On these terms, the pools that the cache gives for the modules are as good as their own, and
their own may be kept. -/
def Offers (T : Terms) (good : Module → Pool → Prop) (number : Nat)
    (modules : List (Option Module)) : Prop :=
  ∀ i m, modules[i]? = some (some m) → T.keeps (number + i) m.name (Pool.ofModule m) ∧
    good m (Pool.ofModule m) ∧ ∀ pool, T.fetches (number + i) (some pool) → good m pool

theorem meets_harvestTasks {good : Module → Pool → Prop} (modules : List (Option Module)) :
    ∀ number : Nat, Offers T good number modules → List.Forall₂
      (fun module t => Task.Meets T (Option.Rel (fun m h => good m h.pool) module) t) modules
      (harvestTasks parent number modules) := by
  induction modules with
  | nil => exact fun _ _ => .nil
  | cons module modules ih =>
      intro number hgood
      refine .cons ?_ (ih (number + 1) fun i m hm => ?_)
      · cases module with
        | none => exact .guarded .none
        | some m =>
            obtain ⟨hkeeps, hown, hfetched⟩ := hgood 0 m rfl
            refine .guarded (.within fun span => ⟨trivial, fun found hfound => ?_⟩)
            cases found with
            | some pool => exact .leave (.announced (.some (hfetched pool hfound)))
            | none => exact ⟨hkeeps, fun _ _ => .leave (.announced (.some hown))⟩
      · rw [Nat.add_assoc, Nat.add_comm 1]
        exact hgood (i + 1) m hm

theorem meets_resolveTasks {e : Engine} (calls : List CallRef) : ∀ number : Nat,
    (∀ call ∈ calls, (∀ types, ¬ e.Resolves call types) → T.fails) → List.Forall₂
      (fun call t => Task.Meets T (e.ResolvesTo call) t) calls
      (resolveTasks e parent number calls) := by
  induction calls with
  | nil => exact fun _ _ => .nil
  | cons call calls ih =>
      intro number hfails
      obtain ⟨hfail, hfails⟩ := List.forall_mem_cons.mp hfails
      refine .cons (.guarded ?_) (ih _ hfails)
      cases hpair : Engine.pair? call with
      | none =>
          refine hfail fun types hresolves => ?_
          obtain ⟨pair, stats, hsome, -⟩ := hresolves
          cases hpair.symm.trans hsome
      | some pair =>
          refine .within fun span => ?_
          cases hout : e.resolveSeed pair with
          | ok out => exact .leave ⟨pair, hpair, hout⟩
          | error cause =>
              refine .leave (hfail fun types hresolves => ?_)
              obtain ⟨pair', stats, hsome, hok⟩ := hresolves
              cases hpair.symm.trans hsome
              cases hout.symm.trans hok

/-- Harvests that have the pools of the modules join to the pool of the modules; an empty place adds
nothing. -/
theorem joined_of_forall₂ {modules : List (Option Module)} {hs : List Harvest}
    (h : List.Forall₂ (fun m x => x.pool = Pool.ofModule m) (modules.filterMap id) hs) :
    joined hs = Pool.ofModules modules := by
  have hall : ∀ p : Pool, (hs.map Harvest.pool).foldl Pool.merge p
      = (modules.map fun m => (m.map Pool.ofModule).getD {}).foldl Pool.merge p := by
    induction modules generalizing hs with
    | nil =>
        cases h
        exact fun _ => rfl
    | cons module modules ih =>
        intro p
        cases module with
        | none => exact ih h p
        | some module =>
            rcases h with _ | ⟨hone, hrest⟩
            rw [List.map_cons, List.foldl_cons, hone]
            exact ih hrest _
  exact hall {}

/-! ## The stages of a run -/

section Squads

variable {turns : Stage → List Turn} {Φ : Option PoolShelf → Monitor → Disk → Prop}

/-- A span around squads whose results are put together as `R` says. -/
theorem ensures_spanned {β : Type} {s : Stage} {shelf : Option PoolShelf}
    {R : β → Option PoolShelf → Prop} {name : Text} {closing : β → Closing}
    {work : Nat → Work DiskM StageError β} (hT : T.Kept announcing (turns s) Φ)
    (h : ∀ n, Work.Ensures (Φ shelf) (work n) (fun b w d => ∃ shelf, Φ shelf w d ∧ R b shelf)
      (fun _ w d => (∃ shelf, Φ shelf w d) ∧ T.fails)) :
    Work.Ensures (Φ shelf) (Work.spanned .phase name parent StageError.message closing work)
      (fun b w d => ∃ shelf, Φ shelf w d ∧ R b shelf)
      (fun _ w d => (∃ shelf, Φ shelf w d) ∧ T.fails) :=
  .spanned hT.traced (fun t hend => hend.imp fun _ => .imp (hT.traced t) id)
    (fun t hend => hend.imp (.imp fun _ => hT.traced t) id) h

theorem ensures_loadModules (hT : T.Kept (fun _ => return) (turns .load) Φ) (htells : T.tells)
    {paths : List Text} (hfails : ∀ path ∈ paths, ∀ e, T.loads path (.error e) → T.fails) :
    Work.Ensures (Φ none) (loadModules parent paths (.taking turns))
      (fun ls w d => ∃ shelf, Φ shelf w d ∧ List.Forall₂ (fun path l =>
        ∃ module bytes, T.loads path (.ok (module, bytes)) ∧
          l = { path, module, digest := Digest.sum bytes }) paths ls)
      (fun _ w d => (∃ shelf, Φ shelf w d) ∧ T.fails) := by
  refine ensures_spanned hT fun n => ?_
  have htask : ∀ path ∈ paths, (loadTask n path).Meets T _ := fun path hpath =>
    meets_loadTask htells (hfails path hpath)
  have htasks := List.forall₂_map_right_iff.mpr (List.forall₂_same.mpr htask)
  let squad : Squad Loaded := { tasks := paths.map (loadTask n) }
  exact (Squad.ensures_finish (q := squad) hT htasks rfl).bind fun r => .pure fun w d h => ⟨r.2, h⟩

theorem ensures_indexModules (hT : T.Kept announcing (turns .index) Φ) (r : Registry) (e : Extractor)
    (modules : List Module) :
    Work.Ensures (Φ none) (indexModules announcing r e parent modules (.taking turns))
      (fun x w d => ∃ shelf, Φ shelf w d ∧ x = CallIndex.build r e (modules.map some))
      (fun _ w d => (∃ shelf, Φ shelf w d) ∧ T.fails) := by
  refine ensures_spanned hT fun n => ?_
  let squad : Squad CallIndex := { tasks := indexTasks r e n 0 0 modules }
  have hparts : Work.Ensures (Φ none) ((Crew.taking turns).index announcing r e n modules)
      (fun parts w d => ∃ shelf, Φ shelf w d ∧ parts =
        (CallIndex.sections 0 (modules.map some)).map fun part => CallIndex.scan r e part.1 part.2)
      (fun _ w d => (∃ shelf, Φ shelf w d) ∧ T.fails) := by
    refine (Squad.ensures_finish (q := squad) hT (meets_indexTasks modules 0 0) rfl).bind fun out =>
      .pure fun w d h => ⟨out.2, h.1, ?_⟩
    have hsame : List.Forall₂ Eq _ out.1 :=
      List.forall₂_map_left_iff.mpr (h.2.imp fun _ _ => Eq.symm)
    exact (List.forall₂_eq_eq_eq ▸ hsame : _ = out.1).symm
  refine hparts.bind fun parts => .pure fun w d h => h.imp fun _ => .imp id ?_
  rintro rfl
  rfl

theorem ensures_harvestModules {good : Module → Pool → Prop}
    (hT : T.Kept announcing (turns .harvest) Φ) {modules : List (Option Module)}
    (hgood : Offers T good 0 modules) (shelf : Option PoolShelf) :
    Work.Ensures (Φ shelf) (harvestModules announcing parent modules shelf (.taking turns))
      (fun r w d => ∃ shelf, Φ shelf w d ∧ r.2 = shelf ∧
        List.Forall₂ (fun m h => good m h.pool) (modules.filterMap id) r.1)
      (fun _ w d => (∃ shelf, Φ shelf w d) ∧ T.fails) := by
  refine ensures_spanned hT fun n => ?_
  let squad : Squad (Option Harvest) :=
    { tasks := harvestTasks n 0 modules, shared := { shelf } }
  refine (Squad.ensures_finish (q := squad) hT (meets_harvestTasks modules 0 hgood) rfl).bind
    fun out => .pure fun w d h => ⟨out.2, h.1, rfl, List.rel_filterMap (fun _ _ => id) h.2⟩

theorem ensures_resolveSeeds (hT : T.Kept (fun _ => return) (turns .resolve) Φ) {e : Engine}
    {calls : List CallRef} (hfails : ∀ call ∈ calls, (∀ types, ¬ e.Resolves call types) → T.fails) :
    Work.Ensures (Φ none) (resolveSeeds e parent calls (.taking turns))
      (fun r w d => ∃ shelf, Φ shelf w d ∧ e.resolve calls = .ok r)
      (fun _ w d => (∃ shelf, Φ shelf w d) ∧ T.fails) := by
  refine ensures_spanned hT fun n => ?_
  let squad : Squad (List TypeRef × Stats) := { tasks := resolveTasks e n 0 calls }
  have houts : Work.Ensures (Φ none) ((Crew.taking turns).resolve e n calls)
      (fun outs w d => ∃ shelf, Φ shelf w d ∧ List.Forall₂ e.ResolvesTo calls outs)
      (fun _ w d => (∃ shelf, Φ shelf w d) ∧ T.fails) :=
    (Squad.ensures_finish (q := squad) hT (meets_resolveTasks calls 0 hfails) rfl).bind fun out =>
      .pure fun w d h => ⟨out.2, h⟩
  exact houts.bind fun outs => .pure fun w d h => h.imp fun _ => .imp id Engine.resolve_of_forall₂

end Squads

end Stage

end Monomorph
