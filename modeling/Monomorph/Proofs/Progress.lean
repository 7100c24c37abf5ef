import Monomorph.Proofs.Labels
import Monomorph.Proofs.Transparency
import Monomorph.Proofs.Turns

/-!
# Progress goes forward

What a run tells about a file comes from four places: the queue, the loader, and the announcements of
indexing and of harvesting. In whatever order the workers of a stage speak, each of them speaks about
its own file only (`Task.Tells`), so that what is said about a file goes on by what its worker says
(`Squad.tells_keeps`). From stage to stage the files keep to their course (`Run.sends_findTypes`),
and a board that takes in the events never takes a finished file back.
-/

namespace Monomorph

open Progress

/-! ## Workers speak about their own files -/

/-- The act tells nothing. -/
def Act.Wordless : Act → Prop
  | .tell _ | .announce _ => False
  | .check | .number .. | .enter _ | .leave .. | .point .. | .load _ | .fetch _ | .keep .. => True

/-- The task, of whose file something has been said already, tells of that file alone. When it is
done, all of `goal` has been said; when it fails, the file is somewhere on its course. -/
inductive Task.Tells {α : Type} (announcing : Nat → Work DiskM StageError Unit) (file : Text)
    (Q : α → Prop) (goal : List (Stage × Status)) : List (Stage × Status) → Task α → Prop
  | done {a : α} (ha : Q a) : Tells announcing file Q goal goal (.done a)
  | fail {said : List (Stage × Status)} {e : StageError} (h : Orderly said) :
      Tells announcing file Q goal said (.fail e)
  | tell {said : List (Stage × Status)} {p : Progress} {next : Unit → Task α} (hp : p.file = file)
      (h : Tells announcing file Q goal (said ++ [(p.stage, p.status)]) (next ())) :
      Tells announcing file Q goal said (.step (.tell p) next)
  | announce {said : List (Stage × Status)} {number : Nat} {p : Progress}
      {next : Except StageError Unit → Task α} (hp : p.file = file)
      (hvoice : announcing number = Work.notify p)
      (h : ∀ r, Tells announcing file Q goal (said ++ [(p.stage, p.status)]) (next r)) :
      Tells announcing file Q goal said (.step (.announce number) next)
  | wordless {said : List (Stage × Status)} {a : Act} {next : a.Answer → Task α} (ha : a.Wordless)
      (h : ∀ answer, Tells announcing file Q goal said (next answer)) :
      Tells announcing file Q goal said (.step a next)

section Squads

variable {α : Type} {announcing : Nat → Work DiskM StageError Unit} {w w' : Monitor}

theorem Act.Wordless.does {a : Act} (ha : a.Wordless) {answer : a.Answer}
    (h : a.Does announcing w answer w') : w'.events = w.events ∧ w'.products = w.products := by
  cases a with
  | tell p => cases ha
  | announce i => cases ha
  | number scope name parent =>
      rcases h with ⟨now, -, hw'⟩
      rw [hw']
      exact ⟨rfl, rfl⟩
  | enter s =>
      rcases h with ⟨now, rfl⟩
      exact ⟨rfl, rfl⟩
  | leave s c =>
      rcases h with ⟨now, rfl⟩
      exact ⟨rfl, rfl⟩
  | point scope name detail parent =>
      rcases h with ⟨now, rfl⟩
      exact ⟨rfl, rfl⟩
  | check => exact (show w' = w from h) ▸ ⟨rfl, rfl⟩
  | load path => exact (show w' = w from h) ▸ ⟨rfl, rfl⟩
  | fetch i => exact (show w' = w from h) ▸ ⟨rfl, rfl⟩
  | keep i name pool => exact (show w' = w from h) ▸ ⟨rfl, rfl⟩

variable {file : Text} {Q : α → Prop} {goal said : List (Stage × Status)}

/-- An act of a worker says something about its file, or nothing at all. -/
theorem Task.Tells.act {a : Act} {next : a.Answer → Task α} {answer : a.Answer}
    (h : Task.Tells announcing file Q goal said (.step a next))
    (hdoes : a.Does announcing w answer w') :
    ∃ more : List Progress, w'.events = w.events ++ more ∧ w'.products = w.products ∧
      (∀ e ∈ more, e.file = file) ∧
      Task.Tells announcing file Q goal (said ++ more.map fun e => (e.stage, e.status))
        (next answer) := by
  cases h with
  | tell hp h =>
      rw [show w' = _ from hdoes]
      exact ⟨[_], rfl, rfl, by simpa using hp, h⟩
  | announce hp hvoice h =>
      rcases hdoes with ⟨d, hexec⟩
      rw [hvoice, Work.exec_notify] at hexec
      cases hexec
      exact ⟨[_], rfl, rfl, by simpa using hp, h _⟩
  | wordless ha h =>
      rcases ha.does hdoes with ⟨hevents, hproducts⟩
      refine ⟨[], ?_, hproducts, by simp, ?_⟩
      · rw [hevents, List.append_nil]
      · rw [List.map_nil, List.append_nil]
        exact h answer

/-- Since `base`, nothing but `stages` has been said about stages, and each of the tasks tells of its
own file. -/
def Squad.Tells (announcing : Nat → Work DiskM StageError Unit) (files : List Text)
    (Q : Text → α → Prop) (goal : List (Stage × Status)) (base : List Progress)
    (stages : List (Stage × Status)) (products : Products) (tasks : List (Task α))
    (w : Monitor) : Prop :=
  ∃ (es : List Progress) (squad : List (Text × Task α)), w.events = base ++ es ∧
    w.products = products ∧ about [] es = stages ∧
    squad.map Prod.fst = files ∧ squad.map Prod.snd = tasks ∧
    ∀ p ∈ squad, p.2.Tells announcing p.1 (Q p.1) goal (about p.1 es)

theorem Squad.tells_keeps {files : List Text} {Q : Text → α → Prop} {base : List Progress}
    {stages : List (Stage × Status)} {products : Products} (hnodup : files.Nodup)
    (hnamed : [] ∉ files) :
    Squad.Keeps announcing (Squad.Tells announcing files Q goal base stages products) := by
  refine ⟨?_, ?_⟩
  · rintro pre post a next w w' answer
      ⟨es, squad, hes, hproducts, hstages, hfiles, hsquad, htells⟩ hdoes
    rcases List.map_eq_append_iff.mp hsquad with ⟨before, rest, rfl, rfl, hrest⟩
    rcases List.map_eq_cons_iff.mp hrest with ⟨⟨file, t⟩, behind, rfl, rfl, rfl⟩
    rcases (htells (file, .step a next) (by simp)).act hdoes with
      ⟨more, hmore, hsame, hfile, hnext⟩
    rw [List.map_append, List.map_cons] at hfiles
    -- The others have other files, about which this worker says nothing.
    have hother : ∀ p ∈ before ++ behind, p.1 ≠ file := by
      rintro p hp rfl
      have hmem : p.1 ∈ before.map Prod.fst ++ behind.map Prod.fst := by
        rw [← List.map_append]
        exact List.mem_map_of_mem hp
      rw [← hfiles] at hnodup
      exact (List.nodup_cons.mp (List.nodup_middle.mp hnodup)).1 hmem
    have hkept : ∀ {f}, f ≠ file → about f (es ++ more) = about f es := by
      intro f hf
      have hnone : about f more = [] := about_other fun e he => hfile e he ▸ hf.symm
      rw [about_append, hnone, List.append_nil]
    refine ⟨es ++ more, before ++ (file, next answer) :: behind, ?_, hsame.trans hproducts, ?_, ?_,
      by simp, ?_⟩
    · rw [hmore, hes, List.append_assoc]
    · rw [hkept, hstages]
      rintro rfl
      exact hnamed (hfiles ▸ by simp)
    · rw [List.map_append, List.map_cons, hfiles]
    · rw [List.forall_mem_append, List.forall_mem_cons] at htells ⊢
      rw [List.forall_mem_append] at hother
      refine ⟨fun p hp => ?_, ?_, fun p hp => ?_⟩
      · rw [hkept (hother.1 p hp)]
        exact htells.1 p hp
      · dsimp only
        rw [about_append, about_same hfile]
        exact hnext
      · rw [hkept (hother.2 p hp)]
        exact htells.2.2 p hp
  · rintro tasks w ⟨es, squad, hes, hrest⟩
    exact ⟨es, squad, hes, hrest⟩

/-- The task tells nothing. -/
def Task.Mute : Task α → Prop
  | .done _ | .fail _ => True
  | .step a next => a.Wordless ∧ ∀ answer, (next answer).Mute

theorem Task.Mute.guarded {t : Task α} (h : t.Mute) : (Task.guarded t).Mute := by
  refine ⟨trivial, fun off => ?_⟩
  show Task.Mute (if off = true then _ else _)
  split
  · trivial
  · exact h

theorem Squad.mute_keeps (events : List Progress) :
    Squad.Keeps announcing fun (tasks : List (Task α)) w =>
      w.events = events ∧ ∀ t ∈ tasks, t.Mute := by
  refine ⟨?_, fun h => h⟩
  rintro pre post a next w w' answer ⟨hevents, hmute⟩ hdoes
  rcases hmute (.step a next) (by simp) with ⟨ha, hnext⟩
  refine ⟨(ha.does hdoes).1.trans hevents, ?_⟩
  rw [List.forall_mem_append, List.forall_mem_cons] at hmute ⊢
  exact ⟨hmute.1, hnext answer, hmute.2.2⟩

end Squads

/-! ## What work tells -/

/-- What has been said about each of the files, and what about stages. -/
structure Told (files : List Text) (S : List (Stage × Status) → Prop)
    (stages : List (Stage × Status)) (es : List Progress) : Prop where
  files : ∀ file ∈ files, S (about file es)
  stages : about [] es = stages

theorem Told.imp {files : List Text} {S S' : List (Stage × Status) → Prop}
    {stages : List (Stage × Status)} {es : List Progress} (h : Told files S stages es)
    (himp : ∀ said, S said → S' said) : Told files S' stages es :=
  ⟨fun file hfile => himp _ (h.files file hfile), h.stages⟩

/-- An event without a file says something about a stage alone. -/
theorem Told.stage {files : List Text} {S : List (Stage × Status) → Prop}
    {stages : List (Stage × Status)} {es : List Progress} (h : Told files S stages es)
    (hnamed : [] ∉ files) (s : Stage) (status : Status) (error : Option Text) :
    Told files S (stages ++ [(s, status)]) (es ++ [{ stage := s, status, error }]) := by
  constructor
  · intro f hf
    have hnone : about f [{ stage := s, status, error }] = [] := by
      refine about_other fun e he => ?_
      rw [List.mem_singleton.mp he]
      rintro rfl
      exact hnamed hf
    rw [about_append, hnone, List.append_nil]
    exact h.files f hf
  · rw [about_append, h.stages]
    rfl

/-- Where `P` holds of what has been told since `base` and of the products, the work tells more, so
that `Q` holds of all that if it succeeds, and `E` if it fails. -/
def Work.Sends {ε α : Type} (base : List Progress) (P : List Progress → Products → Prop)
    (x : Work DiskM ε α) (Q : α → List Progress → Products → Prop) (E : ε → List Progress → Prop) :
    Prop :=
  ∀ w d es, w.events = base ++ es → P es w.products →
    ∃ es', (Work.exec x w d).1.2.events = base ++ es' ∧ match (Work.exec x w d).1 with
      | (.ok a, w') => Q a es' w'.products
      | (.error e, _) => E e es'

/-- The work tells nothing. -/
def Work.Mute {ε α : Type} (x : Work DiskM ε α) : Prop :=
  ∀ w d, (Work.exec x w d).1.2.events = w.events

theorem Work.Mute.bind {ε α β : Type} {x : Work DiskM ε α} {f : α → Work DiskM ε β}
    (hx : Work.Mute x) (hf : ∀ a, Work.Mute (f a)) : Work.Mute (x >>= f) := by
  intro w d
  have hx' := hx w d
  rw [Work.exec_bind]
  rcases hexec : Work.exec x w d with ⟨⟨e | a, w₁⟩, d₁⟩
  · rw [hexec] at hx'
    exact hx'
  · rw [hexec] at hx'
    exact (hf a w₁ d₁).trans hx'

theorem Work.Mute.spanned {ε α : Type} {scope : Trace.Scope} {name : Text} {parent : Nat}
    {message : ε → Text} {closing : α → Closing} {work : Nat → Work DiskM ε α}
    (h : ∀ n, Work.Mute (work n)) :
    Work.Mute (Work.spanned scope name parent message closing work) := by
  intro w d
  rcases Work.exec_spanned scope name parent message closing work w d with
    ⟨n, tracer, tracer', hexec⟩
  rw [hexec]
  exact h n { w with tracer } d

namespace Work.Sends

variable {ε δ α β : Type} {base : List Progress} {P P' : List Progress → Products → Prop}
  {x : Work DiskM ε α} {Q Q' : α → List Progress → Products → Prop}
  {E E' : ε → List Progress → Prop}

theorem imp (h : Work.Sends base P x Q E) (hP : ∀ es p, P' es p → P es p)
    (hQ : ∀ a es p, Q a es p → Q' a es p) (hE : ∀ e es, E e es → E' e es) :
    Work.Sends base P' x Q' E' := by
  intro w d es hes hpre
  rcases h w d es hes (hP es _ hpre) with ⟨es', hes', hpost⟩
  refine ⟨es', hes', ?_⟩
  rcases hexec : Work.exec x w d with ⟨⟨e | a, w'⟩, d'⟩
  · rw [hexec] at hpost
    exact hE e es' hpost
  · rw [hexec] at hpost
    exact hQ a es' _ hpost

theorem pure {a : α} (h : ∀ es p, P es p → Q a es p) :
    Work.Sends base P (pure a : Work DiskM ε α) Q E :=
  fun _ _ es hes hP => ⟨es, hes, h es _ hP⟩

theorem throw {e : ε} (h : ∀ es p, P es p → E e es) :
    Work.Sends base P (throw e : Work DiskM ε α) Q E :=
  fun _ _ es hes hP => ⟨es, hes, h es _ hP⟩

theorem bind {R : β → List Progress → Products → Prop} {y : Work DiskM ε β}
    {f : β → Work DiskM ε α} (hy : Work.Sends base P y R E)
    (hf : ∀ b, Work.Sends base (R b) (f b) Q E) : Work.Sends base P (y >>= f) Q E := by
  intro w d es hes hP
  rcases hy w d es hes hP with ⟨es₁, hes₁, hmid⟩
  rw [Work.exec_bind]
  rcases hexec : Work.exec y w d with ⟨⟨e | b, w₁⟩, d₁⟩
  · rw [hexec] at hes₁ hmid
    exact ⟨es₁, hes₁, hmid⟩
  · rw [hexec] at hes₁ hmid
    exact hf b w₁ d₁ es₁ hes₁ hmid

theorem outcome {E'' : δ → List Progress → Prop} (h : Work.Sends base P x Q E) :
    Work.Sends base P (Work.outcome x : Work DiskM δ (Except ε α)) (fun r es p => match r with
      | .ok a => Q a es p
      | .error e => E e es) E'' := by
  intro w d es hes hP
  rcases h w d es hes hP with ⟨es', hes', hpost⟩
  refine ⟨es', hes', ?_⟩
  rw [Work.exec_outcome]
  rcases hexec : Work.exec x w d with ⟨⟨e | a, w'⟩, d'⟩
  · rw [hexec] at hpost
    exact hpost
  · rw [hexec] at hpost
    exact hpost

theorem given {fact : Prop} (h : fact → Work.Sends base P x Q E) :
    Work.Sends base (fun es p => P es p ∧ fact) x Q E :=
  fun w d es hes hP => h hP.2 w d es hes hP.1

theorem notify {p : Progress} {Q : Unit → List Progress → Products → Prop}
    (h : ∀ es q, P es q → Q () (es ++ [p]) q) :
    Work.Sends base P (Work.notify p : Work DiskM ε Unit) Q E := by
  intro w d es hes hP
  refine ⟨es ++ [p], ?_, h es _ hP⟩
  rw [Work.exec_notify, hes, List.append_assoc]

theorem record {f : Products → Products} {Q : Unit → List Progress → Products → Prop}
    (h : ∀ es q, P es q → Q () es (f q)) :
    Work.Sends base P (Work.record f : Work DiskM ε Unit) Q E :=
  fun _ _ es hes hP => ⟨es, hes, h es _ hP⟩

/-- What is recorded beside what matters. -/
theorem recordAside {f : Products → Products} (h : ∀ es q, P es q → P es (f q)) :
    Work.Sends base P (Work.record f : Work DiskM ε Unit) (fun _ => P) E :=
  record h

/-- Work that goes on from the products so far. -/
theorem reading {S : List Progress → Prop} {K : Products → Prop} {f : Products → Work DiskM ε α}
    (h : ∀ p, K p → Work.Sends base (fun es q => S es ∧ K q) (f p) Q E) :
    Work.Sends base (fun es p => S es ∧ K p) (Work.products >>= f) Q E :=
  fun w d es hes hP => h w.products hP.2 w d es hes hP

/-- Work that succeeds and leaves events and products alone. -/
theorem steady (h : ∀ w d, ∃ a w' d', Work.exec x w d = ((.ok a, w'), d') ∧
      w'.events = w.events ∧ w'.products = w.products) :
    Work.Sends base P x (fun _ => P) E := by
  intro w d es hes hP
  rcases h w d with ⟨a, w', d', hexec, hevents, hproducts⟩
  rw [hexec]
  refine ⟨es, hevents.trans hes, ?_⟩
  show P es w'.products
  rw [hproducts]
  exact hP

theorem wordless {S : List Progress → Prop} (h : Work.Mute x) :
    Work.Sends base (fun es _ => S es) x (fun _ es _ => S es) (fun _ es => S es) := by
  intro w d es hes hS
  refine ⟨es, (h w d).trans hes, ?_⟩
  rcases Work.exec x w d with ⟨⟨e | a, w'⟩, d'⟩
  · exact hS
  · exact hS

theorem spanned {scope : Trace.Scope} {name : Text} {parent : Nat} {message : ε → Text}
    {closing : α → Closing} {work : Nat → Work DiskM ε α}
    (h : ∀ n, Work.Sends base P (work n) Q E) :
    Work.Sends base P (Work.spanned scope name parent message closing work) Q E := by
  intro w d es hes hP
  rcases Work.exec_spanned scope name parent message closing work w d with
    ⟨n, tracer, tracer', hexec⟩
  rcases h n { w with tracer } d es hes hP with ⟨es', hes', hpost⟩
  refine ⟨es', by rw [hexec]; exact hes', ?_⟩
  rw [hexec]
  rcases hwork : Work.exec (work n) { w with tracer } d with ⟨⟨e | a, w'⟩, d'⟩
  · rw [hwork] at hpost
    exact hpost
  · rw [hwork] at hpost
    exact hpost

end Work.Sends

/-! ## The tasks of the stages -/

section Tasks

variable {α : Type} {announcing : Nat → Work DiskM StageError Unit} {file : Text} {Q : α → Prop}
  {goal said : List (Stage × Status)}

theorem Task.Tells.said_of_done {a : α} (h : (Task.done a).Tells announcing file Q goal said) :
    said = goal ∧ Q a := by
  cases h with
  | done ha => exact ⟨rfl, ha⟩

theorem Task.Tells.orderly {t : Task α} (h : t.Tells announcing file Q goal said)
    (hgoal : Orderly goal) (ht : t.Ended) : Orderly said := by
  rcases ht with ⟨a, rfl⟩ | ⟨e, rfl⟩
  · exact h.said_of_done.1 ▸ hgoal
  · cases h with
    | fail h => exact h

theorem Task.Tells.guarded {t : Task α} (h : t.Tells announcing file Q goal said)
    (hsaid : Orderly said) : (Task.guarded t).Tells announcing file Q goal said := by
  refine .wordless trivial fun off => ?_
  show Task.Tells announcing file Q goal said (if off = true then _ else _)
  split
  · exact .fail hsaid
  · exact h

/-- To announce the module is to say that about the file. -/
def Announces (announcing : Nat → Work DiskM StageError Unit) (number : Nat) (file : Text)
    (news : Stage × Status) : Prop :=
  ∃ p : Progress, announcing number = Work.notify p ∧ p.file = file ∧ (p.stage, p.status) = news

theorem Task.Tells.announced {number : Nat} {news : Stage × Status} {a : α}
    (h : Announces announcing number file news) (hgoal : Orderly (said ++ [news])) (ha : Q a) :
    (Task.announced number a).Tells announcing file Q (said ++ [news]) said := by
  rcases h with ⟨p, hvoice, hp, rfl⟩
  refine .announce hp hvoice ?_
  rintro (e | _)
  · exact .fail hgoal
  · exact .done ha

namespace Stage

theorem tells_loadTask (parent : Nat) (path : Text) :
    (loadTask parent path).Tells announcing path (fun l => l.path = path) (course.take 2)
      (course.take 1) := by
  refine .guarded (.tell rfl (.wordless trivial ?_)) (by decide)
  rintro (e | ⟨module, bytes⟩)
  · refine .tell rfl (.fail ?_)
    show Orderly unreadable
    decide
  · exact .wordless trivial fun _ => .done rfl

variable {news : Stage × Status}

theorem tells_indexTasks (r : Registry) (e : Extractor) (parent : Nat) (hsaid : Orderly said)
    (hgoal : Orderly (said ++ [news])) : ∀ {files : List Text} {modules : List Module}
      {number first : Nat}, files.length = modules.length →
      (∀ i f, files[i]? = some f → Announces announcing (number + i) f news) →
      List.Forall₂ (fun f t => t.Tells announcing f (fun _ => True) (said ++ [news]) said) files
        (indexTasks r e parent number first modules)
  | [], [], _, _, _, _ => .nil
  | f :: files, module :: modules, number, first, hlength, h => by
      refine .cons ?_ (tells_indexTasks r e parent hsaid hgoal (Nat.succ.inj hlength) ?_)
      · refine .guarded (.wordless trivial fun s => ?_) hsaid
        refine .wordless trivial fun _ => .wordless trivial fun _ => ?_
        exact .announced (h 0 f rfl) hgoal trivial
      · intro i f hf
        rw [Nat.add_assoc, Nat.add_comm 1]
        exact h (i + 1) f hf

theorem tells_harvestTasks (parent : Nat) (hsaid : Orderly said) (hgoal : Orderly (said ++ [news])) :
    ∀ {files : List Text} {modules : List Module} {number : Nat}, files.length = modules.length →
      (∀ i f, files[i]? = some f → Announces announcing (number + i) f news) →
      List.Forall₂ (fun f t => t.Tells announcing f (fun _ => True) (said ++ [news]) said) files
        (harvestTasks parent number (modules.map some))
  | [], [], _, _, _ => .nil
  | f :: files, module :: modules, number, hlength, h => by
      refine .cons ?_ (tells_harvestTasks parent hsaid hgoal (Nat.succ.inj hlength) ?_)
      · refine .guarded (.wordless trivial fun s => ?_) hsaid
        have hclose : ∀ c (h' : Option Harvest), Task.Tells announcing f (fun _ => True)
            (said ++ [news]) said (.step (.leave s c) fun _ => .announced number h') :=
          fun _ _ => .wordless trivial fun _ => .announced (h 0 f rfl) hgoal trivial
        refine .wordless trivial fun _ => .wordless trivial ?_
        rintro (_ | pool)
        · exact .wordless trivial fun _ => hclose _ _
        · exact hclose _ _
      · intro i f hf
        rw [Nat.add_assoc, Nat.add_comm 1]
        exact h (i + 1) f hf

theorem mute_resolveTasks {e : Engine} {parent : Nat} {t : Task (List TypeRef × Stats)} :
    ∀ {calls : List CallRef} {number : Nat}, t ∈ resolveTasks e parent number calls → t.Mute
  | call :: _, number, h => by
      rcases List.mem_cons.mp h with rfl | h
      · refine Task.Mute.guarded ?_
        cases Engine.pair? call with
        | none => trivial
        | some pair =>
            refine ⟨trivial, fun s => ⟨trivial, fun _ => ?_⟩⟩
            cases e.resolveSeed pair with
            | ok out => exact ⟨trivial, fun _ => trivial⟩
            | error cause => exact ⟨trivial, fun _ => trivial⟩
      · exact mute_resolveTasks h

end Stage

end Tasks

/-! ## The stages -/

section Runs

variable {base : List Progress} {files : List Text} {stages : List (Stage × Status)}
  {P : Products → Prop}

/-- When a squad is done, its workers have said about each file all that they had to say, whatever
turns they took; when it fails, each file is somewhere on its course. -/
theorem Squad.sends_finish {α : Type} {announcing : Nat → Work DiskM StageError Unit}
    {Q : Text → α → Prop} {goal said : List (Stage × Status)} {q : Squad α} (turns : List Turn)
    (hnodup : files.Nodup) (hnamed : [] ∉ files) (hgoal : Orderly goal)
    (hq : List.Forall₂ (fun f t => t.Tells announcing f (Q f) goal said) files q.tasks) :
    Work.Sends base (fun es p => Told files (· = said) stages es ∧ P p)
      (q.finish announcing turns)
      (fun r es p => Told files (· = goal) stages es ∧ P p ∧ List.Forall₂ Q files r.1)
      (fun _ es => Told files Orderly stages es) := by
  rintro w d es hes ⟨htold, hP⟩
  rcases List.forall₂_iff_zip.mp hq with ⟨hlength, htells⟩
  have hfirst : Squad.Tells announcing files Q goal base stages w.products q.tasks w := by
    refine ⟨es, files.zip q.tasks, hes, rfl, htold.stages, List.map_fst_zip hlength.le,
      List.map_snd_zip hlength.ge, ?_⟩
    rintro ⟨f, t⟩ hp
    rw [htold.files f (List.of_mem_zip hp).1]
    exact htells hp
  rcases Squad.exec_finish (Squad.tells_keeps hnodup hnamed) turns q w d hfirst with
    ⟨ends, ⟨es', squad, hes', hproducts, hstages, rfl, rfl, hsquad⟩, hended, hok⟩
  refine ⟨es', hes', ?_⟩
  rcases hexec : Work.exec (q.finish announcing turns) w d with ⟨⟨e | r, w'⟩, d'⟩
  · -- Also of the workers that were called off, each has ended somewhere on the course of its file.
    refine ⟨fun f hf => ?_, hstages⟩
    rcases List.mem_map.mp hf with ⟨p, hp, rfl⟩
    exact (hsquad p hp).orderly hgoal (hended _ (List.mem_map_of_mem hp))
  · rw [hexec] at hproducts hok
    have hends := hok r rfl
    have hdone : ∀ p ∈ squad, ∀ a, p.2 = .done a → about p.1 es' = goal ∧ Q p.1 a := by
      intro p hp a ha
      have hp' := hsquad p hp
      rw [ha] at hp'
      exact hp'.said_of_done
    refine ⟨⟨?_, hstages⟩, hproducts ▸ hP, ?_⟩
    · intro f hf
      rcases List.mem_map.mp hf with ⟨p, hp, rfl⟩
      have hmem : p.2 ∈ r.1.map Task.done := hends ▸ List.mem_map_of_mem hp
      rcases List.mem_map.mp hmem with ⟨a, -, ha⟩
      exact (hdone p hp a ha.symm).1
    · have hresults : List.Forall₂ (fun p a => p.2 = Task.done a) squad r.1 :=
        List.forall₂_map_left_iff.mp (List.forall₂_map_right_iff.mp
          (List.forall₂_eq_eq_eq (α := Task α) ▸ hends))
      rw [List.forall₂_map_left_iff]
      exact ((List.forall₂_and_left squad r.1).mpr ⟨hdone, hresults⟩).imp
        fun p a h => (h.1 a h.2).2

theorem Squad.mute_finish {α : Type} {announcing : Nat → Work DiskM StageError Unit}
    {q : Squad α} (turns : List Turn) (hq : ∀ t ∈ q.tasks, t.Mute) :
    Work.Mute (q.finish announcing turns) := by
  intro w d
  rcases Squad.exec_finish (Squad.mute_keeps w.events) turns q w d ⟨rfl, hq⟩ with
    ⟨-, ⟨hevents, -⟩, -, -⟩
  exact hevents

/-- The modules that were loaded are those of the files. -/
def Found (files : List Text) (p : Products) : Prop := (p.loaded.getD []).map Loaded.path = files

theorem Found.length {p : Products} (h : Found files p) : files.length = p.modules.length := by
  rw [← show _ = files from h, Products.modules, List.length_map, List.length_map]

theorem Found.announces {p : Products} (h : Found files p) (s : Stage) (status : Status) (i : Nat)
    (f : Text) (hf : files[i]? = some f) :
    Announces (Run.announce (p.loaded.getD []) s status) (0 + i) f (s, status) := by
  refine ⟨_, rfl, ?_, rfl⟩
  rw [← show _ = files from h, List.getElem?_map] at hf
  rw [Nat.zero_add, hf, Option.getD_some]

namespace Run

theorem exec_announceAll {ε : Type} (s : Stage) (status : Status) (d : Disk) :
    ∀ (files : List Text) (w : Monitor), ∃ w',
      Work.exec (announceAll s status files : Work DiskM ε Unit) w d = ((.ok (), w'), d) ∧
      w'.events = w.events ++ files.map (fun file => { file, stage := s, status }) ∧
      w'.products = w.products
  | [], w => ⟨w, rfl, (List.append_nil _).symm, rfl⟩
  | file :: files, w => by
      rw [announceAll, Work.exec_bind, Work.exec_notify]
      rcases exec_announceAll (ε := ε) s status d files { w with
          events := w.events ++ [{ file, stage := s, status }],
          cancelled := w.cancelled || w.cancelsOn { file, stage := s, status } } with
        ⟨w', hexec, hevents, hproducts⟩
      refine ⟨w', hexec, ?_, hproducts⟩
      rw [hevents, List.append_assoc]
      rfl

variable (hnodup : files.Nodup) (hnamed : [] ∉ files)

include hnodup hnamed

theorem sends_announceAll {ε : Type} {E : ε → List Progress → Prop} (s : Stage) (status : Status)
    (said : List (Stage × Status)) :
    Work.Sends base (fun es p => Told files (· = said) stages es ∧ P p)
      (announceAll s status files : Work DiskM ε Unit)
      (fun _ es p => Told files (· = said ++ [(s, status)]) stages es ∧ P p) E := by
  rintro w d es hes ⟨htold, hP⟩
  rcases exec_announceAll (ε := ε) s status d files w with ⟨w', hexec, hevents, hproducts⟩
  rw [hexec]
  refine ⟨_, by rw [hevents, hes, List.append_assoc], ⟨?_, ?_⟩, hproducts ▸ hP⟩
  · intro f hf
    rw [about_append, htold.files f hf, about_each s status hnodup hf]
  · have hnone : about [] (files.map fun file => { file, stage := s, status }) = [] := by
      refine about_other fun e he => ?_
      rcases List.mem_map.mp he with ⟨f, hf, rfl⟩
      rintro rfl
      exact hnamed hf
    rw [about_append, htold.stages, hnone, List.append_nil]

variable (turns : Stage → List Turn) (span : Nat)

theorem sends_load {req : Request} (hreq : req.paths = files) :
    Work.Sends base (fun es p => Told files (· = course.take 1) stages es ∧ P p)
      (load span req (.taking turns) : Work DiskM StageError Text)
      (fun _ es p => Told files (· = course.take 3) stages es ∧ Found files p)
      (fun _ es => Told files Orderly stages es) := by
  subst hreq
  have hgoal : Orderly (course.take 2) := by decide
  have hcrew : ∀ n, Work.Sends base
      (fun es p => Told req.paths (· = course.take 1) stages es ∧ P p)
      ((Crew.taking turns : Crew DiskM).load n req.paths)
      (fun loaded es _ => Told req.paths (· = course.take 2) stages es ∧
        loaded.map Loaded.path = req.paths)
      (fun _ es => Told req.paths Orderly stages es) := by
    intro n
    refine (Squad.sends_finish (Q := fun f l => l.path = f) (turns .load) hnodup hnamed hgoal
      ?_).bind fun r => .pure ?_
    · exact List.forall₂_map_right_iff.mpr
        (List.forall₂_same.mpr fun f _ => Stage.tells_loadTask n f)
    · rintro es p ⟨htold, -, hpaths⟩
      refine ⟨htold, ?_⟩
      have hsame : List.Forall₂ (· = ·) (r.1.map Loaded.path) req.paths :=
        (List.forall₂_map_right_iff.mpr hpaths).flip
      exact List.forall₂_eq_eq_eq ▸ hsame
  -- The modules come in the order of the files, so announcing them all announces each file once.
  refine (Work.Sends.spanned hcrew).bind fun loaded => .given fun hloaded => ?_
  refine Work.Sends.bind (R := fun _ es p => Told req.paths (· = course.take 2) stages es ∧
    Found req.paths p) (.record fun es p htold => ⟨htold, hloaded⟩) fun _ => ?_
  rw [hloaded]
  exact (sends_announceAll hnodup hnamed .index .working (course.take 2)).bind fun _ =>
    .pure fun _ _ h => h

theorem sends_index :
    Work.Sends base (fun es p => Told files (· = course.take 3) stages es ∧ Found files p)
      (index span (.taking turns) : Work DiskM StageError Text)
      (fun _ es p => Told files (· = course.take 4) stages es ∧ Found files p)
      (fun _ es => Told files Orderly stages es) := by
  have hsaid : Orderly (course.take 3) := by decide
  have hgoal : Orderly (course.take 4) := by decide
  refine Work.Sends.reading fun p hp => ?_
  have hcrew : ∀ n, Work.Sends base
      (fun es p => Told files (· = course.take 3) stages es ∧ Found files p)
      ((Crew.taking turns : Crew DiskM).index (announce (p.loaded.getD []) .harvest .working)
        p.registry .genericOnly n p.modules)
      (fun _ es p => Told files (· = course.take 4) stages es ∧ Found files p)
      (fun _ es => Told files Orderly stages es) := by
    intro n
    refine (Squad.sends_finish (Q := fun _ _ => True) (turns .index) hnodup hnamed hgoal
      ?_).bind fun r => .pure ?_
    · exact Stage.tells_indexTasks _ _ n hsaid hgoal hp.length (hp.announces .harvest .working)
    · exact fun es q h => ⟨h.1, h.2.1⟩
  refine Work.Sends.bind (R := fun _ es p => Told files (· = course.take 4) stages es ∧
    Found files p) (.spanned fun n => ?_) fun x => ?_
  · exact (hcrew n).bind fun _ => .pure fun _ _ h => h
  · exact Work.Sends.bind (.recordAside fun _ _ h => h) fun _ => .pure fun _ _ h => h

theorem sends_harvest (req : Request) :
    Work.Sends base (fun es p => Told files (· = course.take 4) stages es ∧ Found files p)
      (harvest span req (.taking turns) : Work DiskM StageError Text)
      (fun _ es _ => Told files (· = course) stages es ∧ True)
      (fun _ es => Told files Orderly stages es) := by
  have hsaid : Orderly (course.take 4) := by decide
  have hgoal : Orderly course := by decide
  refine Work.Sends.reading fun p hp => ?_
  have hcrew : ∀ n shelf, Work.Sends base
      (fun es p => Told files (· = course.take 4) stages es ∧ Found files p)
      ((Crew.taking turns : Crew DiskM).harvest (announce (p.loaded.getD []) .harvest .done) n
        (p.modules.map some) shelf)
      (fun _ es _ => Told files (· = course) stages es ∧ True)
      (fun _ es => Told files Orderly stages es) := by
    intro n shelf
    refine (Squad.sends_finish (Q := fun _ _ => True) (turns .harvest) hnodup hnamed hgoal
      ?_).bind fun r => .pure ?_
    · exact Stage.tells_harvestTasks n hsaid hgoal hp.length (hp.announces .harvest .done)
    · exact fun es q h => ⟨h.1, trivial⟩
  refine (Work.Sends.spanned fun n => hcrew n _).bind ?_
  rintro ⟨harvests, _ | shelf⟩
  · exact Work.Sends.bind (.recordAside fun _ _ h => h) fun _ => .pure fun _ _ h => h
  · refine Work.Sends.bind (.recordAside fun _ _ h => h) fun _ => ?_
    exact Work.Sends.bind (.recordAside fun _ _ h => h) fun _ => .pure fun _ _ h => h

omit hnodup hnamed

theorem mute_resolve (req : Request) :
    Work.Mute (resolve span req (.taking turns) : Work DiskM StageError Text) := by
  have hcrew : ∀ e n calls, Work.Mute ((Crew.taking turns : Crew DiskM).resolve e n calls) := by
    intro e n calls
    exact (Squad.mute_finish _ fun _ => Stage.mute_resolveTasks).bind fun _ _ _ => rfl
  refine Work.Mute.bind (fun _ _ => rfl) fun p => Work.Mute.bind (fun _ _ => rfl) fun _ => ?_
  refine (Work.Mute.spanned fun n => (hcrew _ n _).bind fun _ _ _ => rfl).bind fun r => ?_
  exact fun _ _ => rfl

theorem mute_emit (req : Request) : Work.Mute (emit req : Work DiskM StageError Text) := by
  refine Work.Mute.bind (fun _ _ => rfl) fun p => Work.Mute.bind (fun _ _ => rfl) fun m => ?_
  exact fun _ _ => rfl

theorem mute_report (home : Text) (start : Instant) (req : Request) :
    Work.Mute (report home start req : Work DiskM StageError Text) := by
  refine Work.Mute.bind (fun _ _ => rfl) fun p => Work.Mute.bind (fun _ _ => rfl) fun now => ?_
  exact Work.Mute.bind (fun _ _ => rfl) fun path _ _ => rfl

/-- What is said about stages that all succeed. -/
def passed (ss : List Stage) : List (Stage × Status) :=
  ss.flatMap fun s => [(s, .working), (s, .done)]

theorem passed_snoc (ss : List Stage) (s : Stage) :
    passed (ss ++ [s]) = passed ss ++ [(s, .working)] ++ [(s, .done)] := by
  simp [passed]

/-- The run failed in a stage: that is the last thing that was told, and the stages before it
succeeded. -/
def Failed (files : List Text) (e : RunError) (es : List Progress) : Prop :=
  ∃ ss s cause, e = .stage s cause ∧ ss ++ [s] <+: Stage.all ∧
    Told files Orderly (passed ss ++ [(s, .working), (s, .error)]) es ∧
    ∃ p, es.getLast? = some p ∧ p.file = []

theorem sends_stage {s : Stage} {ss : List Stage} (hss : ss ++ [s] <+: Stage.all)
    (hnamed : [] ∉ files) {work : Work DiskM StageError Text}
    {S S' : List (Stage × Status) → Prop} {P' : Products → Prop}
    (h : ∀ stages, Work.Sends base (fun es p => Told files S stages es ∧ P p) work
      (fun _ es p => Told files S' stages es ∧ P' p)
      (fun _ es => Told files Orderly stages es)) :
    Work.Sends base (fun es p => Told files S (passed ss) es ∧ P p) (stage s work)
      (fun _ es p => Told files S' (passed (ss ++ [s])) es ∧ P' p) (Failed files) := by
  refine Work.Sends.bind (.steady fun _ _ => ⟨_, _, _, rfl, rfl, rfl⟩) fun start => ?_
  refine Work.Sends.bind (.steady fun _ _ => ⟨_, _, _, rfl, rfl, rfl⟩) fun w => ?_
  refine Work.Sends.bind (.steady fun _ _ => ⟨_, _, _, rfl, rfl, rfl⟩) fun _ => ?_
  refine Work.Sends.bind (R := fun _ es p => Told files S (passed ss ++ [(s, .working)]) es ∧ P p)
    (.notify fun es p h => ⟨h.1.stage hnamed s .working none, h.2⟩) fun _ => ?_
  refine Work.Sends.bind (h _).outcome fun result => ?_
  refine Work.Sends.bind (.steady fun _ _ => ⟨_, _, _, rfl, rfl, rfl⟩) fun stop => ?_
  have hclose : ∀ number nanos note {K : List Progress → Products → Prop},
      Work.Sends base K (closeStage s number nanos note : Work DiskM RunError Unit) (fun _ => K)
        (Failed files) :=
    fun _ _ _ => .steady fun _ _ => ⟨_, _, _, rfl, rfl, rfl⟩
  cases result with
  | ok note =>
      refine Work.Sends.bind (hclose _ _ _) fun _ => .notify fun es p h => ⟨?_, h.2⟩
      rw [passed_snoc]
      exact h.1.stage hnamed s .done none
  | error e =>
      refine Work.Sends.bind (hclose _ _ _) fun _ => ?_
      refine Work.Sends.bind (R := fun _ es _ => Failed files (.stage s e) es)
        (.notify fun es p h => ⟨ss, s, e, rfl, hss, ?_, _, List.getLast?_concat, rfl⟩)
        fun _ => .throw fun _ _ h => h
      have htold := h.stage hnamed s .error (some e.message)
      rw [List.append_assoc] at htold
      exact htold

theorem sends_of_mute {work : Work DiskM StageError Text} (h : Work.Mute work) :
    Work.Sends base (fun es _ => Told files (· = course) stages es ∧ True) work
      (fun _ es _ => Told files (· = course) stages es ∧ True)
      (fun _ es => Told files Orderly stages es) := by
  have hcourse : Orderly course := by decide
  refine (Work.Sends.wordless h).imp (fun _ _ h => h) (fun _ _ _ h => h) fun _ _ h => ?_
  exact h.1.imp fun said hsaid => hsaid ▸ hcourse

/-- The stages of a request. -/
def plan (req : Request) : List Stage :=
  if req.dryRun then Stage.all.take 4 else if req.reportDir = [] then Stage.all.take 5 else Stage.all

theorem plan_initial (req : Request) : plan req <+: Stage.all := by
  unfold plan
  split
  · exact List.take_prefix ..
  · split
    · exact List.take_prefix ..
    · exact List.prefix_rfl

theorem sends_findTypes {req : Request} (hnodup : req.paths.Nodup) (hnamed : [] ∉ req.paths) :
    Work.Sends base (fun es _ => es = []) (findTypes req span (.taking turns))
      (fun _ es _ => Told req.paths (· = course) (passed (Stage.all.take 4)) es ∧ True)
      (Failed req.paths) := by
  have hqueue : Work.Sends base (fun es _ => es = []) (announceAll .load .queued req.paths)
      (fun _ es _ => Told req.paths (· = course.take 1) (passed []) es ∧ True)
      (Failed req.paths) := by
    refine (sends_announceAll (P := fun _ => True) hnodup hnamed .load .queued []).imp ?_
      (fun _ _ _ h => h) fun _ _ h => h
    rintro es p rfl
    exact ⟨⟨fun _ _ => rfl, rfl⟩, trivial⟩
  refine Work.Sends.bind hqueue fun _ => ?_
  refine Work.Sends.bind (sends_stage (by decide) hnamed fun _ =>
    sends_load hnodup hnamed turns span rfl) fun _ => ?_
  refine Work.Sends.bind (sends_stage (by decide) hnamed fun _ =>
    sends_index hnodup hnamed turns span) fun _ => ?_
  refine Work.Sends.bind (sends_stage (by decide) hnamed fun _ =>
    sends_harvest hnodup hnamed turns span req) fun _ => ?_
  exact sends_stage (by decide) hnamed fun _ => sends_of_mute (mute_resolve turns span req)

theorem sends_writeTypes (home : Text) (start : Instant) {req : Request}
    (hnamed : [] ∉ req.paths) (hwet : req.dryRun = false) :
    Work.Sends base
      (fun es _ => Told req.paths (· = course) (passed (Stage.all.take 4)) es ∧ True)
      (writeTypes home start req : Work DiskM RunError Unit)
      (fun _ es _ => Told req.paths (· = course) (passed (plan req)) es ∧ True)
      (Failed req.paths) := by
  refine Work.Sends.bind (sends_stage (by decide) hnamed fun _ =>
    sends_of_mute (mute_emit req)) fun _ => ?_
  have hplan : plan req = if req.reportDir = [] then Stage.all.take 5 else Stage.all := by
    rw [plan, hwet]
    rfl
  rw [hplan]
  by_cases hreport : req.reportDir = []
  · rw [if_pos hreport, if_pos hreport]
    exact .pure fun _ _ h => h
  · rw [if_neg hreport, if_neg hreport]
    have hlast : Stage.all.take 5 ++ [.report] <+: Stage.all := by decide
    exact sends_stage hlast hnamed fun _ => sends_of_mute (mute_report home start req)

theorem sends_stages (home : Text) (start : Instant) {req : Request} (hnodup : req.paths.Nodup)
    (hnamed : [] ∉ req.paths) :
    Work.Sends base (fun es _ => es = [])
      (Run.stages home start req span (.taking turns) : Work DiskM RunError Nat)
      (fun _ es _ => Told req.paths (· = course) (passed (plan req)) es) (Failed req.paths) := by
  refine (sends_findTypes turns span hnodup hnamed).bind fun _ => ?_
  have hcount : ∀ {K : List Progress → Prop}, Work.Sends base (fun es _ => K es)
      (do return (← Work.products).resolution.types.length : Work DiskM RunError Nat)
      (fun _ es _ => K es) (Failed req.paths) :=
    fun w d es hes hK => ⟨es, hes, hK⟩
  cases hdry : req.dryRun with
  | true =>
      refine hcount.imp (fun es _ h => ?_) (fun _ _ _ h => h) fun _ _ h => h
      rw [plan, if_pos hdry]
      exact h.1
  | false =>
      refine (sends_writeTypes home start hnamed hdry).bind fun _ => ?_
      exact hcount.imp (fun es _ h => h.1) (fun _ _ _ h => h) fun _ _ h => h

/-- What a run has told when it ends so: all stages of its plan, each of which it worked on and then
did, or those before the one that failed; nothing if it was refused. -/
def Reported (req : Request) (es : List Progress) : Except RunError Unit → Prop
  | .ok _ => (∀ file ∈ req.paths, about file es = course) ∧
      plan req <+: Stage.all ∧ about [] es = passed (plan req)
  | .error (.stage s _) => ∃ ss, ss ++ [s] <+: Stage.all ∧
      about [] es = passed ss ++ [(s, .working), (s, .error)] ∧
      ∃ p, es.getLast? = some p ∧ p.file = []
  | .error _ => es = []

/-- A request is refused before any stage, so not with the failure of one. -/
theorem reported_refused {req : Request} {e : RunError} (h : refusal? req = some e) :
    Reported req [] (.error e) := by
  unfold refusal? at h
  split at h
  · cases h
    rfl
  · split at h
    · cases h
      rfl
    · cases h

theorem sends_run (home : Text) {req : Request} (h : refusal? req = none)
    (hnodup : req.paths.Nodup) (hnamed : [] ∉ req.paths) :
    Work.Sends base (fun es _ => es = [])
      (run home (some req) (.taking turns) : Work DiskM RunError Unit)
      (fun _ es _ => Told req.paths (· = course) (passed (plan req)) es) (Failed req.paths) := by
  unfold run
  dsimp only
  rw [h]
  dsimp only
  refine Work.Sends.bind (.steady fun _ _ => ⟨_, _, _, rfl, rfl, rfl⟩) fun start => ?_
  refine Work.Sends.bind (Work.Sends.spanned fun span =>
    sends_stages turns span home start hnodup hnamed).outcome fun result => ?_
  refine Work.Sends.bind (.steady fun _ _ => ⟨_, _, _, rfl, rfl, rfl⟩) fun stop => ?_
  cases result with
  | ok n => exact Work.Sends.bind (.recordAside fun _ _ h => h) fun _ => .pure fun _ _ h => h
  | error e => exact Work.Sends.bind (.recordAside fun _ _ h => h) fun _ => .throw fun _ _ h => h

/-- What a run tells keeps every file to its course. -/
theorem exec_run_events (home : Text) {req : Request} (hnodup : req.paths.Nodup)
    (hnamed : [] ∉ req.paths) (w : Monitor) (d : Disk) :
    ∃ es, (Work.exec (run home (some req) (.taking turns)) w d).1.2.events = w.events ++ es ∧
      (∀ file ∈ req.paths, Orderly (about file es)) ∧
      Reported req es (Work.exec (run home (some req) (.taking turns)) w d).1.1 := by
  have hnothing : Orderly [] := by decide
  have hcourse : Orderly course := by decide
  cases hrefusal : refusal? req with
  | some e =>
      rw [exec_run_refused home hrefusal]
      exact ⟨[], (List.append_nil _).symm, fun _ _ => hnothing, reported_refused hrefusal⟩
  | none =>
      rcases sends_run turns home hrefusal hnodup hnamed w d [] (List.append_nil _).symm rfl with
        ⟨es, hes, hpost⟩
      refine ⟨es, hes, ?_⟩
      rcases hexec : Work.exec (run home (some req) (.taking turns)) w d with ⟨⟨e | u, w'⟩, d'⟩
      · rw [hexec] at hpost
        rcases hpost with ⟨ss, s, cause, rfl, hss, htold, hlast⟩
        exact ⟨htold.files, ss, hss, htold.stages, hlast⟩
      · rw [hexec] at hpost
        exact ⟨fun f hf => (hpost.files f hf) ▸ hcourse, hpost.files, plan_initial req, hpost.stages⟩

/-- **Progress goes forward.** Where the files of a request are told apart, a board for them that
takes in what a run tells, in whatever turns its workers tell it and however it ends, never counts
fewer finished files than before. After a run that succeeds it shows every file as done. What is told
about the stages themselves is that they are worked on and done, in order; a stage that fails is the
last that is told of, and nothing is told after it. -/
theorem progress_forward (home : Text) (req : Request) (hnodup : req.paths.Nodup)
    (hnamed : [] ∉ req.paths) (w : Monitor) (d : Disk) :
    ∃ es, (Work.exec (run home (some req) (.taking turns)) w d).1.2.events = w.events ++ es ∧
      (∀ title, ((Board.start title req.paths :: (Board.start title req.paths).replay es).map
        Board.finished).IsChain (· ≤ ·)) ∧
      ((Work.exec (run home (some req) (.taking turns)) w d).1.1 = .ok () → ∀ title,
        (es.foldl Board.apply (.start title req.paths)).finished = req.paths.length ∧
        (es.foldl Board.apply (.start title req.paths)).labels
          = req.paths.map fun file => (file, .done)) ∧
      Reported req es (Work.exec (run home (some req) (.taking turns)) w d).1.1 := by
  rcases exec_run_events turns home hnodup hnamed w d with ⟨es, hes, horderly, hreported⟩
  refine ⟨es, hes, ?_, ?_, hreported⟩
  · exact fun title => Board.finished_forward title hnodup hnamed horderly
  · intro hok title
    rw [hok] at hreported
    exact Board.done_foldl title hnodup hnamed hreported.1

end Run

end Runs

open Sample in
/-- The second file is indexed before the first; at the end both are done. -/
theorem Run.progress_forward_overtaking :
    twice.paths.Nodup ∧ [] ∉ twice.paths ∧
      let events := (Work.exec (run "" (some twice) (.taking overtaking)) {} stocked).1.2.events
      (events.filter fun e => e.stage = .harvest ∧ e.status = .working).map Progress.file
          = [("m2" : Text), ("m1" : Text), []] ∧
        ∀ title, (events.foldl Board.apply (.start title twice.paths)).labels
          = [(("m1" : Text), .done), (("m2" : Text), .done)] := by
  have hnodup : twice.paths.Nodup := by decide
  have hnamed : [] ∉ twice.paths := by decide
  have hrun : let o := (Work.exec (run "" (some twice) (.taking overtaking)) {} stocked).1
      o.1.toBool = true ∧ (o.2.events.filter fun e =>
        e.stage = .harvest ∧ e.status = .working).map Progress.file
          = [("m2" : Text), ("m1" : Text), []] := by
    decide +kernel
  rcases hrun with ⟨hok, horder⟩
  refine ⟨hnodup, hnamed, horder, fun title => ?_⟩
  rcases progress_forward overtaking "" twice hnodup hnamed {} stocked with ⟨es, hes, -, hdone, -⟩
  rw [hes, List.nil_append]
  cases hresult : (Work.exec (run "" (some twice) (.taking overtaking)) {} stocked).1.1 with
  | error e =>
      rw [hresult] at hok
      cases hok
  | ok _ => exact (hdone hresult title).2

end Monomorph
