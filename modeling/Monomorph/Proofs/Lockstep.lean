import Monomorph.Proofs.Cached
import Monomorph.Run.Basic

/-!
# Runs side by side

`Lockstep` relates two pieces of work: from monitors that agree and disks that are related they come
to the same outcome, and leave monitors that agree and disks that are related. Monitors agree when
they differ at most in their traces, in their timings and in what they count of a cache, so a run
that is cancelled by one of its events is cancelled at the same point in both.

The main statement is `Run.lockstep_findTypes`: without a cache and with a trusted one, a run finds
the same.
-/

namespace Monomorph

variable {ε δ α β α' β' : Type}

/-! ## Outcomes and agreement -/

/-- What work does to a monitor and a disk. -/
def Work.exec (x : Work DiskM ε α) (w : Monitor) (d : Disk) : (Except ε α × Monitor) × Disk :=
  (x.run.run w).run d

theorem Work.exec_bind (x : Work DiskM ε α) (f : α → Work DiskM ε β) (w : Monitor) (d : Disk) :
    exec (x >>= f) w d = match exec x w d with
      | ((.ok a, w'), d') => exec (f a) w' d'
      | ((.error e, w'), d') => ((.error e, w'), d') := by
  unfold exec
  rw [ExceptT.run_bind, StateT.run_bind, StateT.run_bind]
  rcases ((x.run.run w).run d : (Except ε α × Monitor) × Disk) with ⟨⟨r, w'⟩, d'⟩
  cases r <;> rfl

theorem Work.exec_outcome (x : Work DiskM ε α) (w : Monitor) (d : Disk) :
    exec (outcome x : Work DiskM δ (Except ε α)) w d
      = ((.ok (exec x w d).1.1, (exec x w d).1.2), (exec x w d).2) := rfl

/-- Two outcomes: the same failure, or success with related values. -/
inductive Paired (V : α → β → Prop) : Except ε α → Except ε β → Prop
  | ok {a : α} {b : β} (h : V a b) : Paired V (.ok a) (.ok b)
  | error (e : ε) : Paired V (.error e) (.error e)

/-- A module that was loaded from an involved file and goes under the digest of that file. -/
def Loaded.Genuine (involved : Set (List UInt8)) (l : Loaded) : Prop :=
  ∃ file ∈ involved, Module.decode file = .ok l.module ∧ Digest.sum file = l.digest

/-- Products of genuine modules that differ at most in what they count of a cache. -/
structure Products.Agree (involved : Set (List UInt8)) (p p' : Products) : Prop where
  alike : ∃ hits misses, p' = { p with hits, misses }
  genuine : ∀ l ∈ p.loaded.getD [], l.Genuine involved

/-- Monitors whose products agree and that saw the same events. -/
structure Monitor.Agree (involved : Set (List UInt8)) (w w' : Monitor) : Prop where
  products : w.products.Agree involved w'.products
  events : w'.events = w.events
  cancelled : w'.cancelled = w.cancelled
  cancelsOn : w'.cancelsOn = w.cancelsOn

/-- Disks in the same surroundings; the tree of the second satisfies `P`. -/
structure Disk.Beside (env : Surroundings) (P : FileTree → Prop) (d d' : Disk) : Prop where
  left : d.toSurroundings = env
  right : d'.toSurroundings = env
  tree : P d'.tree

/-- Two pieces of work that take related disks, under monitors that agree, from `D` to `D'` with
paired outcomes. -/
def Lockstep (involved : Set (List UInt8)) (D D' : Disk → Disk → Prop) (x : Work DiskM ε α)
    (y : Work DiskM ε β) (V : α → β → Prop) : Prop :=
  ∀ w w' d d', Monitor.Agree involved w w' → D d d' →
    Paired V (Work.exec x w d).1.1 (Work.exec y w' d').1.1 ∧
      Monitor.Agree involved (Work.exec x w d).1.2 (Work.exec y w' d').1.2 ∧
      D' (Work.exec x w d).2 (Work.exec y w' d').2

namespace Lockstep

variable {involved : Set (List UInt8)} {D D' D'' : Disk → Disk → Prop} {V : α → β → Prop}
  {U : α' → β' → Prop} {x : Work DiskM ε α} {y : Work DiskM ε β}

/-! ## Rules -/

theorem pure {a : α} {b : β} (h : V a b) :
    Lockstep involved D D (pure a : Work DiskM ε α) (pure b : Work DiskM ε β) V :=
  fun _ _ _ _ hw hd => ⟨.ok h, hw, hd⟩

theorem throw (e : ε) :
    Lockstep involved D D (throw e : Work DiskM ε α) (throw e : Work DiskM ε β) V :=
  fun _ _ _ _ hw hd => ⟨.error e, hw, hd⟩

theorem weaken (h : Lockstep involved D' D'' x y V) (hD : ∀ d d', D d d' → D' d d') :
    Lockstep involved D D'' x y V :=
  fun w w' d d' hw hd => h w w' d d' hw (hD d d' hd)

/-- What the disks show may be used. -/
theorem knowing {p : Prop} (hp : ∀ d d', D d d' → p) (h : p → Lockstep involved D D' x y V) :
    Lockstep involved D D' x y V :=
  fun w w' d d' hw hd => h (hp d d' hd) w w' d d' hw hd

/-- One after the other, where the second may end with less than it starts with. -/
theorem andThen {f : α → Work DiskM ε α'} {g : β → Work DiskM ε β'}
    (h : Lockstep involved D D' x y V) (hle : ∀ d d', D' d d' → D'' d d')
    (hfg : ∀ a b, V a b → Lockstep involved D' D'' (f a) (g b) U) :
    Lockstep involved D D'' (x >>= f) (y >>= g) U := by
  intro w w' d d' hw hd
  obtain ⟨hout, hmonitors, hdisks⟩ := h w w' d d' hw hd
  rw [Work.exec_bind, Work.exec_bind]
  rcases hx : Work.exec x w d with ⟨⟨r, w₁⟩, d₁⟩
  rcases hy : Work.exec y w' d' with ⟨⟨r', w₁'⟩, d₁'⟩
  rw [hx, hy] at hout hmonitors hdisks
  cases hout with
  | ok hab => exact hfg _ _ hab w₁ w₁' d₁ d₁' hmonitors hdisks
  | error e => exact ⟨.error e, hmonitors, hle _ _ hdisks⟩

theorem bind {f : α → Work DiskM ε α'} {g : β → Work DiskM ε β'}
    (h : Lockstep involved D D' x y V)
    (hfg : ∀ a b, V a b → Lockstep involved D' D' (f a) (g b) U) :
    Lockstep involved D D' (x >>= f) (y >>= g) U :=
  h.andThen (fun _ _ => id) hfg

/-- Work that only the second run does. -/
theorem beside {env : Surroundings} {P : FileTree → Prop} {Q : α' → FileTree → Prop}
    {E : ε → FileTree → Prop} {y : DiskM α'} {k : α' → Work DiskM ε β}
    (h : Disk.Leaves env P (ExceptT.lift y : ExceptT ε DiskM α') Q E)
    (hk : ∀ a, Lockstep involved (Disk.Beside env (Q a)) D x (k a) V) :
    Lockstep involved (Disk.Beside env P) D x (Work.sure y >>= k) V := by
  intro w w' d d' hw hd
  have hexec : Work.exec (Work.sure y >>= k) w' d'
      = Work.exec (k (y.run d').1) w' (y.run d').2 := rfl
  obtain ⟨henv, hout⟩ := h d' hd.right hd.tree
  rw [hexec]
  exact hk _ w w' d _ hw ⟨hd.left, henv, hout⟩

theorem outcome (h : Lockstep involved D D' x y V) :
    Lockstep involved D D' (Work.outcome x : Work DiskM δ (Except ε α))
      (Work.outcome y : Work DiskM δ (Except ε β)) (Paired V) := by
  intro w w' d d' hw hd
  obtain ⟨hout, hrest⟩ := h w w' d d' hw hd
  exact ⟨.ok hout, hrest⟩

/-- Changes of the monitor that keep the agreement. -/
theorem change {f g : Monitor → Monitor}
    (h : ∀ w w', w.Agree involved w' → (f w).Agree involved (g w')) :
    Lockstep involved D D (modify f : Work DiskM ε Unit) (modify g : Work DiskM ε Unit)
      (fun _ _ => True) :=
  fun w w' _ _ hw hd => ⟨.ok trivial, h w w' hw, hd⟩

theorem notify (p : Progress) :
    Lockstep involved D D (Work.notify p : Work DiskM ε Unit) (Work.notify p)
      (fun _ _ => True) := by
  refine change ?_
  rintro w w' ⟨hproducts, hevents, hcancelled, hcancelsOn⟩
  refine ⟨hproducts, ?_, ?_, hcancelsOn⟩
  · simp only [hevents]
  · simp only [hcancelled, hcancelsOn]

theorem record {f g : Products → Products}
    (h : ∀ p p', p.Agree involved p' → (f p).Agree involved (g p')) :
    Lockstep involved D D (Work.record f : Work DiskM ε Unit) (Work.record g) (fun _ _ => True) :=
  change fun _ _ hw => ⟨h _ _ hw.products, hw.events, hw.cancelled, hw.cancelsOn⟩

theorem products :
    Lockstep involved D D (Work.products : Work DiskM ε Products) Work.products
      (Products.Agree involved) :=
  fun _ _ _ _ hw hd => ⟨.ok hw.products, hw, hd⟩

theorem now :
    Lockstep involved D D (Work.now : Work DiskM ε Instant) Work.now (fun _ _ => True) :=
  fun _ _ _ _ hw hd => ⟨.ok trivial, hw, hd⟩

/-- Traces are not compared. -/
theorem trace (f : Trace.Tracer → Trace.Tracer × α) (g : Trace.Tracer → Trace.Tracer × β) :
    Lockstep involved D D (Work.trace f : Work DiskM ε α) (Work.trace g) (fun _ _ => True) :=
  fun _ _ _ _ hw hd =>
    ⟨.ok trivial, ⟨hw.products, hw.events, hw.cancelled, hw.cancelsOn⟩, hd⟩

theorem spanned {scope scope' : Trace.Scope} {name name' : Text} {parent parent' : Nat}
    {message message' : ε → Text} {closing : α → Closing} {closing' : β → Closing}
    {work : Nat → Work DiskM ε α} {work' : Nat → Work DiskM ε β}
    (h : ∀ n n', Lockstep involved D D (work n) (work' n') V) :
    Lockstep involved D D (Work.spanned scope name parent message closing work)
      (Work.spanned scope' name' parent' message' closing' work') V := by
  refine (trace _ _).bind fun span span' _ => ?_
  refine (h span.id span'.id).outcome.bind fun r r' hr => ?_
  cases hr with
  | ok hab => exact (trace _ _).bind fun _ _ _ => .pure hab
  | error e => exact (trace _ _).bind fun _ _ _ => .throw e

theorem proceed :
    Lockstep involved D D (Stage.proceed : Work DiskM StageError Unit) Stage.proceed
      (fun _ _ => True) := by
  have hexec : ∀ w d, Work.exec (Stage.proceed : Work DiskM StageError Unit) w d
      = ((if w.cancelled then .error .cancelled else .ok (), w), d) := by
    intro w d
    unfold Stage.proceed
    rw [Work.exec_bind]
    show Work.exec (if w.cancelled = true then _ else _) w d = _
    split <;> rfl
  intro w w' d d' hw hd
  rw [hexec, hexec, hw.cancelled]
  refine ⟨?_, hw, hd⟩
  dsimp only
  split
  · exact .error _
  · exact .ok trivial

theorem stage (s : Stage) {work work' : Work DiskM StageError Text}
    (h : Lockstep involved D D work work' (fun _ _ => True)) :
    Lockstep involved D D (Run.stage s work) (Run.stage s work') (fun _ _ => True) := by
  have hbegin : Lockstep involved D D
      (modify fun w => { w with timer := w.timer.begin s.name } : Work DiskM RunError Unit)
      (modify fun w => { w with timer := w.timer.begin s.name }) (fun _ _ => True) :=
    change fun _ _ hw => ⟨hw.products, hw.events, hw.cancelled, hw.cancelsOn⟩
  have hclose : ∀ number number' nanos nanos' note note',
      Lockstep involved D D (Run.closeStage s number nanos note : Work DiskM RunError Unit)
        (Run.closeStage s number' nanos' note') (fun _ _ => True) := fun _ _ _ _ _ _ =>
    change fun _ _ hw => ⟨hw.products, hw.events, hw.cancelled, hw.cancelsOn⟩
  have hget : Lockstep involved D D (get : Work DiskM RunError Monitor) get (fun _ _ => True) :=
    fun _ _ _ _ hw hd => ⟨.ok trivial, hw, hd⟩
  refine now.bind fun start start' _ => ?_
  refine hget.bind fun w w' _ => ?_
  refine hbegin.bind fun _ _ _ => ?_
  refine (notify _).bind fun _ _ _ => ?_
  refine h.outcome.bind fun r r' hr => ?_
  refine now.bind fun stop stop' _ => ?_
  cases hr with
  | ok _ => exact (hclose _ _ _ _ _ _).bind fun _ _ _ => notify _
  | error e =>
      refine (hclose _ _ _ _ _ _).bind fun _ _ _ => ?_
      exact (notify _).bind fun _ _ _ => .throw _

end Lockstep

/-! ## Loading and indexing -/

/-- One disk in both runs, whose files have not changed. -/
def Disk.Same (env : Surroundings) (t : FileTree) (d d' : Disk) : Prop :=
  d' = d ∧ d.toSurroundings = env ∧ d.tree = t

/-- Every file that stands at one of the paths is one of those involved. -/
def FileTree.Offers (involved : Set (List UInt8)) (cwd : Place) (paths : List Text) (t : FileTree) :
    Prop :=
  ∀ path ∈ paths, ∀ bytes, t.get? (Path.place cwd path) = some (.file bytes) → bytes ∈ involved

theorem Module.leaves_load {env : Surroundings} {P : FileTree → Prop} {path : Text} :
    Disk.Leaves env P (Module.load path : ExceptT LoadError DiskM (Module × List UInt8))
      (fun r t => P t ∧ t.get? (Path.place env.cwd path) = some (.file r.2) ∧ decode r.2 = .ok r.1)
      (fun _ => P) := by
  have hread : Disk.Leaves env P (ExceptT.adapt LoadError.file (Host.read path))
      (fun bytes t => P t ∧ t.get? (Path.place env.cwd path) = some (.file bytes)) (fun _ => P) :=
    Disk.leaves_read.adapt fun _ _ => id
  refine hread.bind fun bytes => ?_
  cases hdecode : decode bytes with
  | ok m => exact .pure fun t ht => ⟨ht.1, ht.2, hdecode⟩
  | error e => exact .throw fun t ht => ht.1

namespace Stage

variable {involved : Set (List UInt8)} {D : Disk → Disk → Prop} {env : Surroundings}
  {t : FileTree}

theorem lockstep_load {path : Text}
    (h : ∀ bytes, t.get? (Path.place env.cwd path) = some (.file bytes) → bytes ∈ involved) :
    Lockstep involved (Disk.Same env t) (Disk.Same env t)
      (Work.outcome (Work.ofHost (Module.load path)) : Work DiskM StageError _)
      (Work.outcome (Work.ofHost (Module.load path)))
      (fun r r' => r' = r ∧ ∀ m bytes, r = .ok (m, bytes) →
        bytes ∈ involved ∧ Module.decode bytes = .ok m) := by
  rintro w w' _ d hw ⟨rfl, rfl, rfl⟩
  have hexec : ∀ w, Work.exec (Work.outcome (Work.ofHost (Module.load path)) :
        Work DiskM StageError (Except LoadError (Module × List UInt8))) w d
      = ((.ok (Disk.run (Module.load path) d).1, w), (Disk.run (Module.load path) d).2) :=
    fun _ => rfl
  have hload : Disk.Leaves d.toSurroundings (fun t => t = d.tree) (Module.load path) _ _ :=
    Module.leaves_load
  obtain ⟨henv, hout⟩ := hload d rfl rfl
  rw [hexec, hexec]
  rcases hrun : Disk.run (Module.load path) d with ⟨r, d'⟩
  rw [hrun] at henv hout
  cases r with
  | ok r =>
      obtain ⟨htree, hfile, hdecode⟩ := hout
      refine ⟨.ok ⟨rfl, ?_⟩, hw, rfl, henv, htree⟩
      rintro m bytes ⟨⟩
      rw [htree] at hfile
      exact ⟨h _ hfile, hdecode⟩
  | error e =>
      refine ⟨.ok ⟨rfl, ?_⟩, hw, rfl, henv, hout⟩
      rintro m bytes ⟨⟩

theorem lockstep_loadEach : ∀ (parent parent' : Nat) (paths : List Text),
    t.Offers involved env.cwd paths →
    Lockstep involved (Disk.Same env t) (Disk.Same env t) (loadEach parent paths)
      (loadEach parent' paths) (fun ls ls' => ls' = ls ∧ ∀ l ∈ ls, l.Genuine involved)
  | _, _, [], _ => .pure ⟨rfl, by simp⟩
  | parent, parent', path :: rest, h => by
      have hrest := lockstep_loadEach parent parent' rest fun p hp =>
        h p (List.mem_cons_of_mem _ hp)
      refine Lockstep.proceed.bind fun _ _ _ => ?_
      refine (Lockstep.notify _).bind fun _ _ _ => ?_
      refine (lockstep_load (h path List.mem_cons_self)).bind fun r r' hr => ?_
      obtain ⟨rfl, hmodule⟩ := hr
      cases r' with
      | error e => exact (Lockstep.notify _).bind fun _ _ _ => .throw _
      | ok r =>
          obtain ⟨m, bytes⟩ := r
          obtain ⟨hbytes, hdecode⟩ := hmodule m bytes rfl
          refine (Lockstep.trace _ _).bind fun _ _ _ => ?_
          refine hrest.bind fun ls ls' hls => .pure ?_
          obtain ⟨rfl, hgenuine⟩ := hls
          exact ⟨rfl, List.forall_mem_cons.mpr ⟨⟨bytes, hbytes, hdecode, rfl⟩, hgenuine⟩⟩

theorem lockstep_indexEach {announce announce' : Nat → Work DiskM StageError Unit}
    (h : ∀ n, Lockstep involved D D (announce n) (announce' n) (fun _ _ => True)) (r : Registry)
    (e : Extractor) (parent parent' : Nat) : ∀ (modules : List Module) (number first : Nat),
    Lockstep involved D D (indexEach announce r e parent number first modules)
      (indexEach announce' r e parent' number first modules) (fun xs xs' => xs' = xs)
  | [], _, _ => .pure rfl
  | module :: rest, number, first => by
      refine Lockstep.proceed.bind fun _ _ _ => ?_
      refine (Lockstep.spanned (V := fun x x' => x' = x) fun _ _ => .pure rfl).bind
        fun part part' hpart => ?_
      refine (h number).bind fun _ _ _ => ?_
      refine (lockstep_indexEach h r e parent parent' rest _ _).bind fun more more' hmore => ?_
      exact .pure (by rw [hpart, hmore])

end Stage

/-! ## Harvesting -/

namespace Stage

variable {involved : Set (List UInt8)} {env : Surroundings} {c : PoolCache}

/-- Shelves of the cache that know the modules from a number on. -/
def Knows (involved : Set (List UInt8)) (c : PoolCache) (s : PoolShelf) (number : Nat)
    (modules : List (Option Module)) : Prop :=
  s.cache = c ∧ ∀ i m, modules[i]? = some (some m) → s.Knows involved (number + i) m

/-- Harvests of the same pools, the first without a shelf and the second with one that goes on as
`s` did. -/
def SamePools (s : PoolShelf) (r r' : List Harvest × Option PoolShelf) : Prop :=
  r'.1.map Harvest.pool = r.1.map Harvest.pool ∧ r.2 = none ∧ ∃ s', r'.2 = some s' ∧ s.Continues s'

section Shelf

variable (hfiles : PoolCache.Discernible involved)

include hfiles

/-- With a shelf that knows the module, a harvest gives the module's pool. -/
theorem lockstep_harvestOne (env : Surroundings) {s : PoolShelf} {number : Nat}
    {m : Module} (h : s.Knows involved number m) :
    Lockstep involved (Disk.Beside env (s.cache.Trusted involved env.cwd))
      (Disk.Beside env (s.cache.Trusted involved env.cwd)) (harvestOne number m none)
      (harvestOne number m (some s))
      (fun r r' => r'.1.pool = r.1.pool ∧ r.2 = none ∧ ∃ s', r'.2 = some s' ∧ s.Continues s') := by
  refine Lockstep.beside (PoolShelf.leaves_load (E := fun _ _ => True) hfiles h) fun r => ?_
  obtain ⟨found, s₁⟩ := r
  refine .knowing (fun _ _ hd => hd.tree.2) fun ⟨hs, hpool⟩ => ?_
  cases found with
  | some pool =>
      refine .weaken (.pure ⟨hpool pool rfl, rfl, s₁, rfl, hs⟩) ?_
      exact fun d d' hd => ⟨hd.left, hd.right, hd.tree.1⟩
  | none =>
      have hstore : Disk.Leaves env (s₁.cache.Trusted involved env.cwd)
          (ExceptT.lift (s₁.store number m.name (Pool.ofModule m)) : ExceptT StageError DiskM _)
          _ (fun _ _ => True) := PoolShelf.leaves_store (h.continues hs)
      rw [hs.1] at hstore
      refine .weaken (Lockstep.beside hstore fun s₂ => ?_) fun d d' hd =>
        ⟨hd.left, hd.right, hd.tree.1⟩
      refine .knowing (fun _ _ hd => hd.tree.2) fun hs₂ => ?_
      exact .weaken (.pure ⟨rfl, rfl, s₂, rfl, hs.trans hs₂⟩) fun d d' hd =>
        ⟨hd.left, hd.right, hd.tree.1⟩

theorem lockstep_harvestEach (env : Surroundings)
    {announce announce' : Nat → Work DiskM StageError Unit}
    (hannounce : ∀ D n, Lockstep involved D D (announce n) (announce' n) (fun _ _ => True))
    (parent parent' : Nat) : ∀ (modules : List (Option Module)) (number : Nat) (s : PoolShelf),
    Knows involved c s number modules →
    Lockstep involved (Disk.Beside env (c.Trusted involved env.cwd))
      (Disk.Beside env (c.Trusted involved env.cwd))
      (harvestEach announce parent number modules none)
      (harvestEach announce' parent' number modules (some s)) (SamePools s)
  | [], _, s, _ => .pure ⟨rfl, rfl, s, rfl, rfl, rfl⟩
  | module :: rest, number, s, ⟨hcache, hknows⟩ => by
      have hrest : ∀ s', s.Continues s' → Knows involved c s' (number + 1) rest := by
        intro s' hs
        refine ⟨hs.1.trans hcache, fun i m hm => ?_⟩
        rw [Nat.add_assoc, Nat.add_comm 1]
        exact (hknows (i + 1) m hm).continues hs
      refine Lockstep.proceed.bind fun _ _ _ => ?_
      cases module with
      | none =>
          exact lockstep_harvestEach env hannounce parent parent' rest _ s
            (hrest s ⟨rfl, rfl⟩)
      | some m =>
          have hone := lockstep_harvestOne hfiles env (hknows 0 m rfl)
          rw [hcache] at hone
          refine (Lockstep.spanned fun _ _ => hone).bind fun r r' hr => ?_
          obtain ⟨x, shelf⟩ := r
          obtain ⟨x', shelf'⟩ := r'
          obtain ⟨hpool, rfl, s₁, rfl, hs₁⟩ := hr
          refine (hannounce _ number).bind fun _ _ _ => ?_
          refine (lockstep_harvestEach env hannounce parent parent' rest _ s₁
            (hrest s₁ hs₁)).bind fun more more' hmore => .pure ?_
          obtain ⟨hpools, hnone, s₂, hsome, hs₂⟩ := hmore
          refine ⟨?_, hnone, s₂, hsome, hs₁.trans hs₂⟩
          exact congrArg₂ List.cons hpool hpools

end Shelf

/-! ## Resolving -/

variable {D : Disk → Disk → Prop}

theorem lockstep_resolveEach (e : Engine) (parent parent' : Nat) :
    ∀ (calls : List CallRef) (number : Nat),
    Lockstep involved D D (resolveEach e parent number calls) (resolveEach e parent' number calls)
      (fun outs outs' => outs' = outs)
  | [], _ => .pure rfl
  | call :: rest, number => by
      refine Lockstep.proceed.bind fun _ _ _ => ?_
      cases Engine.pair? call with
      | none => exact .throw _
      | some pair =>
          refine Lockstep.bind (Lockstep.spanned fun _ _ => ?_)
            fun out out' (hout : out' = out) => ?_
          · cases e.resolveSeed pair with
            | ok out => exact .pure rfl
            | error cause => exact .throw _
          · refine (lockstep_resolveEach e parent parent' rest _).bind fun more more' hmore => ?_
            exact .pure (by rw [hout, hmore])

end Stage

/-! ## The stages that find types -/

namespace Run

variable {involved : Set (List UInt8)} {D : Disk → Disk → Prop} {env : Surroundings}
  {c : PoolCache} {t : FileTree} {req : Request}

theorem lockstep_announceAll (s : Stage) (status : Status) : ∀ files : List Text,
    Lockstep involved D D (announceAll s status files : Work DiskM ε Unit)
      (announceAll s status files) (fun _ _ => True)
  | [] => .pure trivial
  | _ :: files => (Lockstep.notify _).bind fun _ _ _ => lockstep_announceAll s status files

theorem lockstep_announce (loaded : List Loaded) (s : Stage) (status : Status) (number : Nat) :
    Lockstep involved D D (announce loaded s status number) (announce loaded s status number)
      (fun _ _ => True) :=
  .notify _

theorem lockstep_load {span span' : Nat} (h : t.Offers involved env.cwd req.paths)
    (cache cache' : Option PoolCache) :
    Lockstep involved (Disk.Same env t) (Disk.Same env t)
      (load span { req with cache }) (load span' { req with cache := cache' })
      (fun _ _ => True) := by
  refine (Lockstep.spanned fun n n' => Stage.lockstep_loadEach n n' req.paths h).bind
    fun ls ls' hls => ?_
  obtain ⟨rfl, hgenuine⟩ := hls
  refine (Lockstep.record ?_).bind fun _ _ _ =>
    (lockstep_announceAll _ _ _).bind fun _ _ _ => .pure trivial
  rintro p _ ⟨⟨hits, misses, rfl⟩, -⟩
  exact ⟨⟨hits, misses, rfl⟩, hgenuine⟩

theorem lockstep_index {span span' : Nat} :
    Lockstep involved D D (index span) (index span') (fun _ _ => True) := by
  refine Lockstep.products.bind fun p _ hp => ?_
  obtain ⟨⟨hits, misses, rfl⟩, -⟩ := hp
  refine (Lockstep.spanned (V := fun x x' => x' = x) fun n n' => (Stage.lockstep_indexEach
    (lockstep_announce (p.loaded.getD []) .harvest .working) p.registry .genericOnly n n' p.modules
    0 0).bind fun xs xs' hxs => ?_).bind fun x x' hx => ?_
  · exact .pure (congrArg (List.foldl CallIndex.merge {}) hxs)
  · refine (Lockstep.record ?_).bind fun _ _ _ => .pure trivial
    rintro p _ ⟨⟨hits, misses, rfl⟩, hgenuine⟩
    exact ⟨⟨hits, misses, by rw [hx]⟩, hgenuine⟩

/-- The shelf of genuine modules knows them. -/
theorem knows_shelfFor {loaded : List Loaded} (h : ∀ l ∈ loaded, l.Genuine involved) :
    Stage.Knows involved c (shelfFor c loaded) 0 ((loaded.map Loaded.module).map some) := by
  refine ⟨rfl, ?_⟩
  intro i m hm key hkey
  rw [Nat.zero_add] at hkey
  obtain ⟨hlookup, -⟩ := Option.filter_eq_some_iff.mp hkey
  obtain ⟨_, _, hsplit, -⟩ := List.lookup_eq_some_iff.mp hlookup
  have hmem : (i, key) ∈ loaded.mapIdx fun i l => (i, l.digest) := by
    rw [show loaded.mapIdx _ = _ from hsplit]
    simp
  obtain ⟨k, hk, heq⟩ := List.mem_mapIdx.mp hmem
  cases heq
  have hmodule : m = loaded[i].module := by
    simpa [List.getElem?_eq_getElem hk] using hm.symm
  rw [hmodule]
  exact h _ (List.getElem_mem hk)

theorem lockstep_harvest {span span' : Nat} (hfiles : PoolCache.Discernible involved) :
    Lockstep involved (Disk.Beside env (c.Trusted involved env.cwd))
      (Disk.Beside env (c.Trusted involved env.cwd)) (harvest span { req with cache := none })
      (harvest span' { req with cache := some c }) (fun _ _ => True) := by
  refine Lockstep.products.bind fun p _ hp => ?_
  obtain ⟨⟨hits, misses, rfl⟩, hgenuine⟩ := hp
  have heach := fun n n' => Stage.lockstep_harvestEach hfiles env
    (fun _ => lockstep_announce (p.loaded.getD []) .harvest .done) n n' _ 0 _
    (knows_shelfFor (c := c) hgenuine)
  refine (Lockstep.spanned heach).bind fun r r' hr => ?_
  obtain ⟨hs, shelf⟩ := r
  obtain ⟨hs', shelf'⟩ := r'
  obtain ⟨hpools, rfl, s, rfl, -⟩ := hr
  have hjoined : Stage.joined hs' = Stage.joined hs := congrArg (List.foldl Pool.merge {}) hpools
  refine (Lockstep.record ?_).bind fun _ _ _ => ?_
  · rintro p _ ⟨⟨hits, misses, rfl⟩, hgenuine⟩
    exact ⟨⟨hits, misses, by rw [hjoined]⟩, hgenuine⟩
  -- Only the second run has something to count.
  refine (Lockstep.record (f := id) ?_).bind fun _ _ _ => .pure trivial
  rintro p _ ⟨⟨hits, misses, rfl⟩, hgenuine⟩
  exact ⟨⟨s.hits, s.misses, rfl⟩, hgenuine⟩

theorem lockstep_resolve {span span' : Nat} (cache cache' : Option PoolCache) :
    Lockstep involved D D (resolve span { req with cache })
      (resolve span' { req with cache := cache' }) (fun _ _ => True) := by
  refine Lockstep.products.bind fun p _ hp => ?_
  obtain ⟨⟨hits, misses, rfl⟩, -⟩ := hp
  refine (Lockstep.record ?_).bind fun _ _ _ => ?_
  · rintro p _ ⟨⟨hits, misses, rfl⟩, hgenuine⟩
    exact ⟨⟨hits, misses, rfl⟩, hgenuine⟩
  refine (Lockstep.spanned (V := fun r r' => r' = r) fun n n' =>
    (Stage.lockstep_resolveEach _ n n' _ 0).bind fun outs outs' houts => ?_).bind fun r r' hr => ?_
  · exact .pure (by rw [houts])
  · refine (Lockstep.record ?_).bind fun _ _ _ => .pure trivial
    rintro p _ ⟨⟨hits, misses, rfl⟩, hgenuine⟩
    exact ⟨⟨hits, misses, by rw [hr]⟩, hgenuine⟩

/-- Without a cache and with a trusted one, the stages that find types end alike. -/
theorem lockstep_findTypes (span span' : Nat) (hfiles : PoolCache.Discernible involved)
    (hoffers : t.Offers involved env.cwd req.paths) (htrusted : c.Trusted involved env.cwd t) :
    Lockstep involved (Disk.Same env t) (Disk.Beside env (c.Trusted involved env.cwd))
      (findTypes { req with cache := none } span) (findTypes { req with cache := some c } span')
      (fun _ _ => True) := by
  have hbeside : ∀ d d', Disk.Same env t d d' →
      Disk.Beside env (c.Trusted involved env.cwd) d d' := by
    rintro _ d ⟨rfl, rfl, rfl⟩
    exact ⟨rfl, rfl, htrusted⟩
  refine (lockstep_announceAll .load .queued req.paths).andThen hbeside fun _ _ _ => ?_
  refine (Lockstep.stage .load (lockstep_load hoffers none (some c))).andThen hbeside
    fun _ _ _ => ?_
  refine (Lockstep.stage .index lockstep_index).andThen hbeside fun _ _ _ => ?_
  refine .weaken ?_ hbeside
  refine (Lockstep.stage .harvest (lockstep_harvest hfiles)).bind fun _ _ _ => ?_
  exact Lockstep.stage .resolve (lockstep_resolve none (some c))

end Run

end Monomorph
