import Monomorph.Proofs.Workers

/-!
# What a run finds

The stages up to resolution only read, but for entries that they keep in a cache. Whatever turns the
workers of a stage take, such a stage ends with what its products determine, or it fails
(`Run.ensures_load` and its siblings). Put together, a run finds what the files of its request say,
`Run.found` and `Run.resolved?`, or it fails and has found a part of that (`Run.ensures_findTypes`).

A run that is not called off, on a disk where no opening is made to fail, finds all that is there
(`Run.Finds`). This needs a cache that serves each module its own pool (`Run.Served`), and a trusted
one does (`Run.served_trusted`).
-/

namespace Monomorph

variable {env : Surroundings} {P : FileTree → Prop} {p : Products} {off : Prop}

/-! ## Runs that go on -/

/-- A run in given surroundings, with files that satisfy `P` and products `p`. Unless `off` holds,
it has not been called off, and no event will. -/
structure Steady (env : Surroundings) (P : FileTree → Prop) (p : Products) (off : Prop) (w : Monitor)
    (d : Disk) : Prop where
  env : d.toSurroundings = env
  tree : P d.tree
  products : w.products = p
  proceeds : ¬ off → w.cancelled = false ∧ ∀ e, w.cancelsOn e = false

theorem Steady.indifferent : Work.Indifferent (Steady env P p off) where
  told e h := ⟨h.env, h.tree, h.products, fun hoff => by
    simp [(h.proceeds hoff).1, (h.proceeds hoff).2]⟩
  timed _ _ h := ⟨h.env, h.tree, h.products, h.proceeds⟩
  traced _ h := ⟨h.env, h.tree, h.products, h.proceeds⟩

theorem Steady.weaken {P' : FileTree → Prop} {w : Monitor} {d : Disk} (h : Steady env P p off w d)
    (hP : ∀ t, P t → P' t) : Steady env P' p off w d :=
  ⟨h.env, hP _ h.tree, h.products, h.proceeds⟩

theorem Steady.ensures_record {ε : Type} {E : ε → Monitor → Disk → Prop} (f : Products → Products) :
    Work.Ensures (Steady env P p off) (Work.record f : Work DiskM ε Unit)
      (fun _ => Steady env P (f p) off) E :=
  Work.Ensures.record fun _ _ h => ⟨h.env, h.tree, congrArg f h.products, h.proceeds⟩

theorem Steady.ensures_products {ε : Type} {E : ε → Monitor → Disk → Prop} :
    Work.Ensures (Steady env P p off) (Work.products : Work DiskM ε Products)
      (fun q w d => q = p ∧ Steady env P p off w d) E :=
  fun _ _ h => ⟨h.products, h⟩

/-- A shelf of which `S` holds answers on the terms, and `S` holds of it again. -/
structure Terms.Shelves (T : Terms) (env : Surroundings) (P : FileTree → Prop)
    (S : Option PoolShelf → Prop) : Prop where
  fetch : ∀ {s : PoolShelf} number, S (some s) → Disk.Leaves env P
    (ExceptT.lift (s.load number) : ExceptT StageError DiskM (Option Pool × PoolShelf))
    (fun r t => P t ∧ S (some r.2) ∧ T.fetches number r.1) (fun _ _ => True)
  miss : S none → ∀ number, T.fetches number none
  store : ∀ {s : PoolShelf} {number name pool}, S (some s) → T.keeps number name pool →
    Disk.Leaves env P
      (ExceptT.lift (s.store number name pool) : ExceptT StageError DiskM PoolShelf)
      (fun s' t => P t ∧ S (some s')) (fun _ _ => True)

theorem Terms.Shelves.none {T : Terms} (h : ∀ number, T.fetches number .none) :
    T.Shelves env P (· = .none) where
  fetch _ hs := nomatch hs
  miss _ := h
  store hs := nomatch hs

/-- Workers on a shelf that answers leave a run steady. -/
theorem Terms.Shelves.kept {T : Terms} {S : Option PoolShelf → Prop}
    (hshelf : T.Shelves env P S) (hoff : off → T.fails)
    {announcing : Nat → Work DiskM StageError Unit}
    (hannounce : ∀ number, Work.Ensures (Steady env P p off) (announcing number)
      (fun _ => Steady env P p off) (fun _ _ _ => False))
    (hload : ∀ path (d : Disk), d.toSurroundings = env → P d.tree →
      T.loads path (Disk.run (Module.load path) d).1)
    {turns : List Turn} (hturns : .cancel ∈ turns → off) :
    T.Kept announcing turns fun shelf w d => S shelf ∧ Steady env P p off w d where
  called h hcancelled := by
    by_contra hfails
    rw [(h.2.proceeds (mt hoff hfails)).1] at hcancelled
    cases hcancelled
  told _ _ _ _ e h := ⟨h.1, Steady.indifferent.told e h.2⟩
  traced tracer h := ⟨h.1, Steady.indifferent.traced tracer h.2⟩
  announced number w d h := by
    have hend := hannounce number w d h.2
    revert hend
    cases (Work.exec (announcing number) w d).1.1 with
    | ok u => exact fun hend => ⟨h.1, hend⟩
    | error e => exact False.elim
  loaded path h := by
    have htree : Disk.Leaves env P (Module.load path) _ _ := Module.leaves_load
    obtain ⟨henv, hend⟩ := htree _ h.2.env h.2.tree
    refine ⟨hload path _ h.2.env h.2.tree, h.1, henv, ?_, h.2.products, h.2.proceeds⟩
    revert hend
    cases (Disk.run (Module.load path) _).1 with
    | ok r => exact And.left
    | error e => exact id
  fetched number h := by
    obtain ⟨henv, htree, hS, hfetched⟩ := hshelf.fetch number h.1 _ h.2.env h.2.tree
    exact ⟨hfetched, hS, henv, htree, h.2.products, h.2.proceeds⟩
  missed number h := hshelf.miss h.1 number
  stored hkeeps h := by
    obtain ⟨henv, htree, hS⟩ := hshelf.store h.1 hkeeps _ h.2.env h.2.tree
    exact ⟨hS, henv, htree, h.2.products, h.2.proceeds⟩
  cancelled hcancel _ _ _ h :=
    ⟨h.1, h.2.env, h.2.tree, h.2.products, fun hoff => absurd (hturns hcancel) hoff⟩

/-! ## Stages of a steady run -/

namespace Run

section Stages

variable {req : Request} {turns : Stage → List Turn} {fails : Prop}

theorem ensures_load (loads : Text → Except LoadError (Module × List UInt8) → Prop)
    (hoff : off → fails) (hturns : .cancel ∈ turns .load → off)
    (hload : ∀ path (d : Disk), d.toSurroundings = env → P d.tree →
      loads path (Disk.run (Module.load path) d).1)
    (hfails : ∀ path ∈ req.paths, ∀ e, loads path (.error e) → fails) (span : Nat) :
    Work.Ensures (Steady env P p off) (load span req (.taking turns))
      (fun _ w d => ∃ ls, List.Forall₂ (fun path l => ∃ module bytes,
          loads path (.ok (module, bytes)) ∧ l = { path, module, digest := Digest.sum bytes })
            req.paths ls ∧ Steady env P { p with loaded := some ls } off w d)
      (fun _ w d => Steady env P p off w d ∧ fails) := by
  let T : Terms := { fails, loads }
  have hkept : T.Kept (fun _ => return) (turns .load) fun shelf w d =>
      shelf = none ∧ Steady env P p off w d :=
    (Terms.Shelves.none fun _ => trivial).kept hoff (fun _ => .pure fun _ _ => id) hload hturns
  have hstage : Work.Ensures _ (Stage.loadModules span req.paths (.taking turns)) _ _ :=
    Stage.ensures_loadModules hkept trivial hfails
  refine .bind (hstage.imp (fun w d h => ⟨rfl, h⟩) (fun ls w d ⟨_, h, hls⟩ => ⟨hls, h.2⟩)
    fun e w d ⟨⟨_, h⟩, hfails⟩ => ⟨h.2, hfails⟩) fun ls => .assuming fun hls => ?_
  refine (Steady.ensures_record _).bind fun _ => ?_
  refine (Work.Ensures.announceAll Steady.indifferent _ _ _).bind fun _ => ?_
  exact .pure fun w d h => ⟨ls, hls, h⟩

theorem ensures_index (hturns : .cancel ∈ turns .index → off) (span : Nat) :
    Work.Ensures (Steady env P p off) (index span (.taking turns))
      (fun _ => Steady env P { p with
        index := some (CallIndex.build p.registry .genericOnly (p.modules.map some)) } off)
      (fun _ w d => Steady env P p off w d ∧ off) := by
  let T : Terms := { fails := off }
  refine Steady.ensures_products.bind fun q => .assuming ?_
  rintro rfl
  have hkept : T.Kept (announce (q.loaded.getD []) .harvest .working) (turns .index)
      fun shelf w d => shelf = none ∧ Steady env P q off w d :=
    (Terms.Shelves.none fun _ => trivial).kept id
      (fun _ => Work.Ensures.notify Steady.indifferent _) (fun _ _ _ _ => trivial) hturns
  have hstage : Work.Ensures _ (Stage.indexModules (announce (q.loaded.getD []) .harvest .working)
      q.registry .genericOnly span q.modules (.taking turns)) _ _ :=
    Stage.ensures_indexModules hkept q.registry .genericOnly q.modules
  refine .bind (hstage.imp (fun w d h => ⟨rfl, h⟩) (fun x w d ⟨_, h, hx⟩ => ⟨hx, h.2⟩)
    fun e w d ⟨⟨_, h⟩, hoff⟩ => ⟨h.2, hoff⟩) fun x => .assuming ?_
  rintro rfl
  exact (Steady.ensures_record _).bind fun _ => .pure fun _ _ => id

/-- What a cache, if there is one, gives for loaded modules is as good as their own pools. -/
def Served (env : Surroundings) (P : FileTree → Prop) (off : Prop) (good : Module → Pool → Prop)
    (cache : Option PoolCache) (loaded : List Loaded) : Prop :=
  ∃ fetches keeps S, let T : Terms := { fails := off, fetches, keeps }
    S (cache.map fun c => shelfFor c loaded) ∧ T.Shelves env P S ∧
      Stage.Offers T good 0 ((loaded.map Loaded.module).map some)

theorem ensures_harvest {good : Module → Pool → Prop} (hturns : .cancel ∈ turns .harvest → off)
    (hserved : Served env P off good req.cache (p.loaded.getD [])) (span : Nat) :
    Work.Ensures (Steady env P p off) (harvest span req (.taking turns))
      (fun _ w d => ∃ hs hits misses, List.Forall₂ (fun m h => good m h.pool) p.modules hs ∧
        Steady env P { p with pool := some (Stage.joined hs), hits, misses } off w d)
      (fun _ w d => Steady env P p off w d ∧ off) := by
  refine Steady.ensures_products.bind fun q => .assuming ?_
  rintro rfl
  obtain ⟨fetches, keeps, S, hS, hshelf, hgood⟩ := hserved
  let T : Terms := { fails := off, fetches, keeps }
  have hkept : T.Kept (announce (q.loaded.getD []) .harvest .done) (turns .harvest)
      fun shelf w d => S shelf ∧ Steady env P q off w d :=
    hshelf.kept id (fun _ => Work.Ensures.notify Steady.indifferent _) (fun _ _ _ _ => trivial)
      hturns
  have hstage : Work.Ensures _ (Stage.harvestModules (announce (q.loaded.getD []) .harvest .done)
      span (q.modules.map some) (req.cache.map fun c => shelfFor c (q.loaded.getD []))
      (.taking turns)) _ _ :=
    Stage.ensures_harvestModules hkept hgood _
  refine .bind (hstage.imp (fun w d h => ⟨hS, h⟩) (fun r w d ⟨_, h, _, hr⟩ => ⟨hr, h.2⟩)
    fun e w d ⟨⟨_, h⟩, hoff⟩ => ⟨h.2, hoff⟩) fun r => .assuming fun hr => ?_
  obtain ⟨hs, shelf⟩ := r
  rw [List.filterMap_map, Function.id_comp, List.filterMap_some] at hr
  refine (Steady.ensures_record _).bind fun _ => ?_
  cases shelf with
  | none => exact .pure fun w d h => ⟨hs, q.hits, q.misses, hr, h⟩
  | some s =>
      refine (Steady.ensures_record _).bind fun _ => ?_
      exact .pure fun w d h => ⟨hs, s.hits, s.misses, hr, h⟩

/-- The engine of a run with these products. -/
def engine (req : Request) (p : Products) : Engine :=
  { program := p.registry, registry := p.registry, callers := (p.index.getD {}).callers,
    pool := p.pool.getD {}, maxDepth := depthLimit req.maxDepth }

theorem ensures_resolve (hturns : .cancel ∈ turns .resolve → off) (span : Nat) :
    let calls := CallRef.collect p.registry req.seeds
    Work.Ensures (Steady env P p off) (resolve span req (.taking turns))
      (fun _ w d => ∃ r, (engine req p).resolve calls = .ok r ∧
        Steady env P { p with calls := some calls, resolved := some r } off w d)
      (fun _ w d => Steady env P { p with calls := some calls } off w d ∧
        (off ∨ ∀ r, (engine req p).resolve calls ≠ .ok r)) := by
  intro calls
  let T : Terms := { fails := off ∨ ∀ r, (engine req p).resolve calls ≠ .ok r }
  refine Steady.ensures_products.bind fun q => .assuming ?_
  rintro rfl
  refine (Steady.ensures_record _).bind fun _ => ?_
  have hkept : T.Kept (fun _ => return) (turns .resolve) fun shelf w d =>
      shelf = none ∧ Steady env P { q with calls := some calls } off w d :=
    (Terms.Shelves.none fun _ => trivial).kept Or.inl (fun _ => .pure fun _ _ => id)
      (fun _ _ _ _ => trivial) hturns
  have hstage : Work.Ensures _ (Stage.resolveSeeds (engine req q) span calls (.taking turns)) _ _ :=
    Stage.ensures_resolveSeeds hkept fun call hcall hnone => .inr fun r hr => by
      obtain ⟨types, htypes, -⟩ := (Engine.resolve_outcome hr).named call hcall
      exact hnone types htypes
  refine .bind (hstage.imp (fun w d h => ⟨rfl, h⟩) (fun r w d ⟨_, h, hr⟩ => ⟨hr, h.2⟩)
    fun e w d ⟨⟨_, h⟩, hfails⟩ => ⟨h.2, hfails⟩) fun r => .assuming fun hr => ?_
  exact (Steady.ensures_record _).bind fun _ => .pure fun w d h => ⟨r, hr, h⟩

end Stages

end Run

/-! ## What the files say -/

/-- The module in the file that a path leads to, as it is loaded. -/
def Loaded.at? (cwd : Place) (t : FileTree) (path : Text) : Option Loaded := do
  let bytes ← t.opened? cwd path
  let module ← (Module.decode bytes).toOption
  return { path, module, digest := Digest.sum bytes }

/-- What is loaded is the module at the path. Where no opening is made to fail, nothing is loaded
only if there is none. -/
theorem Module.leaves_load_at (path : Text) :
    Disk.Leaves env P (Module.load path : ExceptT LoadError DiskM (Module × List UInt8))
      (fun r t => P t ∧ Loaded.at? env.cwd t path
        = some { path, module := r.1, digest := Digest.sum r.2 })
      (fun _ t => P t ∧
        ((∀ n, env.faults n .opening = none) → Loaded.at? env.cwd t path = none)) := by
  have hread : Disk.Leaves env P (ExceptT.adapt LoadError.file (Host.read path))
      (fun bytes t => P t ∧ t.opened? env.cwd path = some bytes)
      (fun _ t => P t ∧
        ((∀ n, env.faults n .opening = none) → Loaded.at? env.cwd t path = none)) :=
    Disk.leaves_read_opened.adapt fun e t h =>
      ⟨h.1, fun hnone => by rw [Loaded.at?, h.2 hnone]; rfl⟩
  refine hread.bind fun bytes => ?_
  cases hdecode : decode bytes with
  | ok m =>
      refine .pure fun t h => ⟨h.1, ?_⟩
      rw [Loaded.at?, h.2]
      simp [hdecode, Except.toOption]
  | error e =>
      refine .throw fun t h => ⟨h.1, fun _ => ?_⟩
      rw [Loaded.at?, h.2]
      simp [hdecode, Except.toOption]

namespace Run

/-- The modules that a request loads. -/
def loaded? (cwd : Place) (t : FileTree) (req : Request) : Option (List Loaded) :=
  req.paths.mapM (Loaded.at? cwd t)

/-- The products of a run that has loaded these modules, but for the resolution. -/
def found (req : Request) (loaded : List Loaded) : Products :=
  let modules := (loaded.map Loaded.module).map some
  let registry := Registry.ofModules modules
  { loaded := some loaded, index := some (CallIndex.build registry .genericOnly modules),
    pool := some (Pool.ofModules modules), calls := some (CallRef.collect registry req.seeds) }

/-- The resolution of a run that has loaded these modules, if there is one. -/
def resolved? (req : Request) (loaded : List Loaded) : Option Resolution :=
  let modules := (loaded.map Loaded.module).map some
  (resolveProgram modules (CallRef.collect (Registry.ofModules modules) req.seeds)
    (depthLimit req.maxDepth)).toOption

/-- The pool that a request finds in the files. -/
def poolIn? (cwd : Place) (t : FileTree) (req : Request) : Option Pool :=
  (loaded? cwd t req).bind fun ls => (found req ls).pool

/-- The resolution that a request finds in the files. -/
def resolutionIn? (cwd : Place) (t : FileTree) (req : Request) : Option Resolution :=
  (loaded? cwd t req).bind (resolved? req)

/-- Products that hold what the files say, or less if the run is called off or cannot read. -/
structure Finds (cwd : Place) (t : FileTree) (req : Request) (off : Prop) (p : Products) : Prop where
  pool : ∀ pool, p.pool = some pool → poolIn? cwd t req = some pool
  resolved : ∀ r, p.resolved = some r → resolutionIn? cwd t req = some r
  complete : ¬ off → p.pool = poolIn? cwd t req ∧ p.resolved = resolutionIn? cwd t req

section Files

variable {cwd : Place} {t : FileTree} {req : Request} {ls : List Loaded}

theorem loaded?_eq_some :
    loaded? cwd t req = some ls ↔ req.paths.map (Loaded.at? cwd t) = ls.map some := by
  unfold loaded?
  generalize req.paths = paths
  induction paths generalizing ls with
  | nil => cases ls <;> simp
  | cons path paths ih =>
      cases hat : Loaded.at? cwd t path with
      | none => cases ls <;> simp [List.mapM_cons, hat]
      | some l => cases ls <;> simp [List.mapM_cons, hat, Option.bind_eq_some_iff, ← ih, and_comm]

theorem exists_at? (h : loaded? cwd t req = some ls) {path : Text} (hpath : path ∈ req.paths) :
    ∃ l, Loaded.at? cwd t path = some l := by
  have hmem := List.mem_map_of_mem (f := Loaded.at? cwd t) hpath
  rw [loaded?_eq_some.mp h] at hmem
  obtain ⟨l, -, hl⟩ := List.mem_map.mp hmem
  exact ⟨l, hl.symm⟩

/-- What is loaded from files that are involved is genuine. -/
theorem genuine_of_loaded? {involved : Set (List UInt8)} (h : loaded? cwd t req = some ls)
    (hoffers : t.Offers involved cwd req.paths) : ∀ l ∈ ls, l.Genuine involved := by
  intro l hl
  have hmem := List.mem_map_of_mem (f := some) hl
  rw [← loaded?_eq_some.mp h] at hmem
  obtain ⟨path, hpath, hat⟩ := List.mem_map.mp hmem
  simp only [Loaded.at?, Option.bind_eq_bind, Option.bind_eq_some_iff] at hat
  obtain ⟨bytes, hopened, m, hm, ⟨⟩⟩ := hat
  refine ⟨bytes, hoffers path hpath bytes (FileTree.get?_of_opened? hopened), ?_, rfl⟩
  revert hm
  cases hdecode : Module.decode bytes with
  | error e => rintro ⟨⟩
  | ok m' =>
      rintro ⟨⟩
      rfl

theorem resolved?_eq_some {r : Resolution} : resolved? req ls = some r ↔
    (engine req (found req ls)).resolve (CallRef.collect (found req ls).registry req.seeds)
      = .ok r := by
  let modules := (ls.map Loaded.module).map some
  let calls := CallRef.collect (Registry.ofModules modules) req.seeds
  show resolved? req ls = some r ↔
    (Engine.ofModules modules (depthLimit req.maxDepth)).resolve calls = .ok r
  rw [resolved?, resolveProgram, Bool.false_and, if_neg Bool.false_ne_true]
  cases (Engine.ofModules modules (depthLimit req.maxDepth)).resolve calls with
  | ok r' => simp [Except.toOption]
  | error e => simp [Except.toOption]

namespace Finds

variable {p : Products}

/-- Before the harvest nothing is found, and in the end only if the run is called off or a module
cannot be loaded. -/
theorem nothing (hpool : p.pool = none) (hresolved : p.resolved = none)
    (hoff : off ∨ loaded? cwd t req = none) : Finds cwd t req off p := by
  refine ⟨by simp [hpool], by simp [hresolved], fun hon => ?_⟩
  have hnone := hoff.resolve_left hon
  simp [hpool, hresolved, poolIn?, resolutionIn?, hnone]

theorem unresolved (hls : loaded? cwd t req = some ls) (hpool : p.pool = (found req ls).pool)
    (hresolved : p.resolved = none) (hoff : off ∨ resolved? req ls = none) :
    Finds cwd t req off p := by
  have hfound : p.pool = poolIn? cwd t req := by
    rw [hpool, poolIn?, hls]
    rfl
  refine ⟨fun _ h => hfound ▸ h, by simp [hresolved], fun hon => ⟨hfound, ?_⟩⟩
  rw [hresolved, resolutionIn?, hls, Option.bind_some, hoff.resolve_left hon]

theorem all {r : Resolution} (hls : loaded? cwd t req = some ls) (hr : resolved? req ls = some r)
    (hpool : p.pool = (found req ls).pool) (hresolved : p.resolved = some r) :
    Finds cwd t req off p := by
  have hfound : p.pool = poolIn? cwd t req := by
    rw [hpool, poolIn?, hls]
    rfl
  have hend : p.resolved = resolutionIn? cwd t req := by
    rw [hresolved, resolutionIn?, hls, Option.bind_some, hr]
  exact ⟨fun _ h => hfound ▸ h, fun _ h => hend ▸ h, fun _ => ⟨hfound, hend⟩⟩

end Finds

end Files

/-! ## Caches that serve -/

section Caches

variable {ls : List Loaded} {good : Module → Pool → Prop}

theorem served_none (hown : ∀ m, good m (Pool.ofModule m)) (ls : List Loaded) :
    Served env P off good none ls :=
  ⟨fun _ found => found = none, fun _ _ _ => True, (· = none), rfl, .none fun _ => rfl,
    fun _ m _ => ⟨trivial, hown m, fun _ h => by cases h⟩⟩

/-- A cache serves if its shelf does, and goes on to. -/
theorem served_some {c : PoolCache} (fetches : Nat → Option Pool → Prop)
    (keeps : Nat → Text → Pool → Prop) (S : PoolShelf → Prop) (hS : S (shelfFor c ls))
    (hfetch : ∀ s number, S s → Disk.Leaves env P
      (ExceptT.lift (s.load number) : ExceptT StageError DiskM (Option Pool × PoolShelf))
      (fun r t => P t ∧ S r.2 ∧ fetches number r.1) (fun _ _ => True))
    (hstore : ∀ s number name pool, S s → keeps number name pool → Disk.Leaves env P
      (ExceptT.lift (s.store number name pool) : ExceptT StageError DiskM PoolShelf)
      (fun s' t => P t ∧ S s') (fun _ _ => True))
    (hgood : Stage.Offers { fails := off, fetches, keeps } good 0
      ((ls.map Loaded.module).map some)) : Served env P off good (some c) ls := by
  refine ⟨fetches, keeps, fun shelf => ∃ s, shelf = some s ∧ S s, ⟨_, rfl, hS⟩, ⟨?_, ?_, ?_⟩, hgood⟩
  · rintro s number ⟨_, ⟨⟩, hs⟩
    exact (hfetch s number hs).imp (fun _ => id) (fun r t h => ⟨h.1, ⟨r.2, rfl, h.2.1⟩, h.2.2⟩)
      fun _ _ => id
  · rintro ⟨s, ⟨⟩, -⟩
  · rintro s number name pool ⟨_, ⟨⟩, hs⟩ hkeeps
    exact (hstore s number name pool hs hkeeps).imp (fun _ => id)
      (fun s' t h => ⟨h.1, s', rfl, h.2⟩) fun _ _ => id

/-- A trusted cache serves genuine modules their own pools. -/
theorem served_trusted {involved : Set (List UInt8)} {c : PoolCache}
    (hfiles : PoolCache.Discernible involved) (h : ∀ l ∈ ls, l.Genuine involved) :
    Served env (c.Trusted involved env.cwd) off (fun m pool => pool = Pool.ofModule m) (some c)
      ls := by
  let modules := (ls.map Loaded.module).map some
  let fetches (number : Nat) (found : Option Pool) : Prop :=
    ∀ m, modules[number]? = some (some m) → ∀ pool, found = some pool → pool = Pool.ofModule m
  let keeps (number : Nat) (name : Text) (pool : Pool) : Prop :=
    ∃ m, modules[number]? = some (some m) ∧ name = m.name ∧ pool = Pool.ofModule m
  have hknows : ∀ {s : PoolShelf} {number m}, (shelfFor c ls).Continues s →
      modules[number]? = some (some m) → s.Knows involved number m := by
    intro s number m hs hm
    have hone := (knows_shelfFor (c := c) h).2 number m hm
    rw [Nat.zero_add] at hone
    exact hone.continues hs
  refine served_some fetches keeps (shelfFor c ls).Continues ⟨rfl, rfl⟩ ?_ ?_ ?_
  · intro s number hs
    by_cases hm : ∃ m, modules[number]? = some (some m)
    · obtain ⟨m, hm⟩ := hm
      have hload : Disk.Leaves env (s.cache.Trusted involved env.cwd)
          (ExceptT.lift (s.load number) : ExceptT StageError DiskM (Option Pool × PoolShelf)) _
          (fun _ _ => True) := PoolShelf.leaves_load hfiles (hknows hs hm)
      rw [show s.cache = c from hs.1] at hload
      refine hload.imp (fun _ => id) ?_ fun _ _ => id
      rintro r t ⟨ht, hr, hpool⟩
      refine ⟨ht, hs.trans hr, fun m' hm' => ?_⟩
      cases hm.symm.trans hm'
      exact hpool
    · exact PoolShelf.leaves_load_of.imp (fun _ => id)
        (fun r t hr => ⟨hr.1, hs.trans hr.2, fun m hm' => absurd ⟨m, hm'⟩ hm⟩) fun _ _ => id
  · rintro s number _ _ hs ⟨m, hm, rfl, rfl⟩
    have hstore : Disk.Leaves env (s.cache.Trusted involved env.cwd)
        (ExceptT.lift (s.store number m.name (Pool.ofModule m)) : ExceptT StageError DiskM PoolShelf)
        _ (fun _ _ => True) := PoolShelf.leaves_store (hknows hs hm)
    rw [show s.cache = c from hs.1] at hstore
    exact hstore.imp (fun _ => id) (fun s' t hs' => ⟨hs'.1, hs.trans hs'.2⟩) fun _ _ => id
  · intro number m hm
    rw [Nat.zero_add]
    exact ⟨⟨m, hm, rfl, rfl⟩, rfl, fun pool hpool => hpool m hm pool rfl⟩

end Caches

/-! ## The stages that find types -/

section FindTypes

variable {t₀ : FileTree} {req : Request} {turns : Stage → List Turn} {ls : List Loaded} {span : Nat}

/-- A run that has found a part of what the files say, without a resolution. -/
def Partly (env : Surroundings) (P : FileTree → Prop) (t₀ : FileTree) (req : Request) (off : Prop)
    (w : Monitor) (d : Disk) : Prop :=
  ∃ p, (Finds env.cwd t₀ req off p ∧ p.resolved = none) ∧ Steady env P p off w d

/-- A stage after which, if it fails, a part has been found. -/
theorem ensures_stage {s : Stage} {work : Work DiskM StageError Text} {P' Q : Monitor → Disk → Prop}
    {E : StageError → Monitor → Disk → Prop} (hP : Work.Indifferent P') (hQ : Work.Indifferent Q)
    (h : Work.Ensures P' work (fun _ => Q) E)
    (hfails : ∀ e w d, E e w d → Partly env P t₀ req off w d) :
    Work.Ensures P' (stage s work) (fun _ => Q) (fun _ => Partly env P t₀ req off) := by
  have hpart : Work.Indifferent (Partly env P t₀ req off) :=
    .exists fun p => Steady.indifferent.assuming
  refine (Work.Ensures.stage s hP hQ (fun _ => hpart) (h.imp (fun _ _ => id) (fun _ _ _ => id)
    hfails)).imp (fun _ _ => id) (fun _ _ _ => id) ?_
  rintro e w d ⟨_, _, h⟩
  exact h

/-- Loading finds all modules, or shows that one of them is not there. -/
theorem ensures_loadStage (hP : P t₀) (hturns : .cancel ∈ turns .load → off)
    (hfaults : ¬ off → ∀ n, env.faults n .opening = none) :
    Work.Ensures (Steady env (· = t₀) {} off) (stage .load (load span req (.taking turns)))
      (fun _ w d => ∃ ls, loaded? env.cwd t₀ req = some ls ∧
        Steady env P { loaded := some ls } off w d)
      (fun _ => Partly env P t₀ req off) := by
  have hweak : ∀ {p w d}, Steady env (· = t₀) p off w d → Steady env P p off w d :=
    fun h => h.weaken fun t ht => ht ▸ hP
  let loads (path : Text) (r : Except LoadError (Module × List UInt8)) : Prop :=
    (∀ m bytes, r = .ok (m, bytes) →
      Loaded.at? env.cwd t₀ path = some { path, module := m, digest := Digest.sum bytes }) ∧
    ∀ e, r = .error e → ¬ off → Loaded.at? env.cwd t₀ path = none
  have hload : ∀ path (d : Disk), d.toSurroundings = env → d.tree = t₀ →
      loads path (Disk.run (Module.load path) d).1 := by
    intro path d henv htree
    have hleaves : Disk.Leaves env (· = t₀) (Module.load path) _ _ := Module.leaves_load_at path
    obtain ⟨-, hend⟩ := hleaves d henv htree
    revert hend
    cases (Disk.run (Module.load path) d).1 with
    | ok r =>
        rintro ⟨rfl, hat⟩
        refine ⟨?_, fun _ h => by cases h⟩
        rintro _ _ ⟨⟩
        exact hat
    | error e =>
        rintro ⟨rfl, hnone⟩
        refine ⟨fun _ _ h => (by cases h), ?_⟩
        rintro _ ⟨⟩ hon
        exact hnone (hfaults hon)
  have hfails : ∀ path ∈ req.paths, ∀ e, loads path (.error e) →
      off ∨ loaded? env.cwd t₀ req = none := by
    intro path hpath e hloads
    by_contra hnot
    obtain ⟨hon, hsome⟩ := not_or.mp hnot
    obtain ⟨ls, hls⟩ := Option.ne_none_iff_exists'.mp hsome
    obtain ⟨l, hl⟩ := exists_at? hls hpath
    rw [hloads.2 e rfl hon] at hl
    cases hl
  refine ensures_stage Steady.indifferent (.exists fun ls => Steady.indifferent.assuming)
    ((ensures_load loads Or.inl hturns hload hfails span).imp
      (fun _ _ => id) ?_ fun _ _ _ => id) ?_
  · rintro _ w d ⟨ls, hls, h⟩
    have hat : List.Forall₂ (fun path l => Loaded.at? env.cwd t₀ path = some l) req.paths ls := by
      refine hls.imp fun path l hl => ?_
      obtain ⟨module, bytes, hok, rfl⟩ := hl
      exact hok.1 module bytes rfl
    refine ⟨ls, loaded?_eq_some.mpr ?_, hweak h⟩
    rwa [← List.forall₂_eq_eq_eq, List.forall₂_map_left_iff, List.forall₂_map_right_iff]
  · rintro _ w d ⟨h, hoff⟩
    exact ⟨{}, ⟨.nothing rfl rfl hoff, rfl⟩, hweak h⟩

theorem ensures_indexStage (hturns : .cancel ∈ turns .index → off) :
    Work.Ensures (Steady env P { loaded := some ls } off)
      (stage .index (index span (.taking turns)))
      (fun _ => Steady env P { found req ls with pool := none, calls := none } off)
      (fun _ => Partly env P t₀ req off) := by
  refine ensures_stage Steady.indifferent Steady.indifferent (ensures_index hturns span) ?_
  rintro _ w d ⟨h, hoff⟩
  exact ⟨_, ⟨.nothing rfl rfl (.inl hoff), rfl⟩, h⟩

theorem ensures_harvestStage (hturns : .cancel ∈ turns .harvest → off)
    (hserved : Served env P off (fun m pool => pool = Pool.ofModule m) req.cache ls) :
    Work.Ensures (Steady env P { found req ls with pool := none, calls := none } off)
      (stage .harvest (harvest span req (.taking turns)))
      (fun _ w d => ∃ hits misses,
        Steady env P { found req ls with calls := none, hits, misses } off w d)
      (fun _ => Partly env P t₀ req off) := by
  refine ensures_stage Steady.indifferent (.exists fun _ => .exists fun _ => Steady.indifferent)
    ((ensures_harvest hturns hserved span).imp (fun _ _ => id) ?_ fun _ _ _ => id) ?_
  · rintro _ w d ⟨hs, hits, misses, hpools, h⟩
    have hmodules : List.Forall₂ (fun m h => h.pool = Pool.ofModule m)
        (((ls.map Loaded.module).map some).filterMap id) hs := by
      rw [List.filterMap_map, Function.id_comp, List.filterMap_some]
      exact hpools
    rw [Stage.joined_of_forall₂ hmodules] at h
    exact ⟨hits, misses, h⟩
  · rintro _ w d ⟨h, hoff⟩
    exact ⟨_, ⟨.nothing rfl rfl (.inl hoff), rfl⟩, h⟩

theorem ensures_resolveStage (hls : loaded? env.cwd t₀ req = some ls)
    (hturns : .cancel ∈ turns .resolve → off) {hits misses : Nat} :
    Work.Ensures (Steady env P { found req ls with calls := none, hits, misses } off)
      (stage .resolve (resolve span req (.taking turns)))
      (fun _ w d => ∃ r, resolved? req ls = some r ∧
        Steady env P { found req ls with resolved := some r, hits, misses } off w d)
      (fun _ => Partly env P t₀ req off) := by
  refine ensures_stage Steady.indifferent (.exists fun _ => Steady.indifferent.assuming)
    ((ensures_resolve hturns span).imp (fun _ _ => id) ?_ fun _ _ _ => id) ?_
  · rintro _ w d ⟨r, hr, h⟩
    exact ⟨r, resolved?_eq_some.mpr hr, h⟩
  · rintro _ w d ⟨h, hoff⟩
    refine ⟨{ found req ls with hits, misses },
      ⟨.unresolved hls rfl rfl (hoff.imp id fun hno => ?_), rfl⟩, h⟩
    exact Option.eq_none_iff_forall_ne_some.mpr fun r hr => hno r (resolved?_eq_some.mp hr)

/-- **Finding types.** Whatever turns are taken, the stages that find types end with what the files
say, or fail having found a part of it. -/
theorem ensures_findTypes (hP : P t₀) (hturns : ∀ s, .cancel ∈ turns s → off)
    (hfaults : ¬ off → ∀ n, env.faults n .opening = none)
    (hserved : ∀ ls, loaded? env.cwd t₀ req = some ls →
      Served env P off (fun m pool => pool = Pool.ofModule m) req.cache ls) (span : Nat) :
    Work.Ensures (Steady env (· = t₀) {} off) (findTypes req span (.taking turns))
      (fun _ w d => ∃ ls, loaded? env.cwd t₀ req = some ls ∧ ∃ hits misses r,
        resolved? req ls = some r ∧
          Steady env P { found req ls with resolved := some r, hits, misses } off w d)
      (fun _ => Partly env P t₀ req off) := by
  refine (Work.Ensures.announceAll Steady.indifferent _ _ _).bind fun _ => ?_
  refine (ensures_loadStage hP (hturns .load) hfaults).bind fun _ =>
    .any fun ls => .assuming fun hls => ?_
  refine (ensures_indexStage (hturns .index)).bind fun _ => ?_
  refine (ensures_harvestStage (hturns .harvest) (hserved ls hls)).bind fun _ =>
    .any fun hits => .any fun misses => ?_
  exact (ensures_resolveStage hls (hturns .resolve)).imp (fun _ _ => id)
    (fun _ _ _ h => ⟨ls, hls, hits, misses, h⟩) fun _ _ _ => id

end FindTypes

end Run

end Monomorph
