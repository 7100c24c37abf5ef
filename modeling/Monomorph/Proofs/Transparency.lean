import Monomorph.Proofs.Decoded
import Monomorph.Proofs.Findings
import Monomorph.Proofs.Written
import Monomorph.Sample

/-!
# The cache cannot be seen

A run with a trusted cache ends as a run without a cache does: with the same pool, the same
resolution and, unless a file cannot be written, the same outcome and the same bytes at the output
(`Run.SameEnd`). It leaves the cache trusted, as long as the run's own files are written elsewhere,
so the same holds of the next run.

Workers that take turns may be called off at different points in the two runs, and which of several
failures is returned depends on the turns as well. Still both find what the files say, as far as they
come, and they end alike as soon as both have resolved their seeds (`Run.Consistent`,
`Run.cache_invisible`).
-/

namespace Monomorph

/-! ## Runs around their stages -/

namespace Run

/-- Unless the run is dry, what was found is written. -/
def written (home : Text) (start : Instant) (req : Request) (w : Monitor) (d : Disk) :
    (Except RunError Unit × Monitor) × Disk :=
  if req.dryRun then ((.ok (), w), d) else Work.exec (writeTypes home start req) w d

/-- The stages find types and then, unless the run is dry, write them. -/
theorem exec_stages (home : Text) (start : Instant) (req : Request) (n : Nat) (crew : Crew DiskM)
    (w : Monitor) (d : Disk) :
    Work.exec (stages home start req n crew) w d = match Work.exec (findTypes req n crew) w d with
      | ((.ok _, w₁), d₁) =>
          let o := written home start req w₁ d₁
          ((o.1.1.map fun _ => o.1.2.products.resolution.types.length, o.1.2), o.2)
      | ((.error e, w₁), d₁) => ((.error e, w₁), d₁) := by
  unfold stages written
  rw [Work.exec_bind]
  rcases Work.exec (findTypes req n crew) w d with ⟨⟨r, w₁⟩, d₁⟩
  cases r with
  | error e => rfl
  | ok u =>
      dsimp only
      cases req.dryRun with
      | true => rfl
      | false =>
          show Work.exec (writeTypes home start req >>= fun _ => _) w₁ d₁ = _
          rw [Work.exec_bind]
          rcases Work.exec (writeTypes home start req) w₁ d₁ with ⟨⟨r, w₂⟩, d₂⟩
          cases r <;> rfl

/-- A run ends as its stages do. -/
theorem exec_run (home : Text) (req : Request) (h : refusal? req = none) (crew : Crew DiskM)
    (w : Monitor) (d : Disk) :
    ∃ n tracer tracer' elapsed, Work.exec (run home (some req) crew) w d
      = let o := Work.exec (stages home d.clock req n crew) { w with tracer } d
        ((o.1.1.map fun _ => (),
            { o.1.2 with tracer := tracer', products := { o.1.2.products with elapsed } }),
          o.2) := by
  have hnow : ∀ (w : Monitor) (d : Disk), Work.exec (Work.now : Work DiskM RunError Instant) w d
      = ((.ok d.clock, w), d) := fun _ _ => rfl
  obtain ⟨n, tracer, tracer', hspan⟩ := Work.exec_spanned .run ("concretize:" ++ req.target) 0
    RunError.message (fun n : Nat => { values := [("types", Text.ofNat n)] })
    (fun span => stages home d.clock req span crew) w d
  refine ⟨n, tracer, tracer', ?_⟩
  unfold run
  dsimp only
  rw [h]
  dsimp only
  rw [Work.exec_bind, hnow]
  dsimp only
  rw [Work.exec_bind, Work.exec_outcome, hspan]
  rcases Work.exec (stages home d.clock req n crew) { w with tracer } d with ⟨⟨r, w'⟩, d'⟩
  cases r with
  | ok a => exact ⟨_, rfl⟩
  | error e => exact ⟨_, rfl⟩

theorem exec_run_refused (home : Text) {req : Request} {e : RunError} (h : refusal? req = some e)
    (crew : Crew DiskM) (w : Monitor) (d : Disk) :
    Work.exec (run home (some req) crew) w d = ((.error e, w), d) := by
  unfold run
  dsimp only
  rw [h]
  rfl

end Run

/-! ## Caches apart from what is written -/

/-- The output and the report of a request are not written over entries of the cache or around
them. -/
structure PoolCache.Apart (c : PoolCache) (cwd : Place) (req : Request) : Prop where
  output : ∀ key, ¬ Path.place cwd req.output <+: Path.place cwd (c.pathFor key)
  report : ∀ key, Path.place cwd req.reportFile ≠ Path.place cwd (c.pathFor key)

/-- A trusted cache that is apart stays trusted while a run writes. -/
theorem PoolCache.spares_trusted (c : PoolCache) (involved : Set (List UInt8)) (cwd : Place)
    (req : Request) :
    Run.Spares cwd req fun t => c.Apart cwd req → c.Trusted involved cwd t := by
  refine ⟨⟨?_, ?_, ?_, ?_⟩, ?_⟩
  · exact fun t z ht hz hapart => extends_trusted t z (ht hapart) hz
  · intro t dir z bytes ht hz hapart
    exact (ht hapart).insert hz.ne_root fun key _ hplace _ =>
      absurd hplace (aside_ne_place hz (by decide) key)
  · exact fun t dir z ht hz hapart => (ht hapart).erase hz.ne_root
  · intro t dir z ht hz hapart key bytes hget
    rw [FileTree.get?_move_apart t (hapart.output key)] at hget
    split at hget
    · cases hget
    · exact ht hapart key bytes hget
  · intro t bytes ht hz hapart
    exact (ht hapart).insert hz fun key _ hplace _ => absurd hplace (hapart.report key)

/-! ## Two ends of a run -/

/-- A run failed to write a file. -/
def Run.Unwritten {α : Type} (r : Except RunError α) : Prop :=
  ∃ s cause, r = .error (.stage s cause) ∧ cause.OnWriting

/-- Two ends of a run, each an outcome with the monitor and the disk that it left. -/
structure Run.SameEnd {α : Type} (c : PoolCache) (involved : Set (List UInt8)) (cwd : Place)
    (req : Request) (r r' : (Except RunError α × Monitor) × Disk) : Prop where
  /-- The same instances were found in the modules. -/
  pool : r'.1.2.products.pool = r.1.2.products.pool
  /-- The same types were resolved, with the same counters. -/
  resolved : r'.1.2.products.resolved = r.1.2.products.resolved
  /-- The outcomes are the same, unless one run failed to write a file. -/
  outcome : ¬ Unwritten r.1.1 → ¬ Unwritten r'.1.1 →
    r'.1.1 = r.1.1 ∧ r'.1.2.products.emitted = r.1.2.products.emitted
  /-- The same module was written, and the same file stands at the output. -/
  output : ∀ a a', r.1.1 = .ok a → r'.1.1 = .ok a' → req.dryRun = false →
    ∃ m bytes, r.1.2.products.emitted = some m ∧ r'.1.2.products.emitted = some m ∧
      m.encode = .ok bytes ∧
      r'.2.tree.get? (Path.place cwd req.output) = r.2.tree.get? (Path.place cwd req.output) ∧
      ((Path.place cwd req.reportFile = Path.place cwd req.output → req.reportDir = []) →
        r.2.tree.get? (Path.place cwd req.output) = some (.file bytes))
  /-- The cache of the second run can be trusted again. -/
  trusted : c.Apart cwd req → c.Trusted involved cwd r'.2.tree

namespace Run

theorem encode_of_emission {req : Request} {p : Products} {m : Module} {bytes : List UInt8}
    (h : emission req p = .ok (m, bytes)) : m.encode = .ok bytes := by
  unfold emission Emit.made at h
  cases hbuild : Emit.build req.target p.resolution.types p.registry with
  | error e => simp [hbuild, Except.mapError] at h
  | ok m' =>
      cases hencode : m'.encode with
      | error f => simp [hbuild, Module.contents, hencode, Except.mapError] at h
      | ok bytes' =>
          simp only [hbuild, Module.contents, hencode, Except.mapError] at h
          cases h
          exact hencode

theorem Unwritten.map {α β : Type} {f : α → β} {r : Except RunError α} (h : Unwritten r) :
    Unwritten (r.map f) := by
  obtain ⟨s, cause, rfl, hcause⟩ := h
  exact ⟨s, cause, rfl, hcause⟩

section Ends

variable {c : PoolCache} {involved : Set (List UInt8)} {cwd : Place} {clock start : Instant}
  {home : Text} {req : Request}

/-- Ends stay the same when the same is made of both. -/
theorem SameEnd.map {α β : Type} {r r' : (Except RunError α × Monitor) × Disk}
    (h : SameEnd c involved cwd req r r') {f f' : α → β} (hf : ∀ a, f' a = f a) {w w' : Monitor}
    (hpool : w.products.pool = r.1.2.products.pool ∧ w'.products.pool = r'.1.2.products.pool)
    (hresolved : w.products.resolved = r.1.2.products.resolved ∧
      w'.products.resolved = r'.1.2.products.resolved)
    (hemitted : w.products.emitted = r.1.2.products.emitted ∧
      w'.products.emitted = r'.1.2.products.emitted) :
    SameEnd c involved cwd req ((r.1.1.map f, w), r.2) ((r'.1.1.map f', w'), r'.2) := by
  obtain ⟨⟨r, w₁⟩, d⟩ := r
  obtain ⟨⟨r', w₁'⟩, d'⟩ := r'
  refine ⟨?_, ?_, ?_, ?_, h.trusted⟩
  · rw [hpool.1, hpool.2]
    exact h.pool
  · rw [hresolved.1, hresolved.2]
    exact h.resolved
  · intro hr hr'
    obtain ⟨hout, hsame⟩ := h.outcome (mt Unwritten.map hr) (mt Unwritten.map hr')
    refine ⟨?_, ?_⟩
    · obtain rfl : r' = r := hout
      cases r' with
      | ok a => exact congrArg Except.ok (hf a)
      | error e => rfl
    · rw [hemitted.1, hemitted.2]
      exact hsame
  · intro b b' hb hb' hdry
    rw [hemitted.1, hemitted.2]
    cases r with
    | error e => cases hb
    | ok a =>
        cases r' with
        | error e => cases hb'
        | ok a' => exact h.output a a' rfl rfl hdry

theorem Written.found {p q : Products} {t : FileTree} {r : Except RunError Unit}
    (h : Written cwd home req start clock p r q t) : q.pool = p.pool ∧ q.resolved = p.resolved := by
  cases h with
  | done m bytes path hr hmade hq hfile => exact hq ▸ ⟨rfl, rfl⟩
  | unmade cause hr hmade hq => exact hq ▸ ⟨rfl, rfl⟩
  | unwritten s cause emitted hr hcause hq => exact hq ▸ ⟨rfl, rfl⟩

/-- What is written depends on the products alone, unless a file cannot be written, and not on what
they count of a cache. -/
theorem Written.outcome {p q q' : Products} {hits misses : Nat} {t t' : FileTree}
    {r r' : Except RunError Unit} (h : Written cwd home req start clock p r q t)
    (h' : Written cwd home req start clock { p with hits, misses } r' q' t')
    (hr : ¬ Unwritten r) (hr' : ¬ Unwritten r') : r' = r ∧ q'.emitted = q.emitted := by
  cases h with
  | unwritten s cause emitted hfail hcause => exact absurd ⟨s, cause, hfail, hcause⟩ hr
  | done m bytes path hok hmade hq =>
      cases h' with
      | unwritten s cause emitted hfail hcause => exact absurd ⟨s, cause, hfail, hcause⟩ hr'
      | unmade cause hfail hmade' => cases hmade.symm.trans hmade'
      | done m' bytes' path' hok' hmade' hq' =>
          cases hmade.symm.trans hmade'
          exact ⟨hok'.trans hok.symm, by rw [hq, hq']⟩
  | unmade cause hfail hmade hq =>
      cases h' with
      | unwritten s cause emitted hfail hcause => exact absurd ⟨s, cause, hfail, hcause⟩ hr'
      | done m bytes path hok hmade' => cases hmade.symm.trans hmade'
      | unmade cause' hfail' hmade' hq' =>
          cases hmade.symm.trans hmade'
          exact ⟨hfail'.trans hfail.symm, by rw [hq, hq']⟩

theorem Written.output {p q : Products} {t : FileTree} {u : Unit}
    (h : Written cwd home req start clock p (.ok u) q t) :
    ∃ m bytes, emission req p = .ok (m, bytes) ∧ q.emitted = some m ∧
      t.get? (Path.place cwd req.output)
        = some (.file (outputBytes cwd home req start clock p bytes)) := by
  cases h with
  | done m bytes path hr hmade hq hfile => exact ⟨m, bytes, hmade, by rw [hq], hfile⟩
  | unmade cause hr => cases hr
  | unwritten s cause emitted hr => cases hr

theorem spares_true {cwd : Place} : Spares cwd req fun _ => True :=
  ⟨⟨fun _ _ _ _ => trivial, fun _ _ _ _ _ _ => trivial, fun _ _ _ _ _ => trivial,
    fun _ _ _ _ _ => trivial⟩, fun _ _ _ _ => trivial⟩

/-- From products that differ at most in what they count of a cache, the stages that write end
alike. -/
theorem sameEnd_writeTypes {env : Surroundings} {w w' : Monitor} {d d' : Disk}
    (hw : ∃ hits misses, w'.products = { w.products with hits, misses })
    (hd : Disk.Beside env (c.Trusted involved env.cwd) d d') :
    SameEnd c involved env.cwd req (Work.exec (writeTypes home start req) w d)
      (Work.exec (writeTypes home start req) w' d') := by
  obtain ⟨-, hplain⟩ := exec_writeTypes home start spares_true w hd.left trivial
  obtain ⟨htrusted, hcached⟩ := exec_writeTypes home start
    (c.spares_trusted involved env.cwd req) w' hd.right fun _ => hd.tree
  obtain ⟨hits, misses, hproducts⟩ := hw
  rw [hproducts] at hcached
  refine ⟨?_, ?_, hplain.outcome hcached, ?_, htrusted⟩
  · exact hcached.found.1.trans hplain.found.1.symm
  · exact hcached.found.2.trans hplain.found.2.symm
  · intro u u' hr hr' _
    rw [hr] at hplain
    rw [hr'] at hcached
    obtain ⟨m, bytes, hmade, hemitted, hfile⟩ := hplain.output
    obtain ⟨m', bytes', hmade', hemitted', hfile'⟩ := hcached.output
    cases hmade.symm.trans hmade'
    refine ⟨m, bytes, hemitted, hemitted', encode_of_emission hmade, hfile'.trans hfile.symm, ?_⟩
    intro hplaces
    rw [hfile, outputBytes, if_neg fun hreport => hreport.1 (hplaces hreport.2)]

/-- Runs with such products that write nothing end alike. -/
theorem sameEnd_of_alike {α : Type} {env : Surroundings} {w w' : Monitor} {d d' : Disk}
    (hw : ∃ hits misses, w'.products = { w.products with hits, misses })
    (hd : Disk.Beside env (c.Trusted involved env.cwd) d d') {r : Except RunError α}
    (hr : ∀ a, r = .ok a → req.dryRun = true) :
    SameEnd c involved env.cwd req ((r, w), d) ((r, w'), d') := by
  obtain ⟨hits, misses, hproducts⟩ := hw
  refine ⟨?_, ?_, fun _ _ => ⟨rfl, ?_⟩, ?_, fun _ => hd.tree⟩
  · exact (congrArg Products.pool hproducts :)
  · exact (congrArg Products.resolved hproducts :)
  · exact (congrArg Products.emitted hproducts :)
  · intro a _ ha _ hdry
    rw [hr a ha] at hdry
    cases hdry

theorem sameEnd_written {env : Surroundings} {w w' : Monitor} {d d' : Disk}
    (hw : ∃ hits misses, w'.products = { w.products with hits, misses })
    (hd : Disk.Beside env (c.Trusted involved env.cwd) d d') :
    SameEnd c involved env.cwd req (written home start req w d) (written home start req w' d') := by
  unfold written
  by_cases hdry : req.dryRun = true
  · rw [if_pos hdry, if_pos hdry]
    exact sameEnd_of_alike hw hd fun _ _ => hdry
  · rw [if_neg hdry, if_neg hdry]
    exact sameEnd_writeTypes hw hd

/-- Taken one after another, all stages end alike. -/
theorem sameEnd_stages (hfiles : PoolCache.Discernible involved) {w w' : Monitor} {d : Disk}
    (hw : w.Agree involved w') (hoffers : d.tree.Offers involved d.cwd req.paths)
    (htrusted : c.Trusted involved d.cwd d.tree) (n n' : Nat) :
    SameEnd c involved d.cwd req
      (Work.exec (stages home start { req with cache := none } n) w d)
      (Work.exec (stages home start { req with cache := some c } n') w' d) := by
  obtain ⟨hout, hmonitors, hdisks⟩ :=
    lockstep_findTypes n n' hfiles hoffers htrusted w w' d d hw ⟨rfl, rfl, rfl⟩
  rw [exec_stages, exec_stages]
  rcases hx : Work.exec (findTypes { req with cache := none } n) w d with ⟨⟨r, w₁⟩, d₁⟩
  rcases hy : Work.exec (findTypes { req with cache := some c } n') w' d with ⟨⟨r', w₁'⟩, d₁'⟩
  rw [hx, hy] at hout hmonitors hdisks
  cases hout with
  | error e => exact sameEnd_of_alike hmonitors.products.alike hdisks fun _ he => by cases he
  | ok _ =>
      have hend : SameEnd c involved d.cwd req (written home start req w₁ d₁)
          (written home start req w₁' d₁') := sameEnd_written hmonitors.products.alike hdisks
      exact hend.map (fun _ => congrArg (fun r => (Option.getD r {}).types.length) hend.resolved)
        ⟨rfl, rfl⟩ ⟨rfl, rfl⟩ ⟨rfl, rfl⟩

end Ends

theorem sameEnd_run {c : PoolCache} {involved : Set (List UInt8)}
    (hfiles : PoolCache.Discernible involved) {w : Monitor} {d : Disk} {home : Text}
    {req : Request} (hw : w.products = {}) (hoffers : d.tree.Offers involved d.cwd req.paths)
    (htrusted : c.Trusted involved d.cwd d.tree) :
    SameEnd c involved d.cwd req
      (Work.exec (run home (some { req with cache := none })) w d)
      (Work.exec (run home (some { req with cache := some c })) w d) := by
  have hagree : ∀ tracer tracer', Monitor.Agree involved { w with tracer }
      { w with tracer := tracer' } := by
    intro tracer tracer'
    refine ⟨⟨⟨w.products.hits, w.products.misses, rfl⟩, ?_⟩, rfl, rfl, rfl⟩
    simp [hw]
  cases hrefused : refusal? req with
  | some e =>
      have hrefused₀ : refusal? { req with cache := none } = some e := hrefused
      have hrefused₁ : refusal? { req with cache := some c } = some e := hrefused
      rw [exec_run_refused home hrefused₀, exec_run_refused home hrefused₁]
      exact sameEnd_of_alike ⟨_, _, rfl⟩ ⟨rfl, rfl, htrusted⟩ fun _ he => by cases he
  | none =>
      obtain ⟨n, tracer, tracer₁, elapsed, hplain⟩ :=
        exec_run home { req with cache := none } hrefused .single w d
      obtain ⟨n', tracer', tracer₁', elapsed', hcached⟩ :=
        exec_run home { req with cache := some c } hrefused .single w d
      rw [hplain, hcached]
      exact (sameEnd_stages hfiles (hagree tracer tracer') hoffers htrusted n n').map
        (fun _ => rfl) ⟨rfl, rfl⟩ ⟨rfl, rfl⟩ ⟨rfl, rfl⟩

/-! ## Workers that take turns -/

/-- Nothing calls the run off, and no opening of a file is made to fail. -/
structure Undisturbed (turns : Stage → List Turn) (w : Monitor) (d : Disk) : Prop where
  turns : ∀ s, .cancel ∉ turns s
  cancelled : w.cancelled = false
  events : ∀ p, w.cancelsOn p = false
  openings : ∀ n, d.faults n .opening = none

/-- A run that starts afresh, with files of which `P` holds and a cache that serves. It is not
disturbed, unless `off` holds. -/
structure Starts (off : Prop) (P : FileTree → Prop) (req : Request) (turns : Stage → List Turn)
    (w : Monitor) (d : Disk) : Prop where
  products : w.products = {}
  proceeds : ¬ off → Undisturbed turns w d
  tree : P d.tree
  served : ∀ ls, loaded? d.cwd d.tree req = some ls →
    Served d.toSurroundings P off (fun m pool => pool = Pool.ofModule m) req.cache ls

section Turns

variable {req : Request} {turns : Stage → List Turn} {w : Monitor} {d : Disk} {off : Prop}
  {P K : FileTree → Prop}

theorem Starts.traced (h : Starts off P req turns w d) (tracer : Trace.Tracer) :
    Starts off P req turns { w with tracer } d where
  products := h.products
  proceeds hon := ⟨(h.proceeds hon).turns, (h.proceeds hon).cancelled, (h.proceeds hon).events,
    (h.proceeds hon).openings⟩
  tree := h.tree
  served := h.served

theorem starts_plain (hw : w.products = {}) :
    Starts (¬ Undisturbed turns w d) (fun _ => True) { req with cache := none } turns w d :=
  ⟨hw, not_not.mp, trivial, fun ls _ => served_none (fun _ => by rfl) ls⟩

theorem starts_cached {c : PoolCache} {involved : Set (List UInt8)}
    (hfiles : PoolCache.Discernible involved) (hoffers : d.tree.Offers involved d.cwd req.paths)
    (htrusted : c.Trusted involved d.cwd d.tree) (hw : w.products = {}) :
    Starts (¬ Undisturbed turns w d) (c.Trusted involved d.cwd) { req with cache := some c } turns
      w d :=
  ⟨hw, not_not.mp, htrusted, fun _ hls => served_trusted hfiles (genuine_of_loaded? hls hoffers)⟩

theorem exec_findTypes (h : Starts off P req turns w d) (n : Nat) :
    match Work.exec (findTypes req n (.taking turns)) w d with
    | ((.ok _, w₁), d₁) => ∃ ls, loaded? d.cwd d.tree req = some ls ∧ ∃ hits misses r,
        resolved? req ls = some r ∧ Steady d.toSurroundings P
          { found req ls with resolved := some r, hits, misses } off w₁ d₁
    | ((.error _, w₁), d₁) => Partly d.toSurroundings P d.tree req off w₁ d₁ := by
  have hturns : ∀ s, .cancel ∈ turns s → off := by
    intro s hcancel
    by_contra hon
    exact (h.proceeds hon).turns s hcancel
  have hstart : Steady d.toSurroundings (· = d.tree) {} off w d :=
    ⟨rfl, rfl, h.products, fun hon => ⟨(h.proceeds hon).cancelled, (h.proceeds hon).events⟩⟩
  have hend := ensures_findTypes h.tree hturns (fun hon => (h.proceeds hon).openings) h.served n w d
    hstart
  rcases hx : Work.exec (findTypes req n (.taking turns)) w d with ⟨⟨r, w₁⟩, d₁⟩
  rw [hx] at hend
  cases r with
  | ok u => exact hend
  | error e => exact hend

/-- Writing leaves what was found. -/
theorem written_found {env : Surroundings} (home : Text) (start : Instant)
    (hspares : Spares env.cwd req K) (hd : d.toSurroundings = env) (hK : K d.tree) :
    let o := written home start req w d
    (o.1.2.products.pool = w.products.pool ∧ o.1.2.products.resolved = w.products.resolved) ∧
      K o.2.tree := by
  unfold written
  by_cases hdry : req.dryRun = true
  · rw [if_pos hdry]
    exact ⟨⟨rfl, rfl⟩, hK⟩
  · rw [if_neg hdry]
    obtain ⟨hkept, hwritten⟩ := exec_writeTypes home start hspares w hd hK
    exact ⟨hwritten.found, hkept⟩

/-- Whatever turns are taken, all stages find what the files say, as far as they come. They succeed
only with the seeds resolved. -/
theorem finds_stages (h : Starts off P req turns w d) (hspares : Spares d.cwd req K)
    (hPK : ∀ t, P t → K t) (home : Text) (start : Instant) (n : Nat) :
    let o := Work.exec (stages home start req n (.taking turns)) w d
    Finds d.cwd d.tree req off o.1.2.products ∧ K o.2.tree ∧
      ∀ a, o.1.1 = .ok a → o.1.2.products.resolved.isSome := by
  have hend := exec_findTypes h n
  rw [exec_stages]
  rcases hx : Work.exec (findTypes req n (.taking turns)) w d with ⟨⟨r, w₁⟩, d₁⟩
  rw [hx] at hend
  cases r with
  | error e =>
      obtain ⟨p, ⟨hfinds, -⟩, h₁⟩ := hend
      refine ⟨?_, hPK _ h₁.tree, fun a ha => by cases ha⟩
      dsimp only
      rw [h₁.products]
      exact hfinds
  | ok u =>
      obtain ⟨ls, hls, hits, misses, r, hr, h₁⟩ := hend
      obtain ⟨⟨hpool, hresolved⟩, hkept⟩ :=
        written_found (w := w₁) home start hspares h₁.env (hPK _ h₁.tree)
      rw [h₁.products] at hpool hresolved
      refine ⟨.all hls hr hpool hresolved, hkept, fun _ _ => ?_⟩
      dsimp only
      rw [hresolved]
      rfl

theorem finds_run (h : Starts off P req turns w d) (hspares : Spares d.cwd req K)
    (hPK : ∀ t, P t → K t) (home : Text) (hrefused : refusal? req = none) :
    let o := Work.exec (run home (some req) (.taking turns)) w d
    Finds d.cwd d.tree req off o.1.2.products ∧ K o.2.tree ∧
      ∀ a, o.1.1 = .ok a → o.1.2.products.resolved.isSome := by
  obtain ⟨n, tracer, tracer', elapsed, hexec⟩ := exec_run home req hrefused (.taking turns) w d
  obtain ⟨hfinds, hkept, hok⟩ := finds_stages (h.traced tracer) hspares hPK home d.clock n
  rw [hexec]
  refine ⟨⟨hfinds.pool, hfinds.resolved, hfinds.complete⟩, hkept, fun a ha => ?_⟩
  revert ha hok
  dsimp only
  cases (Work.exec (stages home d.clock req n (.taking turns)) { w with tracer } d).1.1 with
  | ok b => exact fun hok _ => hok b rfl
  | error e => rintro - ⟨⟩

end Turns

/-- Two ends of a run, whose workers took turns of their own. -/
structure Consistent (c : PoolCache) (involved : Set (List UInt8)) (cwd : Place) (req : Request)
    (undisturbed : Prop) (r r' : (Except RunError Unit × Monitor) × Disk) : Prop where
  /-- When both have harvested, it was the same. -/
  pool : ∀ p p', r.1.2.products.pool = some p → r'.1.2.products.pool = some p' → p' = p
  /-- When both have resolved their seeds, they end alike. -/
  sameEnd : r.1.2.products.resolved.isSome → r'.1.2.products.resolved.isSome →
    SameEnd c involved cwd req r r'
  /-- They succeed only with resolved seeds. -/
  resolved : (∀ a, r.1.1 = .ok a → r.1.2.products.resolved.isSome) ∧
    ∀ a, r'.1.1 = .ok a → r'.1.2.products.resolved.isSome
  /-- Undisturbed, they find the same. -/
  complete : undisturbed → r'.1.2.products.pool = r.1.2.products.pool ∧
    r'.1.2.products.resolved = r.1.2.products.resolved
  /-- The cache of the second run can be trusted again. -/
  trusted : c.Apart cwd req → c.Trusted involved cwd r'.2.tree

section Consistent

variable {c : PoolCache} {involved : Set (List UInt8)} {req : Request} {w w' : Monitor} {d : Disk}
  (hfiles : PoolCache.Discernible involved) (hoffers : d.tree.Offers involved d.cwd req.paths)
  (htrusted : c.Trusted involved d.cwd d.tree) (turns turns' : Stage → List Turn) (home : Text)

include hfiles hoffers htrusted

/-- Once the seeds are resolved with and without the cache, all stages end alike. -/
theorem sameEnd_resolved (hw : w.products = {}) (hw' : w'.products = {}) (start : Instant)
    (n n' : Nat) :
    let o := Work.exec (stages home start { req with cache := none } n (.taking turns)) w d
    let o' := Work.exec (stages home start { req with cache := some c } n' (.taking turns')) w' d
    o.1.2.products.resolved.isSome → o'.1.2.products.resolved.isSome →
      SameEnd c involved d.cwd req o o' := by
  have hplain := exec_findTypes (starts_plain hw : Starts _ _ { req with cache := none } turns w d) n
  have hcached := exec_findTypes (starts_cached hfiles hoffers htrusted hw' :
    Starts _ _ { req with cache := some c } turns' w' d) n'
  have hunresolved : ∀ {P : FileTree → Prop} {req off w₁ d₁},
      Partly d.toSurroundings P d.tree req off w₁ d₁ → ¬ w₁.products.resolved.isSome := by
    rintro P req off w₁ d₁ ⟨p, ⟨-, hnone⟩, h⟩ hsome
    rw [h.products, hnone] at hsome
    cases hsome
  dsimp only
  rw [exec_stages, exec_stages]
  rcases hx : Work.exec (findTypes { req with cache := none } n (.taking turns)) w d with
    ⟨⟨r, w₁⟩, d₁⟩
  rcases hy : Work.exec (findTypes { req with cache := some c } n' (.taking turns')) w' d with
    ⟨⟨r', w₁'⟩, d₁'⟩
  rw [hx] at hplain
  rw [hy] at hcached
  cases r with
  | error e => exact fun hsome => absurd hsome (hunresolved hplain)
  | ok u =>
      cases r' with
      | error e => exact fun _ hsome => absurd hsome (hunresolved hcached)
      | ok u' =>
          intro _ _
          obtain ⟨ls, hls, hits, misses, res, hres, h⟩ := hplain
          obtain ⟨ls', hls', hits', misses', res', hres', h'⟩ := hcached
          obtain rfl : ls' = ls := Option.some.inj (hls'.symm.trans hls)
          obtain rfl : res' = res := Option.some.inj (hres'.symm.trans hres)
          have hend : SameEnd c involved d.cwd req (written home start req w₁ d₁)
              (written home start req w₁' d₁') :=
            sameEnd_written ⟨hits', misses', by rw [h.products, h'.products]; rfl⟩
              ⟨h.env, h'.env, h'.tree⟩
          exact hend.map
            (fun _ => congrArg (fun r => (Option.getD r {}).types.length) hend.resolved)
            ⟨rfl, rfl⟩ ⟨rfl, rfl⟩ ⟨rfl, rfl⟩

theorem consistent_run (hw : w.products = {}) :
    Consistent c involved d.cwd req (Undisturbed turns w d ∧ Undisturbed turns' w d)
      (Work.exec (run home (some { req with cache := none }) (.taking turns)) w d)
      (Work.exec (run home (some { req with cache := some c }) (.taking turns')) w d) := by
  cases hrefused : refusal? req with
  | some e =>
      have hrefused₀ : refusal? { req with cache := none } = some e := hrefused
      have hrefused₁ : refusal? { req with cache := some c } = some e := hrefused
      rw [exec_run_refused home hrefused₀, exec_run_refused home hrefused₁]
      refine ⟨?_, ?_, ?_, fun _ => ⟨rfl, rfl⟩, fun _ => htrusted⟩
      · simp [hw]
      · simp [hw]
      · exact ⟨fun _ ha => (by cases ha), fun _ ha => (by cases ha)⟩
  | none =>
      have hplain : Starts _ _ { req with cache := none } turns w d := starts_plain hw
      have hcached : Starts _ _ { req with cache := some c } turns' w d :=
        starts_cached hfiles hoffers htrusted hw
      obtain ⟨hfinds, -, hok⟩ := finds_run hplain spares_true (fun _ => id) home hrefused
      obtain ⟨hfinds', hkept, hok'⟩ := finds_run hcached (c.spares_trusted involved d.cwd _)
        (fun _ ht _ => ht) home hrefused
      refine ⟨?_, ?_, ⟨hok, hok'⟩, ?_, fun hapart => hkept ⟨hapart.output, hapart.report⟩⟩
      · intro p p' hp hp'
        exact Option.some.inj ((hfinds'.pool p' hp').symm.trans (hfinds.pool p hp))
      · obtain ⟨n, tracer, tracer₁, elapsed, hexec⟩ :=
          exec_run home { req with cache := none } hrefused (.taking turns) w d
        obtain ⟨n', tracer', tracer₁', elapsed', hexec'⟩ :=
          exec_run home { req with cache := some c } hrefused (.taking turns') w d
        rw [hexec, hexec']
        intro hsome hsome'
        have hw₁ : ({ w with tracer } : Monitor).products = {} := hw
        have hw₂ : ({ w with tracer := tracer' } : Monitor).products = {} := hw
        exact (sameEnd_resolved hfiles hoffers htrusted turns turns' home hw₁ hw₂ d.clock n n' hsome
          hsome').map (fun _ => rfl) ⟨rfl, rfl⟩ ⟨rfl, rfl⟩ ⟨rfl, rfl⟩
      · rintro ⟨hstill, hstill'⟩
        obtain ⟨hpool, hresolved⟩ := hfinds.complete (not_not.mpr hstill)
        obtain ⟨hpool', hresolved'⟩ := hfinds'.complete (not_not.mpr hstill')
        exact ⟨hpool'.trans hpool.symm, hresolved'.trans hresolved.symm⟩

end Consistent

end Run

/-! ## Histories of a cache -/

/-- Files that come about when runs use the cache, whatever turns their workers take; without any,
they act one after another (`Crew.taking_nil`). In the beginning, and whenever something else changes
the files, an entry is gone, unusable, or one that a run would have kept. -/
inductive PoolCache.History (c : PoolCache) (involved : Set (List UInt8)) (cwd : Place) :
    FileTree → Prop
  | start {t : FileTree} (h : c.Trusted involved cwd t) : History c involved cwd t
  | edit {t t' : FileTree} (h : History c involved cwd t)
      (hedit : ∀ key bytes, t'.get? (Path.place cwd (c.pathFor key)) = some (.file bytes) →
        t.get? (Path.place cwd (c.pathFor key)) = some (.file bytes) ∨
          Honest involved key bytes) : History c involved cwd t'
  | run {w : Monitor} {d : Disk} {home : Text} {req : Request} (turns : Stage → List Turn)
      (h : History c involved cwd d.tree) (hcwd : d.cwd = cwd) (hw : w.products = {})
      (hoffers : d.tree.Offers involved cwd req.paths) (hapart : c.Apart cwd req) :
      History c involved cwd
        (Work.exec (Run.run home (some { req with cache := some c }) (.taking turns)) w d).2.tree

/-- Whatever runs a cache has seen, it can be trusted. -/
theorem PoolCache.History.trusted {c : PoolCache} {involved : Set (List UInt8)} {cwd : Place}
    {t : FileTree} (hfiles : Discernible involved) (h : c.History involved cwd t) :
    c.Trusted involved cwd t := by
  induction h with
  | start h => exact h
  | edit h hedit ih =>
      intro key bytes hget
      rcases hedit key bytes hget with hold | hhonest
      · exact ih key bytes hold
      · exact hhonest
  | run turns h hcwd hw hoffers hapart ih =>
      subst hcwd
      exact (Run.consistent_run hfiles hoffers ih turns turns _ hw).trusted hapart

/-- **The cache cannot be seen.** A run with a cache ends as the run without a cache does, whatever
the history of the cache. If workers take turns, whatever they are, the two runs are consistent: they
end alike once both have resolved their seeds, and find the same where nothing disturbs them. The
files that are involved are those that the entries were made of and those that are read now. -/
theorem Run.cache_invisible {involved : Set (List UInt8)} (hfiles : PoolCache.Discernible involved)
    (c : PoolCache) (home : Text) (req : Request) (w : Monitor) (d : Disk) (hw : w.products = {})
    (hoffers : d.tree.Offers involved d.cwd req.paths)
    (hhistory : c.History involved d.cwd d.tree) :
    SameEnd c involved d.cwd req
        (Work.exec (run home (some { req with cache := none })) w d)
        (Work.exec (run home (some { req with cache := some c })) w d) ∧
      ∀ turns turns' : Stage → List Turn,
        Consistent c involved d.cwd req (Undisturbed turns w d ∧ Undisturbed turns' w d)
          (Work.exec (run home (some { req with cache := none }) (.taking turns)) w d)
          (Work.exec (run home (some { req with cache := some c }) (.taking turns')) w d) := by
  have htrusted := hhistory.trusted hfiles
  exact ⟨sameEnd_run hfiles hw hoffers htrusted, fun turns turns' =>
    consistent_run hfiles hoffers htrusted turns turns' home hw⟩

namespace Sample

/-- `Program` derives from `Wrapper<int>`, and `Wrapper<T>.Run`, which nothing calls, mentions
`Box<T>`. -/
def lending : Module :=
  let run := { MethodDef.new "Run" 0 [] with
    body := code [withType .ldtoken (.applied "App.Box`1" [.typeParam "T" 0 "App.Wrapper`1"])] }
  .new "App"
    [cls "Wrapper`1" ["T"] [run], cls "Program" [] [] (.applied "App.Wrapper`1" [int32])]

def lendingFile : List UInt8 := lending.fileBytes

theorem decode_lendingFile : Module.decode lendingFile = .ok lending :=
  Module.decode_fileBytes (by decide +kernel) (by decide +kernel)

def cache : PoolCache := ⟨"cache"⟩

/-- Two copies of the file, and a cache with the entry of its pool. -/
def stocked : Disk :=
  { tree :=
      ({} : FileTree)
        |>.insert (Path.place [] (cache.pathFor (Digest.sum lendingFile)))
          (.file (PoolShelf.entryFor lending.name (Pool.ofModule lending)).encode)
        |>.insert ["cache"] .dir
        |>.insert ["cache", "pools"] .dir
        |>.insert ["m1"] (.file lendingFile)
        |>.insert ["m2"] (.file lendingFile) }

theorem trusted_stocked : cache.Trusted { lendingFile } stocked.cwd stocked.tree := by
  have hfresh : cache.Trusted { lendingFile } [] {} := by
    intro key bytes hget
    rw [FileTree.get?, if_neg (cache.place_ne_root [] key)] at hget
    cases hget
  have hfile : ∀ n, Disk.Aside [] "m" [("m" : Text) ++ Text.ofNat n] := fun n => ⟨n, rfl⟩
  refine ((((hfresh.insert (cache.place_ne_root [] _) ?_).insert (by decide) ?_).insert (by decide)
    ?_).insert (by decide) ?_).insert (by decide) ?_
  · rintro key bytes hplace ⟨⟩
    obtain rfl := PoolCache.place_inj hplace
    exact .inr ⟨lendingFile, rfl, lending, decode_lendingFile, rfl, rfl⟩
  · rintro key bytes - ⟨⟩
  · rintro key bytes - ⟨⟩
  · exact fun key _ hplace _ => absurd hplace (PoolCache.aside_ne_place (hfile 1) (by decide) key)
  · exact fun key _ hplace _ => absurd hplace (PoolCache.aside_ne_place (hfile 2) (by decide) key)

/-- Resolves `Box` in both copies. -/
def twice : Request :=
  { target := "Made", output := "made.module", paths := ["m1", "m2"], seeds := ["App.Box`1"] }

end Sample

open Sample in
/-- The entry serves both copies, also when the second worker overtakes the first. What is bound with
it is what is bound without it. -/
theorem Run.cache_invisible_stocked :
    (let found :=
        (Work.exec (run "" (some { twice with cache := some cache })) {} stocked).1.2.products
     found.hits = 2 ∧ found.resolution.types.map TypeRef.fullName
        = [("App.Box`1<System.Int32>" : Text)]) ∧
    (let found := (Work.exec (run "" (some { twice with cache := some cache })
        (.taking overtaking)) {} stocked).1.2.products
     found.hits = 2 ∧ found.resolved.isSome) ∧
    SameEnd cache { lendingFile } stocked.cwd twice
      (Work.exec (run "" (some { twice with cache := none })) {} stocked)
      (Work.exec (run "" (some { twice with cache := some cache })) {} stocked) ∧
    Undisturbed overtaking {} stocked ∧
    Consistent cache { lendingFile } stocked.cwd twice
      (Undisturbed (fun _ => []) {} stocked ∧ Undisturbed overtaking {} stocked)
      (Work.exec (run "" (some { twice with cache := none }) (.taking fun _ => [])) {} stocked)
      (Work.exec (run "" (some { twice with cache := some cache }) (.taking overtaking)) {}
        stocked) := by
  have hpaths : ∀ path ∈ twice.paths,
      stocked.tree.get? (Path.place stocked.cwd path) = some (.file lendingFile) := by
    decide +kernel
  have hfiles : PoolCache.Discernible { lendingFile } := by
    refine ⟨Set.injOn_singleton _ _, ?_⟩
    rintro file rfl m hm
    cases decode_lendingFile.symm.trans hm
    decide +kernel
  have hoffers : stocked.tree.Offers { lendingFile } stocked.cwd twice.paths := by
    intro path hpath bytes hget
    cases (hpaths path hpath).symm.trans hget
    rfl
  have hstill : Undisturbed overtaking {} stocked :=
    ⟨by simp [overtaking], rfl, fun _ => rfl, fun _ => rfl⟩
  obtain ⟨hsingle, hturns⟩ :=
    cache_invisible hfiles cache "" twice {} stocked rfl hoffers (.start trusted_stocked)
  exact ⟨by decide +kernel, by decide +kernel, hsingle, hstill, hturns (fun _ => []) overtaking⟩

end Monomorph
