import Monomorph.Proofs.Transparency

/-!
# What a run leaves alone

The stages up to resolution read modules and may keep entries in a cache, so a file elsewhere is
after them what it was before (`Run.leaves_findTypes`). The stage that writes the module writes it
aside first. When that stage fails at any point, the file aside is removed and every file is again
what it was; when it succeeds, the module stands at the output, and the report that follows goes to
another place (`Run.leaves_writeTypes_outputs`).

Put together, a run that is dry or fails before its report leaves its outputs untouched, and every
other run leaves the module that it made at the output (`Run.exec_run_outputs`).
-/

namespace Monomorph

variable {ε α β : Type}

/-! ## Files that are kept -/

namespace FileTree

/-- The contents of the file at a place; a directory is no file. -/
def file? (t : FileTree) (z : Place) : Option (List UInt8) :=
  match t.get? z with
  | some (.file bytes) => some bytes
  | _ => none

/-- The files at the places of a set are what they were in another tree. -/
def Keeps (S : Set Place) (t₀ t : FileTree) : Prop := ∀ z ∈ S, t.file? z = t₀.file? z

theorem file?_congr {t t' : FileTree} {z : Place} (h : t'.get? z = t.get? z) :
    t'.file? z = t.file? z := by
  rw [file?, file?, h]

theorem file?_insert_of_ne {t : FileTree} {z y : Place} {n : FileNode} (hz : z ≠ [])
    (hy : y ≠ z) : (t.insert z n).file? y = t.file? y :=
  file?_congr (by rw [get?_insert t hz, if_neg hy])

theorem file?_erase_of_ne {t : FileTree} {z y : Place} (hz : z ≠ []) (hy : y ≠ z) :
    (t.erase z).file? y = t.file? y :=
  file?_congr (by rw [get?_erase t hz, if_neg hy])

namespace Keeps

variable {S : Set Place} {t₀ t : FileTree} {z : Place}

theorem insert (h : Keeps S t₀ t) (hroot : z ≠ []) (hz : z ∉ S) (n : FileNode) :
    Keeps S t₀ (t.insert z n) := by
  intro y hy
  rw [file?_insert_of_ne hroot (fun heq => hz (heq ▸ hy)), h y hy]

theorem erase (h : Keeps S t₀ t) (hroot : z ≠ []) (hz : z ∉ S) : Keeps S t₀ (t.erase z) := by
  intro y hy
  rw [file?_erase_of_ne hroot (fun heq => hz (heq ▸ hy)), h y hy]

/-- A move is not seen at places that lie below neither end of it. -/
theorem move {q : Place} (h : Keeps S t₀ t) (hp : ∀ y ∈ S, ¬ z <+: y) (hq : ∀ y ∈ S, ¬ q <+: y) :
    Keeps S t₀ (t.move z q) := by
  intro y hy
  have hget : (t.move z q).get? y = t.get? y := by
    rw [get?_move_apart t (hq y hy), if_neg fun hbelow => hp y hy hbelow.2]
  rw [file?_congr hget, h y hy]

/-- A directory where nothing stood is no file, as before. -/
theorem extend : Disk.Extends (Keeps S t₀) := by
  intro t z h hz y hy
  rw [← h y hy]
  by_cases heq : y = z
  · subst heq
    rw [file?, file?, hz, get?_insert t (t.ne_root (by simp [hz])), if_pos rfl]
  · exact file?_insert_of_ne (t.ne_root (by simp [hz])) heq

end Keeps

end FileTree

open FileTree (Keeps)

/-! ## Keeping entries -/

/-- Keeping an entry in the cache keeps `K`. -/
def PoolCache.Preserves (c : PoolCache) (env : Surroundings) (K : FileTree → Prop) : Prop :=
  ∀ key e, Disk.Holds env K (c.put key e : ExceptT FileError DiskM Unit)

/-- Entries are written in the directory of the entries, and nowhere else. -/
theorem PoolCache.preserves_keeps {c : PoolCache} {env : Surroundings} {S : Set Place}
    {t₀ : FileTree} (hS : ∀ z ∈ S, ¬ c.shelf env.cwd <+: z) :
    c.Preserves env (Keeps S t₀) := by
  intro key e
  have hplace := c.place_pathFor env.cwd key
  have hdir : c.shelf env.cwd <+: Path.place env.cwd (Path.parent (c.pathFor key)) := by
    apply Path.prefix_parent (n := entryName key)
    exact hplace ▸ List.prefix_refl _
  have htarget : c.shelf env.cwd <+: Path.place env.cwd (c.pathFor key) := by
    rw [hplace]
    exact List.prefix_append _ _
  have haside : ∀ z, Disk.Aside (Path.place env.cwd (Path.parent (c.pathFor key))) asideStem z →
      c.shelf env.cwd <+: z := by
    rintro z ⟨n, rfl⟩
    exact hdir.trans (List.prefix_append _ _)
  -- All that is written lies below the shelf, so an entry that is written aside is not seen either.
  refine leaves_put_of_survives (M := fun _ => Keeps S t₀) Keeps.extend ?_
  constructor
  · intro t z ht hz _
    exact ht.insert hz.ne_root (fun hmem => hS z hmem (haside z hz)) _
  · intro t z _ bytes ht hz _
    exact ht.insert hz.ne_root (fun hmem => hS z hmem (haside z hz)) _
  · intro t z bytes _ ht hz _ _
    exact ht.move (fun y hy hbelow => hS y hy ((haside z hz).trans hbelow))
      fun y hy hbelow => hS y hy (htarget.trans hbelow)
  · intro t z ht hz
    exact ht.erase hz.ne_root fun hmem => hS z hmem (haside z hz)
  · intro _ _ _ t z ht _
    exact ht

namespace PoolShelf

variable {env : Surroundings} {K : FileTree → Prop} {E : ε → FileTree → Prop} {s : PoolShelf}
  {number : Nat}

theorem leaves_store_of (h : s.cache.Preserves env K) (name : Text) (pool : Pool) :
    Disk.Leaves env K (ExceptT.lift (s.store number name pool) : ExceptT ε DiskM PoolShelf)
      (fun s' t => K t ∧ s'.cache = s.cache) E := by
  unfold store
  cases s.digest? number with
  | none => exact .pure fun t ht => ⟨ht, rfl⟩
  | some key =>
      refine Disk.Leaves.lift_bind (h key _) fun r => ?_
      cases r with
      | ok u => exact .pure fun t ht => ⟨ht.1 u rfl, rfl⟩
      | error e => exact .pure fun t ht => ⟨ht.2 e rfl, rfl⟩

end PoolShelf

/-! ## The stages that find types -/

/-- Work that keeps a predicate on files, whatever the products and whether it succeeds or fails. -/
def Work.Holds (env : Surroundings) (K : FileTree → Prop) (x : Work DiskM ε α) : Prop :=
  Work.Leaves env (fun _ => K) x (fun _ _ => K) (fun _ _ => K)

namespace Run

variable {env : Surroundings} {K : FileTree → Prop} {req : Request}

/-- A cache that preserves `K` serves something for every module. -/
theorem served_preserved {cache : Option PoolCache} (h : ∀ c, cache = some c → c.Preserves env K)
    (ls : List Loaded) : Served env K True (fun _ _ => True) cache ls := by
  cases cache with
  | none => exact served_none (fun _ => trivial) ls
  | some c =>
      refine served_some (fun _ _ => True) (fun _ _ _ => True) (fun s => s.cache = c) rfl ?_ ?_
        fun _ _ _ => ⟨trivial, trivial, fun _ _ => trivial⟩
      · rintro s number rfl
        exact PoolShelf.leaves_load_of.imp (fun _ => id) (fun r t hr => ⟨hr.1, hr.2.1, trivial⟩)
          fun _ _ => id
      · rintro s number name pool rfl -
        exact PoolShelf.leaves_store_of (h s.cache rfl) name pool

/-- A stage that leaves a run steady keeps what is said of its files. -/
theorem holds_of_steady {work : Work DiskM StageError Text}
    (h : ∀ p, Work.Ensures (Steady env K p True) work (fun _ w d => ∃ p, Steady env K p True w d)
      (fun _ w d => ∃ p, Steady env K p True w d)) : Work.Holds env K work := by
  have hfiles : ∀ w d, (∃ p, Steady env K p True w d) → Work.Files env (fun _ => K) w d :=
    fun _ _ ⟨_, h⟩ => ⟨h.env, h.tree⟩
  refine Work.Ensures.imp (.any h) ?_ (fun _ => hfiles) fun _ => hfiles
  exact fun w d hd => ⟨w.products, hd.1, hd.2, rfl, fun hon => absurd trivial hon⟩

/-- Finding types keeps the files that the cache keeps, and fails in a stage before the report. -/
theorem leaves_findTypes (h : ∀ c, req.cache = some c → c.Preserves env K)
    (turns : Stage → List Turn) (span : Nat) :
    Work.Leaves env (fun _ => K) (findTypes req span (.taking turns)) (fun _ _ => K)
      (fun e _ t => K t ∧ ∃ s cause, e = .stage s cause ∧ s ≠ .report) := by
  have hstage : ∀ (s : Stage) {work : Work DiskM StageError Text}, s ≠ .report →
      Work.Holds env K work → Work.Leaves env (fun _ => K) (stage s work) (fun _ _ => K)
        (fun e _ t => K t ∧ ∃ s cause, e = .stage s cause ∧ s ≠ .report) := by
    intro s work hs hwork
    refine (Work.Leaves.stage s hwork).imp (fun _ _ => id) (fun _ _ _ => id) ?_
    rintro e p t ⟨cause, rfl, ht⟩
    exact ⟨ht, s, cause, rfl, hs⟩
  have hload : Work.Holds env K (load span req (.taking turns)) := holds_of_steady fun p =>
    (ensures_load (fun _ _ => True) id (fun _ => trivial) (fun _ _ _ _ => trivial)
      (fun _ _ _ _ => trivial) span).imp (fun _ _ => id) (fun _ _ _ ⟨_, _, h⟩ => ⟨_, h⟩)
        fun _ _ _ h => ⟨_, h.1⟩
  have hindex : Work.Holds env K (index span (.taking turns)) := holds_of_steady fun p =>
    (ensures_index (fun _ => trivial) span).imp (fun _ _ => id) (fun _ _ _ h => ⟨_, h⟩)
      fun _ _ _ h => ⟨_, h.1⟩
  have hharvest : Work.Holds env K (harvest span req (.taking turns)) := holds_of_steady fun p =>
    (ensures_harvest (fun _ => trivial) (served_preserved h _) span).imp (fun _ _ => id)
      (fun _ _ _ ⟨_, _, _, _, h⟩ => ⟨_, h⟩) fun _ _ _ h => ⟨_, h.1⟩
  have hresolve : Work.Holds env K (resolve span req (.taking turns)) := holds_of_steady fun p =>
    (ensures_resolve (fun _ => trivial) span).imp (fun _ _ => id) (fun _ _ _ ⟨_, _, h⟩ => ⟨_, h⟩)
      fun _ _ _ h => ⟨_, h.1⟩
  have hqueued : Work.Leaves env (fun _ => K) (announceAll .load .queued req.paths)
      (fun _ _ => K) (fun e _ t => K t ∧ ∃ s cause, e = RunError.stage s cause ∧ s ≠ .report) :=
    Work.Ensures.announceAll Work.indifferent_files _ _ _
  refine hqueued.bind fun _ => (hstage .load (by decide) hload).bind fun _ => ?_
  refine (hstage .index (by decide) hindex).bind fun _ => ?_
  refine (hstage .harvest (by decide) hharvest).bind fun _ => ?_
  exact hstage .resolve (by decide) hresolve

end Run

/-! ## The stages that write -/

/-- Saving a module that fails brings every file back, where removals succeed. While the module
stands aside, only its own place differs, and no file stood there. -/
theorem Module.saves_keeps {env : Surroundings} {path : Text} {S : Set Place} {t₀ : FileTree}
    (hremove : ∀ n, env.faults n .remove = none) :
    Saves env path (Keeps S t₀)
      (fun bytes t => t.get? (Path.place env.cwd path) = some (.file bytes)) := by
  let M (z : Place) (t : FileTree) : Prop :=
    Keeps (S \ {z}) t₀ t ∧ (z ∈ S → t₀.file? z = none)
  refine ⟨Keeps.extend, M, fun contents => ?_⟩
  have hput : ∀ (t : FileTree) z bytes, z ≠ [] → Keeps (S \ {z}) t₀ t →
      Keeps (S \ {z}) t₀ (t.insert z (.file bytes)) :=
    fun t z bytes hroot ht => ht.insert hroot (fun hmem => hmem.2 rfl) _
  constructor
  · intro t z ht hz hnone
    refine ⟨hput t z [] hz.ne_root fun y hy => ht y hy.1, fun hmem => ?_⟩
    rw [← ht z hmem, FileTree.file?, hnone]
  · intro t z old bytes ht hz _
    exact ⟨hput t z bytes hz.ne_root ht.1, ht.2⟩
  · intro t z bytes _ _ hz hfile hdir
    simpa [hfile] using t.get?_move_below hz.ne_root (t.ne_root hdir) []
  · intro t z ht hz y hy
    by_cases heq : y = z
    · subst heq
      rw [ht.2 hy, FileTree.file?, FileTree.get?_erase t hz.ne_root, if_pos rfl]
    · rw [FileTree.file?_erase_of_ne hz.ne_root heq, ht.1 y ⟨hy, heq⟩]
  · intro n cause hfault
    rw [hremove n] at hfault
    cases hfault

namespace Run

variable {env : Surroundings} {req : Request} {S : Set Place} {t₀ : FileTree}

/-- The module that a run made stands at its output. -/
def Emitted (cwd : Place) (req : Request) (p : Products) (t : FileTree) : Prop :=
  ∃ m bytes, p.emitted = some m ∧ m.encode = .ok bytes ∧
    t.get? (Path.place cwd req.output) = some (.file bytes)

/-- The stages that write end with the module at the output, unless the first of them fails. Then
every file is as it was. -/
theorem leaves_writeTypes_outputs (hremove : ∀ n, env.faults n .remove = none)
    (hplaces : req.reportDir ≠ [] →
      Path.place env.cwd req.reportFile ≠ Path.place env.cwd req.output)
    (home : Text) (start : Instant) (p : Products) :
    Work.Leaves env (fun q t => q = p ∧ Keeps S t₀ t)
      (writeTypes home start req : Work DiskM RunError Unit)
      (fun _ q t => Emitted env.cwd req q t)
      (fun e q t => (∃ cause, e = .stage .emit cause) ∧ Keeps S t₀ t ∨
        (∃ cause, e = .stage .report cause) ∧ Emitted env.cwd req q t) := by
  have hemit : Work.Leaves env (fun q t => q = p ∧ Keeps S t₀ t)
      (stage .emit (emit req) : Work DiskM RunError Unit) _ _ :=
    .stage .emit (leaves_emit (Module.saves_keeps hremove))
  refine .bind (hemit.imp (fun _ _ => id) (fun _ _ _ => id) ?_) fun _ => ?_
  · rintro e q t ⟨cause, rfl, ⟨-, ht⟩, -⟩
    exact .inl ⟨⟨cause, rfl⟩, ht⟩
  refine .any fun m => .any fun bytes => .knowing (fun q t hq => hq.1) fun hmade => ?_
  have hemitted : ∀ q t, q.emitted = some m →
      t.get? (Path.place env.cwd req.output) = some (.file bytes) → Emitted env.cwd req q t :=
    fun q t hq hfile => ⟨m, bytes, hq, encode_of_emission hmade, hfile⟩
  by_cases hdir : req.reportDir = []
  · rw [if_pos hdir]
    exact .pure fun q t hq => hemitted q t (by rw [hq.2.1]) hq.2.2
  · rw [if_neg hdir]
    -- The report is written elsewhere, so the module stays even when the report fails.
    have hkept : ∀ (t : FileTree) (b : List UInt8),
        t.get? (Path.place env.cwd req.output) = some (.file bytes) →
        Path.place env.cwd req.reportFile ≠ [] →
        (t.insert (Path.place env.cwd req.reportFile) (.file b)).get?
          (Path.place env.cwd req.output) = some (.file bytes) := by
      intro t b hfile hroot
      rw [FileTree.get?_insert t hroot, if_neg (hplaces hdir).symm, hfile]
    have hreport : Work.Leaves env (fun q t => q = { p with emitted := some m } ∧
        t.get? (Path.place env.cwd req.output) = some (.file bytes) ∧
          t.get? (Path.place env.cwd req.output) = some (.file bytes))
        (report home start req : Work DiskM StageError Text) _ _ :=
      leaves_report (Disk.extends_get? _ bytes) hkept
    refine (Work.Leaves.stage .report hreport).imp (fun q t hq => ⟨hq.2.1, hq.2.2, hq.2.2⟩) ?_ ?_
    · rintro u q t ⟨rfl, hfile, -⟩
      exact hemitted _ t rfl hfile
    · rintro e q t ⟨cause, rfl, ⟨rfl, hfile⟩, -⟩
      exact .inr ⟨⟨cause, rfl⟩, hemitted _ t rfl hfile⟩

/-! ## Whole runs -/

/-- A run that ends before its report: it is dry, or it fails in an earlier stage. -/
def Unreported (req : Request) (r : Except RunError α) : Prop :=
  req.dryRun = true ∨ ∃ e, r = .error e ∧ ∀ cause, e ≠ .stage .report cause

/-- A run that has written its module: it is not dry, and it succeeds or fails on its report. -/
def Wrote (req : Request) (r : Except RunError α) : Prop :=
  req.dryRun = false ∧ ((∃ a, r = .ok a) ∨ ∃ cause, r = .error (.stage .report cause))

section Ends

variable {f : α → β} {a : α} {e : RunError} {r : Except RunError α}

@[simp]
theorem unreported_ok : Unreported req (.ok a : Except RunError α) ↔ req.dryRun = true := by
  simp [Unreported]

@[simp]
theorem unreported_error : Unreported req (.error e : Except RunError α) ↔
    req.dryRun = true ∨ ∀ cause, e ≠ .stage .report cause := by
  simp [Unreported]

@[simp]
theorem wrote_ok : Wrote req (.ok a : Except RunError α) ↔ req.dryRun = false := by
  simp [Wrote]

@[simp]
theorem wrote_error : Wrote req (.error e : Except RunError α) ↔
    req.dryRun = false ∧ ∃ cause, e = .stage .report cause := by
  simp [Wrote]

instance (e : RunError) : Decidable (∀ cause, e ≠ .stage .report cause) :=
  match e with
  | .missingRequest | .noSeeds | .noTarget => .isTrue fun _ heq => by cases heq
  | .stage s cause =>
    if h : s = .report then .isFalse fun hne => hne cause (h ▸ rfl)
    else .isTrue fun _ heq => h (RunError.stage.inj heq).1

/-- Whether a run ended before its report can be read off its result. -/
instance : Decidable (Unreported req r) :=
  match r with
  | .ok _ => decidable_of_iff _ unreported_ok.symm
  | .error _ => decidable_of_iff _ unreported_error.symm

theorem unreported_map_iff : Unreported req (r.map f) ↔ Unreported req r := by
  cases r with
  | ok a => rw [Except.map, unreported_ok, unreported_ok]
  | error e => rw [Except.map, unreported_error, unreported_error]

theorem wrote_map_iff : Wrote req (r.map f) ↔ Wrote req r := by
  cases r with
  | ok a => rw [Except.map, wrote_ok, wrote_ok]
  | error e => rw [Except.map, wrote_error, wrote_error]

end Ends

section Outputs

variable (hremove : ∀ n, env.faults n .remove = none)
  (hplaces : req.reportDir ≠ [] →
    Path.place env.cwd req.reportFile ≠ Path.place env.cwd req.output)
  (hcache : ∀ c, req.cache = some c → c.Preserves env (Keeps S t₀))

include hremove hplaces hcache

/-- All stages keep the files that the cache keeps, as long as they end before the report, and leave
the module at the output otherwise. -/
theorem exec_stages_outputs (home : Text) (start : Instant) (turns : Stage → List Turn) (n : Nat)
    (w : Monitor) {d : Disk} (henv : d.toSurroundings = env) (hd : Keeps S t₀ d.tree) :
    let o := Work.exec (stages home start req n (.taking turns)) w d
    (Unreported req o.1.1 → Keeps S t₀ o.2.tree) ∧
      (Wrote req o.1.1 → Emitted env.cwd req o.1.2.products o.2.tree) := by
  have hfound := leaves_findTypes hcache turns n w d ⟨henv, hd⟩
  rw [exec_stages]
  rcases hx : Work.exec (findTypes req n (.taking turns)) w d with ⟨⟨r, w₁⟩, d₁⟩
  rw [hx] at hfound
  cases r with
  | error e =>
      obtain ⟨-, ht, s, cause, rfl, hs⟩ := hfound
      refine ⟨fun _ => ht, fun hwrote => ?_⟩
      obtain ⟨-, cause', hcause⟩ := wrote_error.mp hwrote
      cases hcause
      exact absurd rfl hs
  | ok u =>
      obtain ⟨henv₁, hfound⟩ := hfound
      dsimp only
      rw [unreported_map_iff, wrote_map_iff, written]
      by_cases hdry : req.dryRun = true
      · -- A dry run ends with the types found.
        rw [if_pos hdry]
        refine ⟨fun _ => hfound, fun hwrote => ?_⟩
        rw [hwrote.1] at hdry
        cases hdry
      · rw [if_neg hdry]
        have hwritten := leaves_writeTypes_outputs hremove hplaces home start w₁.products w₁ d₁
          ⟨henv₁, rfl, hfound⟩
        rcases hy : Work.exec (writeTypes home start req) w₁ d₁ with ⟨⟨r, w₂⟩, d₂⟩
        rw [hy] at hwritten
        cases r with
        | ok u => exact ⟨fun h => absurd (unreported_ok.mp h) hdry, fun _ => hwritten.2⟩
        | error e =>
            rcases hwritten with ⟨-, ⟨⟨cause, rfl⟩, ht⟩ | ⟨⟨cause, rfl⟩, hmodule⟩⟩
            · refine ⟨fun _ => ht, fun hwrote => ?_⟩
              obtain ⟨-, cause', hcause⟩ := wrote_error.mp hwrote
              cases hcause
            · refine ⟨fun h => ?_, fun _ => hmodule⟩
              rcases unreported_error.mp h with hdry' | hne
              · exact absurd hdry' hdry
              · exact absurd rfl (hne cause)

theorem exec_run_outputs (home : Text) (turns : Stage → List Turn) (w : Monitor) {d : Disk}
    (henv : d.toSurroundings = env) (hd : Keeps S t₀ d.tree) :
    let o := Work.exec (run home (some req) (.taking turns)) w d
    (Unreported req o.1.1 → Keeps S t₀ o.2.tree) ∧
      (Wrote req o.1.1 → Emitted env.cwd req o.1.2.products o.2.tree) := by
  cases hrefused : refusal? req with
  | some e =>
      -- A refused request gets to no stage.
      rw [exec_run_refused home hrefused]
      refine ⟨fun _ => hd, fun hwrote => ?_⟩
      obtain ⟨-, cause, rfl⟩ := wrote_error.mp hwrote
      unfold refusal? at hrefused
      split at hrefused
      · cases hrefused
      · split at hrefused
        · cases hrefused
        · cases hrefused
  | none =>
      obtain ⟨n, tracer, tracer', elapsed, hexec⟩ := exec_run home req hrefused (.taking turns) w d
      have hstages := exec_stages_outputs hremove hplaces hcache home d.clock turns n
        { w with tracer } henv hd
      rw [hexec]
      dsimp only
      rw [unreported_map_iff, wrote_map_iff]
      exact hstages

end Outputs

end Run

end Monomorph
