import Monomorph.Proofs.Triples

/-!
# What a run writes

`Work.Leaves` is a triple for the work of a run, in terms of the products and of the files. The
stages that write either fail on a file, or do what the products say: `Run.emission` is the module
that is written with its bytes, or why there is none, and `Run.outputBytes` is what stands at the
output in the end (`Run.leaves_writeTypes`).
-/

namespace Monomorph

variable {ε α β : Type}

/-! ## Triples for products and files -/

/-- The products under a monitor and the files of a disk in some surroundings satisfy `P`. -/
def Work.Files (env : Surroundings) (P : Products → FileTree → Prop) (w : Monitor) (d : Disk) :
    Prop :=
  d.toSurroundings = env ∧ P w.products d.tree

theorem Work.indifferent_files {env : Surroundings} {P : Products → FileTree → Prop} :
    Indifferent (Files env P) :=
  .of_products fun p d => d.toSurroundings = env ∧ P p d.tree

/-- Work that starts with products and files that satisfy `P`, in some surroundings, and leaves `Q`
when it succeeds and `E` when it fails. -/
def Work.Leaves (env : Surroundings) (P : Products → FileTree → Prop)
    (x : Work DiskM ε α) (Q : α → Products → FileTree → Prop)
    (E : ε → Products → FileTree → Prop) : Prop :=
  Work.Ensures (Files env P) x (fun a => Files env (Q a)) (fun e => Files env (E e))

namespace Work.Leaves

variable {env : Surroundings} {P P' : Products → FileTree → Prop}
  {Q Q' : α → Products → FileTree → Prop} {R : β → Products → FileTree → Prop}
  {E E' : ε → Products → FileTree → Prop} {x : Work DiskM ε α}

theorem imp (h : Leaves env P x Q E) (hP : ∀ p t, P' p t → P p t)
    (hQ : ∀ a p t, Q a p t → Q' a p t) (hE : ∀ e p t, E e p t → E' e p t) :
    Leaves env P' x Q' E' :=
  Ensures.imp h (fun _ _ => .imp id (hP _ _)) (fun a _ _ => .imp id (hQ a _ _))
    fun e _ _ => .imp id (hE e _ _)

theorem pure {a : α} (h : ∀ p t, P p t → Q a p t) :
    Leaves env P (pure a : Work DiskM ε α) Q E :=
  Ensures.pure fun _ _ => .imp id (h _ _)

/-- What products and files show may be used. -/
theorem knowing {φ : Prop} (hφ : ∀ p t, P p t → φ) (h : φ → Leaves env P x Q E) :
    Leaves env P x Q E :=
  fun w d hP => h (hφ _ _ hP.2) w d hP

theorem any {ι : Type} {P : ι → Products → FileTree → Prop}
    (h : ∀ i, Leaves env (P i) x Q E) : Leaves env (fun p t => ∃ i, P i p t) x Q E :=
  fun w d ⟨henv, i, hP⟩ => h i w d ⟨henv, hP⟩

theorem bind {f : α → Work DiskM ε β} (h : Leaves env P x Q E)
    (hf : ∀ a, Leaves env (Q a) (f a) R E) : Leaves env P (x >>= f) R E :=
  Ensures.bind h hf

theorem record {f : Products → Products} {Q : Products → FileTree → Prop}
    (h : ∀ p t, P p t → Q (f p) t) :
    Leaves env P (Work.record f : Work DiskM ε Unit) (fun _ => Q) E :=
  Ensures.record fun _ _ => .imp id (h _ _)

theorem products :
    Leaves env P (Work.products : Work DiskM ε Products) (fun q p t => P p t ∧ q = p) E :=
  fun _ _ hP => ⟨hP.1, hP.2, rfl⟩

theorem now :
    Leaves env P (Work.now : Work DiskM ε Instant) (fun i p t => P p t ∧ i = env.clock)
      E :=
  fun _ _ hP => ⟨hP.1, hP.2, congrArg Surroundings.clock hP.1⟩

/-- The host's part leaves the products as they are. -/
theorem ofHost {P : FileTree → Prop} {Q : α → FileTree → Prop} {E : ε → FileTree → Prop}
    {x : ExceptT ε DiskM α} (h : Disk.Leaves env P x Q E) (p : Products) :
    Leaves env (fun q t => q = p ∧ P t) (Work.ofHost x)
      (fun a q t => q = p ∧ Q a t) (fun e q t => q = p ∧ E e t) := by
  rintro w d ⟨henv, hp, hP⟩
  have hexec : exec (Work.ofHost x) w d = (((Disk.run x d).1, w), (Disk.run x d).2) := rfl
  obtain ⟨henv', hout⟩ := h d henv hP
  rw [hexec]
  revert hout
  dsimp only
  cases (Disk.run x d).1 with
  | ok a => exact fun hQ => ⟨henv', hp, hQ⟩
  | error e => exact fun hE => ⟨henv', hp, hE⟩

/-- A stage does its work, and its failure says which stage it was. -/
theorem stage (s : Stage) {work : Work DiskM StageError Text}
    {Q : Products → FileTree → Prop} {E : StageError → Products → FileTree → Prop}
    (h : Leaves env P work (fun _ => Q) E) :
    Leaves env P (Run.stage s work) (fun _ => Q)
      (fun e p t => ∃ cause, e = .stage s cause ∧ E cause p t) := by
  refine Ensures.imp (Ensures.stage s indifferent_files indifferent_files
    (fun _ => indifferent_files) h) (fun _ _ => id) (fun _ _ _ => id) ?_
  rintro e w d ⟨cause, he, henv, hE⟩
  exact ⟨henv, cause, he, hE⟩

end Work.Leaves

/-! ## The synthetic module -/

/-- What saving a module at a path leaves: `P` when it fails and `Q` of the bytes when it succeeds,
whatever is to be written. -/
structure Module.Saves (env : Surroundings) (path : Text) (P : FileTree → Prop)
    (Q : List UInt8 → FileTree → Prop) : Prop where
  dirs : Disk.Extends P
  aside : ∃ M, ∀ contents : Except SaveError (List UInt8),
    Disk.Survives env P M Q (Path.parent path) asideStem path contents

theorem Module.leaves_save {env : Surroundings} {path : Text} {P : FileTree → Prop}
    {Q : List UInt8 → FileTree → Prop} (h : Saves env path P Q) (module : Option Module) :
    Disk.Leaves env P (save path module : ExceptT SaveError DiskM Unit)
      (fun _ t => ∃ bytes, contents module = .ok bytes ∧ Q bytes t)
      (fun e t => P t ∧ ((∃ f, e = .file f) ∨ contents module = .error e)) := by
  have hstem : ∀ n, Path.Proper (asideStem ++ Text.ofNat n) :=
    Path.proper_stem (by decide) (by decide)
  have hdirs : Disk.Leaves env P (ExceptT.adapt SaveError.file (Host.makeDirs (Path.parent path)))
      (fun _ => P) (fun e t => P t ∧ ((∃ f, e = .file f) ∨ contents module = .error e)) :=
    (Disk.leaves_makeDirs h.dirs).adapt fun f t ht => ⟨ht, .inl ⟨f, rfl⟩⟩
  obtain ⟨M, haside⟩ := h.aside
  exact hdirs.bind fun _ =>
    Disk.leaves_writeAside (Path.clean_ne_nil _) hstem (haside (contents module))

/-- What saving a module at a path leaves as it was. -/
structure Module.Spares (cwd : Place) (path : Text) (K : FileTree → Prop) : Prop where
  dirs : Disk.Extends K
  written : ∀ t dir z bytes, K t → Disk.Aside dir asideStem z → K (t.insert z (.file bytes))
  removed : ∀ t dir z, K t → Disk.Aside dir asideStem z → K (t.erase z)
  moved : ∀ t dir z, K t → Disk.Aside dir asideStem z → K (t.move z (Path.place cwd path))

theorem Module.Spares.saves {env : Surroundings} {path : Text} {K : FileTree → Prop}
    (h : Spares env.cwd path K) :
    Saves env path K fun bytes t =>
      K t ∧ t.get? (Path.place env.cwd path) = some (.file bytes) := by
  refine ⟨h.dirs, fun _ => K, fun contents => ?_⟩
  refine ⟨fun t z ht hz _ => h.written t _ z [] ht hz, fun t z _ bytes ht hz _ =>
    h.written t _ z bytes ht hz, ?_, fun t z ht hz => h.removed t _ z ht hz,
    fun _ _ _ t z ht _ => ht⟩
  intro t z bytes _ ht hz hfile hdir
  refine ⟨h.moved t _ z ht hz, ?_⟩
  simpa [hfile] using t.get?_move_below hz.ne_root (t.ne_root hdir) []

namespace Emit

/-- The module that is written with its bytes, or why there is none. -/
def made (name : Text) (types : List TypeRef) (r : Registry) (path : Text) :
    Except WriteError (Module × List UInt8) :=
  match build name types r with
  | .error e => .error (.build e)
  | .ok module =>
    match Module.contents (some module) with
    | .ok bytes => .ok (module, bytes)
    | .error e => .error (.save path e)

/-- Writing fails on a file, or as the module is made. -/
theorem leaves_write (name : Text) (types : List TypeRef) (r : Registry) {env : Surroundings}
    {path : Text} {P : FileTree → Prop} {Q : List UInt8 → FileTree → Prop}
    (h : Module.Saves env path P Q) :
    Disk.Leaves env P (write name types r path : ExceptT WriteError DiskM Module)
      (fun m t => ∃ bytes, made name types r path = .ok (m, bytes) ∧ Q bytes t)
      (fun e t => P t ∧ ((∃ f, e = .save path (.file f)) ∨ made name types r path = .error e)) := by
  unfold write made
  cases build name types r with
  | error e => exact .throw fun t ht => ⟨ht, .inr rfl⟩
  | ok m =>
      refine ((Module.leaves_save h (some m)).adapt ?_).bind fun _ => .pure ?_
      · rintro e t ⟨ht, ⟨f, rfl⟩ | he⟩
        · exact ⟨ht, .inl ⟨f, rfl⟩⟩
        · exact ⟨ht, .inr (by simp only [he])⟩
      · rintro t ⟨bytes, hbytes, ht⟩
        exact ⟨bytes, by simp only [hbytes], ht⟩

end Emit

/-! ## The report -/

/-- Where the report of a request is written. -/
def Request.reportFile (req : Request) : Text :=
  Path.join [req.reportDir, Report.fileName req.target]

/-- A file that stands somewhere is not disturbed by a new directory. -/
theorem Disk.extends_get? (z : Place) (bytes : List UInt8) :
    Extends fun t => t.get? z = some (.file bytes) := by
  intro t z' hfile hfree
  rw [FileTree.get?_insert t (t.ne_root (by simp [hfree])), if_neg, hfile]
  rintro rfl
  rw [hfree] at hfile
  cases hfile

/-- Saving a report replaces what stands at its path, and nothing else. -/
theorem Report.leaves_save (r : Report) (home : Text) (z : Place) (bytes : List UInt8)
    {env : Surroundings} {dir : Text} {K : FileTree → Prop} (hdirs : Disk.Extends K)
    (h : ∀ t bytes, K t → Path.place env.cwd (Path.join [dir, fileName r.target]) ≠ [] →
      K (t.insert (Path.place env.cwd (Path.join [dir, fileName r.target])) (.file bytes))) :
    Disk.Leaves env (fun t => K t ∧ t.get? z = some (.file bytes))
      (r.save home dir : ExceptT ReportError DiskM Text)
      (fun path t => path = Path.join [dir, fileName r.target] ∧ K t ∧
        t.get? z = some (.file (if Path.place env.cwd (Path.join [dir, fileName r.target]) = z
          then r.text home else bytes)))
      (fun _ => K) := by
  let path := Path.join [dir, fileName r.target]
  let P (t : FileTree) : Prop := K t ∧ t.get? z = some (.file bytes)
  -- Between the two steps the report is empty, and with it the file at `z`, if it is the same.
  let P' (t : FileTree) : Prop :=
    K t ∧ (Path.place env.cwd path ≠ z → t.get? z = some (.file bytes))
  have hmake : Disk.Leaves env P (ExceptT.adapt ReportError.file (Host.makeDirs dir)) (fun _ => P)
      (fun _ => K) :=
    (Disk.leaves_makeDirs fun t z' ht hz' =>
      ⟨hdirs t z' ht.1 hz', Disk.extends_get? z bytes t z' ht.2 hz'⟩).adapt fun _ _ ht => ht.1
  have hcreate : Disk.Leaves env P (Host.create path : ExceptT FileError DiskM Unit) (fun _ => P')
      (fun _ => P) := by
    refine Disk.leaves_create ?_ fun _ _ ht => ht
    intro t ht hdir
    have hroot := t.ne_root hdir
    refine ⟨h t [] ht.1 hroot, fun hne => ?_⟩
    rw [FileTree.get?_insert t hroot, if_neg (Ne.symm hne), ht.2]
  have hwrite : Disk.Leaves env P' (Host.write path (r.text home) : ExceptT FileError DiskM Unit)
      (fun _ t => K t ∧ t.get? z
        = some (.file (if Path.place env.cwd path = z then r.text home else bytes)))
      (fun _ => P') := by
    have hroot : ∀ (t : FileTree) old, t.get? (Path.place env.cwd path) = some (.file old) →
        Path.place env.cwd path ≠ [] := fun t old hold => t.ne_root (by simp [hold])
    refine Disk.leaves_write ?_ (fun _ _ ht => ht) fun _ t old part ht hold =>
      ⟨h t part ht.1 (hroot t old hold), fun hne => ?_⟩
    · intro t old ht hold
      refine ⟨h t _ ht.1 (hroot t old hold), ?_⟩
      rw [FileTree.get?_insert t (hroot t old hold)]
      by_cases hz : Path.place env.cwd path = z
      · rw [if_pos hz.symm, if_pos hz]
      · rw [if_neg (Ne.symm hz), if_neg hz, ht.2 hz]
    · rw [FileTree.get?_insert t (hroot t old hold), if_neg (Ne.symm hne), ht.2 hne]
  refine hmake.bind fun _ => ?_
  refine (hcreate.adapt (F := fun _ => K) fun _ _ ht => ht.1).bind fun _ => ?_
  refine (hwrite.adapt (F := fun _ => K) fun _ _ ht => ht.1).bind fun _ => ?_
  exact .pure fun t ht => ⟨rfl, ht⟩

/-! ## The stages that write -/

/-- A failure to write a file. -/
def StageError.OnWriting : StageError → Prop
  | .emit (.save _ (.file _)) => True
  | .report _ => True
  | _ => False

namespace Run

variable {env : Surroundings} {start : Instant} {home : Text} {req : Request} {p : Products}
  {K : FileTree → Prop}

/-- The module of the resolved types with its bytes, or why there is none. -/
def emission (req : Request) (p : Products) : Except StageError (Module × List UInt8) :=
  (Emit.made req.target p.resolution.types p.registry req.output).mapError .emit

/-- The report on products. -/
def reportOn (req : Request) (start stop : Instant) (p : Products) : Report :=
  { target := req.target, output := req.output, result := p.resolution,
    nanos := (stop.since start).toInt }

theorem leaves_emit {P : FileTree → Prop} {Q : List UInt8 → FileTree → Prop}
    (h : Module.Saves env req.output P Q) :
    Work.Leaves env (fun q t => q = p ∧ P t) (emit req : Work DiskM StageError Text)
      (fun _ q t => ∃ m bytes, emission req p = .ok (m, bytes) ∧
        q = { p with emitted := some m } ∧ Q bytes t)
      (fun e q t => (q = p ∧ P t) ∧ (e.OnWriting ∨ emission req p = .error e)) := by
  refine Work.Leaves.products.bind fun q => ?_
  refine .knowing (fun q' t hq => hq.2.trans hq.1.1) fun hq => ?_
  subst hq
  have hwrite := (Emit.leaves_write req.target q.resolution.types q.registry h).adapt
    (f := StageError.emit) (F := fun e t => P t ∧ (e.OnWriting ∨ emission req q = .error e)) ?_
  · refine .bind (.imp (.ofHost hwrite q) (fun q' t hq' => hq'.1) (fun _ _ _ => id)
      fun _ _ _ he => ⟨⟨he.1, he.2.1⟩, he.2.2⟩) fun m => ?_
    refine (Work.Leaves.record ?_).bind fun _ => .pure fun _ _ => id
    rintro _ t ⟨rfl, bytes, hmade, ht⟩
    exact ⟨m, bytes, by rw [emission, hmade]; rfl, rfl, ht⟩
  · rintro e t ⟨ht, ⟨f, rfl⟩ | he⟩
    · exact ⟨ht, .inl trivial⟩
    · exact ⟨ht, .inr (by rw [emission, he]; rfl)⟩

theorem leaves_report {bytes : List UInt8} (hdirs : Disk.Extends K)
    (h : ∀ t bytes, K t → Path.place env.cwd req.reportFile ≠ [] →
      K (t.insert (Path.place env.cwd req.reportFile) (.file bytes))) :
    Work.Leaves env
      (fun q t => q = p ∧ K t ∧ t.get? (Path.place env.cwd req.output) = some (.file bytes))
      (report home start req : Work DiskM StageError Text)
      (fun _ q t => q = { p with reportPath := req.reportFile } ∧ K t ∧
        t.get? (Path.place env.cwd req.output)
          = some (.file (if Path.place env.cwd req.reportFile = Path.place env.cwd req.output
            then (reportOn req start env.clock p).text home else bytes)))
      (fun e q t => (q = p ∧ K t) ∧ e.OnWriting) := by
  refine Work.Leaves.products.bind fun q => ?_
  refine .knowing (fun q' t hq => hq.2.trans hq.1.1) fun hq => ?_
  subst hq
  refine Work.Leaves.now.bind fun stop => ?_
  refine .knowing (fun q' t hstop => hstop.2) fun hstop => ?_
  subst hstop
  have hsave := ((reportOn req start env.clock q).leaves_save home
    (Path.place env.cwd req.output) bytes hdirs h).adapt (f := StageError.report)
      (F := fun e t => K t ∧ e.OnWriting) fun _ _ ht => ⟨ht, trivial⟩
  refine .bind (.imp (.ofHost hsave q) (fun q' t hq' => hq'.1.1) (fun _ _ _ => id)
    fun _ _ _ he => ⟨⟨he.1, he.2.1⟩, he.2.2⟩) fun path => ?_
  refine (Work.Leaves.record ?_).bind fun _ => .pure fun _ _ => id
  rintro _ t ⟨rfl, rfl, ht⟩
  exact ⟨rfl, ht⟩

/-- What stands at the output after a run that wrote the module as these bytes: a report that goes
to the same place replaces them. -/
def outputBytes (cwd : Place) (home : Text) (req : Request) (start stop : Instant) (p : Products)
    (bytes : List UInt8) : List UInt8 :=
  if req.reportDir ≠ [] ∧ Path.place cwd req.reportFile = Path.place cwd req.output then
    (reportOn req start stop p).text home
  else bytes

/-- What the writing stages of a request leave as it was. -/
structure Spares (cwd : Place) (req : Request) (K : FileTree → Prop) : Prop where
  module : Module.Spares cwd req.output K
  report : ∀ t bytes, K t → Path.place cwd req.reportFile ≠ [] →
    K (t.insert (Path.place cwd req.reportFile) (.file bytes))

/-- The ways in which the stages that write end, from products `p`: the module is written, there is
no module to write, or a file cannot be written. -/
inductive Written (cwd : Place) (home : Text) (req : Request) (start stop : Instant) (p : Products)
    (r : Except RunError Unit) (q : Products) (t : FileTree) : Prop
  | done (m : Module) (bytes : List UInt8) (path : Text) (hr : r = .ok ())
      (hmade : emission req p = .ok (m, bytes))
      (hq : q = { p with emitted := some m, reportPath := path })
      (hfile : t.get? (Path.place cwd req.output)
        = some (.file (outputBytes cwd home req start stop p bytes)))
  | unmade (cause : StageError) (hr : r = .error (.stage .emit cause))
      (hmade : emission req p = .error cause) (hq : q = p)
  | unwritten (s : Stage) (cause : StageError) (emitted : Option Module)
      (hr : r = .error (.stage s cause)) (hcause : cause.OnWriting) (hq : q = { p with emitted })

theorem leaves_writeTypes (home : Text) (start : Instant) (h : Spares env.cwd req K) :
    Work.Leaves env (fun q t => q = p ∧ K t)
      (writeTypes home start req : Work DiskM RunError Unit)
      (fun u q t => K t ∧ Written env.cwd home req start env.clock p (.ok u) q t)
      (fun e q t => K t ∧ Written env.cwd home req start env.clock p (.error e) q t) := by
  have hemit : Work.Leaves env (fun q t => q = p ∧ K t)
      (stage .emit (emit req) : Work DiskM RunError Unit) _ _ :=
    .stage .emit (leaves_emit h.module.saves)
  refine .bind (hemit.imp (fun _ _ => id) (fun _ _ _ => id) ?_) fun _ => ?_
  · rintro e q t ⟨cause, rfl, ⟨rfl, ht⟩, hcause | hcause⟩
    · exact ⟨ht, .unwritten .emit cause q.emitted rfl hcause rfl⟩
    · exact ⟨ht, .unmade cause rfl hcause rfl⟩
  refine .any fun m => .any fun bytes => .knowing (fun q t hq => hq.1) fun hmade => ?_
  by_cases hdir : req.reportDir = []
  · rw [if_pos hdir]
    refine .pure fun q t hq => ⟨hq.2.2.1, .done m bytes p.reportPath rfl hmade hq.2.1 ?_⟩
    rw [outputBytes, if_neg (fun hreport => hreport.1 hdir)]
    exact hq.2.2.2
  · rw [if_neg hdir]
    refine (Work.Leaves.stage .report (leaves_report h.module.dirs h.report)).imp
      (fun q t hq => hq.2) ?_ ?_
    · rintro u q t ⟨rfl, ht, hfile⟩
      refine ⟨ht, .done m bytes req.reportFile rfl hmade rfl ?_⟩
      rw [hfile, outputBytes]
      by_cases hplace : Path.place env.cwd req.reportFile = Path.place env.cwd req.output
      · rw [if_pos hplace, if_pos ⟨hdir, hplace⟩]
        rfl
      · rw [if_neg hplace, if_neg fun hreport => hplace hreport.2]
    · rintro e q t ⟨cause, rfl, ⟨rfl, ht⟩, hcause⟩
      exact ⟨ht, .unwritten .report cause (some m) rfl hcause rfl⟩

theorem exec_writeTypes (home : Text) (start : Instant) (h : Spares env.cwd req K) (w : Monitor)
    {d : Disk} (hd : d.toSurroundings = env) (ht : K d.tree) :
    K (Work.exec (writeTypes home start req) w d).2.tree ∧
      Written env.cwd home req start env.clock w.products
        (Work.exec (writeTypes home start req) w d).1.1
        (Work.exec (writeTypes home start req) w d).1.2.products
        (Work.exec (writeTypes home start req) w d).2.tree := by
  have hout := leaves_writeTypes home start h w d ⟨hd, rfl, ht⟩
  revert hout
  cases (Work.exec (writeTypes home start req) w d).1.1 with
  | ok u => exact And.right
  | error e => exact And.right

end Run

end Monomorph
