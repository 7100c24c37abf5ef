import Monomorph.Cli.Program
import Monomorph.Proofs.Untouched

/-!
# Dry runs write nothing

The tool with a dry run looks for a manifest, selects modules, reads them and resolves, whatever turns
its workers take. It opens no cache, so nothing that it does changes a file, unless flags ask for a
trace or a profile in one. `Cli.Shell.Holds` carries this through the session, in which an error of a
command is caught and the trace goes on.

The last section puts this together with what every run leaves alone.
-/

namespace Monomorph

variable {ε α β : Type} {env : Surroundings} {K : FileTree → Prop}

/-! ## Reading around a run -/

theorem Manifest.holds_load (path : Text) :
    Disk.Holds env K (load path : ExceptT ManifestError DiskM Manifest) := by
  refine ((Disk.holds_read path).adapt _).bind fun bytes => ?_
  cases Manifest.read bytes with
  | error f => exact .throw _
  | ok config => exact .pure _

theorem Disk.holds_status (path : Text) :
    Holds env K (Host.status path : ExceptT FileError DiskM FileKind) :=
  leaves_status

theorem Manifest.holds_findIn : ∀ dirs : List Text,
    Disk.Holds env K (findIn dirs : ExceptT ManifestError DiskM (Option Text))
  | [] => .pure _
  | dir :: dirs => by
      refine (Disk.holds_status _).outcome.bind fun r => ?_
      cases r with
      | ok kind => exact .pure _
      | error e =>
          dsimp only
          split
          · exact holds_findIn dirs
          · exact .throw _

theorem Manifest.holds_configuration (cwd path : Text) :
    Disk.Holds env K
      (configuration cwd path : ExceptT ManifestError DiskM (Config × Bool)) := by
  have hgoverning : Disk.Holds env K
      (governing cwd Path.here : ExceptT ManifestError DiskM Manifest) := by
    refine (holds_findIn _).bind fun found => ?_
    cases found with
    | none => exact .throw _
    | some path => exact holds_load path
  unfold configuration
  split
  · exact (holds_load path).bind fun _ => .pure _
  · refine hgoverning.outcome.bind fun r => ?_
    split
    · exact .pure _
    · exact .pure _
    · exact .throw _

theorem Disk.holds_entries (path : Text) :
    Holds env K (Host.entries path : ExceptT FileError DiskM (List (Text × FileKind))) := by
  refine Leaves.performOn ?_ fun _ t ht => ht
  intro d r found t _ hd hop
  cases hf : d.tree.find r with
  | error cause => simp [hf, bind, Except.bind] at hop
  | ok place =>
      obtain ⟨p, n⟩ := place
      cases n with
      | file bytes => simp [hf, bind, Except.bind] at hop
      | dir =>
          simp only [hf, bind, Except.bind] at hop
          cases hop
          exact hd

theorem Selection.holds_choose (configured given : Sources) :
    Disk.Holds env K (choose configured given : ExceptT Selection.Error DiskM (List Text)) := by
  have hdiscover : ∀ dirs : List Text,
      Disk.Holds env K (discover dirs : ExceptT Selection.Error DiskM (List Text)) := by
    intro dirs
    induction dirs with
    | nil => exact .pure _
    | cons dir dirs ih =>
        have hin : Disk.Holds env K
            (discoverIn dir : ExceptT Selection.Error DiskM (List Text)) :=
          ((Disk.holds_entries dir).adapt _).bind fun _ => .pure _
        exact hin.bind fun _ => ih.bind fun _ => .pure _
  refine (hdiscover _).bind fun found => ?_
  dsimp only
  generalize select (given.paths ++ configured.paths ++ found) _ _ = chosen
  cases chosen with
  | nil => exact .throw _
  | cons path paths => exact .pure _

/-- A dry run without a cache only reads. -/
theorem Run.holds_dry (home : Text) {req : Request} (hdry : req.dryRun = true)
    (hcache : req.cache = none) (turns : Stage → List Turn) :
    Work.Holds env K (run home (some req) (.taking turns)) := by
  intro w d hd
  cases hrefused : refusal? req with
  | some e =>
      rw [exec_run_refused home hrefused]
      exact hd
  | none =>
      have hnone : ∀ c, req.cache = some c → c.Preserves env K := by
        intro c hc
        rw [hcache] at hc
        cases hc
      obtain ⟨n, tracer, tracer', elapsed, hexec⟩ := exec_run home req hrefused (.taking turns) w d
      have hfound := leaves_findTypes hnone turns n { w with tracer } d hd
      rw [hexec, exec_stages]
      rcases hx : Work.exec (findTypes req n (.taking turns)) { w with tracer } d with
        ⟨⟨r, w₁⟩, d₁⟩
      rw [hx] at hfound
      cases r with
      | error e => exact ⟨hfound.1, hfound.2.1⟩
      | ok u =>
          dsimp only
          rw [written, if_pos hdry]
          exact hfound

/-! ## The shell -/

namespace Cli

/-- What work of a command does to what it has said and to a disk. -/
def Shell.exec (x : Shell DiskM α) (c : Console) (d : Disk) :
    (Except Error α × Console) × Disk :=
  (x.run.run c).run d

theorem Shell.exec_bind (x : Shell DiskM α) (f : α → Shell DiskM β) (c : Console) (d : Disk) :
    exec (x >>= f) c d = match exec x c d with
      | ((.ok a, c'), d') => exec (f a) c' d'
      | ((.error e, c'), d') => ((.error e, c'), d') := by
  unfold exec
  rw [ExceptT.run_bind, StateT.run_bind, StateT.run_bind]
  rcases ((x.run.run c).run d : (Except Error α × Console) × Disk) with ⟨⟨r, c'⟩, d'⟩
  cases r <;> rfl

theorem Shell.exec_tryCatch (x : Shell DiskM α) (h : Error → Shell DiskM α) (c : Console)
    (d : Disk) :
    exec (tryCatch x h) c d = match exec x c d with
      | ((.ok a, c'), d') => ((.ok a, c'), d')
      | ((.error e, c'), d') => exec (h e) c' d' := by
  rcases hx : exec x c d with ⟨⟨r, c'⟩, d'⟩
  have hrun : (StateT.run (StateT.run x c) d : Id _) = ((r, c'), d') := hx
  show ((ExceptT.tryCatch x h).run.run c).run d = _
  unfold ExceptT.tryCatch
  rw [ExceptT.run_mk, StateT.run_bind, StateT.run_bind, hrun]
  cases r with
  | ok a => rfl
  | error e => rfl

/-- Work of a command that keeps a predicate on files while no file takes the trace. -/
def Shell.Holds (env : Surroundings) (K : FileTree → Prop) (x : Shell DiskM α) : Prop :=
  ∀ c d, c.traceFile = none → d.toSurroundings = env → K d.tree →
    (exec x c d).1.2.traceFile = none ∧ (exec x c d).2.toSurroundings = env ∧
      K (exec x c d).2.tree

namespace Shell.Holds

variable {x : Shell DiskM α}

theorem pure (a : α) : Holds env K (pure a : Shell DiskM α) :=
  fun _ _ htrace henv hK => ⟨htrace, henv, hK⟩

theorem throw (e : Error) : Holds env K (throw e : Shell DiskM α) :=
  fun _ _ htrace henv hK => ⟨htrace, henv, hK⟩

theorem bind {f : α → Shell DiskM β} (h : Holds env K x) (hf : ∀ a, Holds env K (f a)) :
    Holds env K (x >>= f) := by
  intro c d htrace henv hK
  obtain ⟨htrace', henv', hK'⟩ := h c d htrace henv hK
  rw [exec_bind]
  rcases hx : exec x c d with ⟨⟨r, c'⟩, d'⟩
  rw [hx] at htrace' henv' hK'
  cases r with
  | ok a => exact hf a c' d' htrace' henv' hK'
  | error e => exact ⟨htrace', henv', hK'⟩

theorem catching {f : Error → Shell DiskM α} (h : Holds env K x) (hf : ∀ e, Holds env K (f e)) :
    Holds env K (tryCatch x f) := by
  intro c d htrace henv hK
  obtain ⟨htrace', henv', hK'⟩ := h c d htrace henv hK
  rw [exec_tryCatch]
  rcases hx : exec x c d with ⟨⟨r, c'⟩, d'⟩
  rw [hx] at htrace' henv' hK'
  cases r with
  | ok a => exact ⟨htrace', henv', hK'⟩
  | error e => exact hf e c' d' htrace' henv' hK'

theorem either {p : Prop} [Decidable p] {y : Shell DiskM α} (hx : Holds env K x)
    (hy : Holds env K y) : Holds env K (if p then x else y) := by
  split
  · exact hx
  · exact hy

/-- Going on with what has been said so far. -/
theorem getting {f : Console → Shell DiskM β} (hf : ∀ c, c.traceFile = none → Holds env K (f c)) :
    Holds env K (get >>= f) :=
  fun c d htrace henv hK => hf c htrace c d htrace henv hK

theorem change {f : Console → Console} (hf : ∀ c, c.traceFile = none → (f c).traceFile = none) :
    Holds env K (modify f : Shell DiskM Unit) :=
  fun c _ htrace henv hK => ⟨hf c htrace, henv, hK⟩

theorem print (t : Text) : Holds env K (Shell.print t) := change fun _ => id

theorem complain (t : Text) : Holds env K (Shell.complain t) := change fun _ => id

theorem outcome {x : ExceptT ε DiskM α} (h : Disk.Holds env K x) :
    Holds env K (Shell.outcome x) :=
  fun _ _ htrace henv hK => ⟨htrace, h.exec henv hK⟩

theorem ofHost {x : ExceptT ε DiskM α} (h : Disk.Holds env K x) (wrap : ε → Error) :
    Holds env K (Shell.ofHost wrap x) := by
  refine (outcome h).bind fun r => ?_
  cases r with
  | ok a => exact pure a
  | error e => exact throw _

theorem ofExcept (wrap : ε → Error) (r : Except ε α) : Holds env K (Shell.ofExcept wrap r) := by
  intro c d htrace henv hK
  exact ⟨htrace, henv, hK⟩

theorem watch {w : Work DiskM ε α} (h : Work.Holds env K w) : Holds env K (Shell.watch w) := by
  refine getting fun c htrace => ?_
  have hrun : Holds env K (Shell.sure (w.run.run { tracer := c.tracer })) := by
    intro c' d htrace' henv hK
    have hend := h { tracer := c.tracer } d ⟨henv, hK⟩
    refine ⟨htrace', ?_⟩
    revert hend
    cases (Work.exec w { tracer := c.tracer } d).1.1 with
    | ok a => exact id
    | error e => exact id
  refine hrun.bind fun r => ?_
  obtain ⟨result, monitor⟩ := r
  refine bind (change fun _ hc => hc) fun _ => ?_
  -- No file takes the trace, so what it adds shows among the errors.
  rw [htrace]
  exact (complain _).bind fun _ => pure _

end Shell.Holds

/-! ## Sessions without files of their own -/

/-- Flags that ask for neither a profile nor a trace in a file. -/
structure Arguments.Traceless (a : Arguments) : Prop where
  cpu : (a.text? "cpu-profile").getD [] = []
  memory : (a.text? "mem-profile").getD [] = []
  runtime : (a.text? "runtime-trace").getD [] = []
  trace : traceFile? ((a.text? "trace").getD []) = none

namespace Session

variable {a : Arguments}

theorem holds_makeProfile {flag : Text} (h : (a.text? flag).getD [] = []) (what : Text) :
    Disk.Holds env K (makeProfile a flag what : ExceptT Error DiskM Unit) := by
  unfold makeProfile
  split
  · exact .pure _
  · exact .pure _
  · rename_i hne htext
    rw [htext] at h
    exact absurd h hne

theorem holds_stopProfiles (h : a.Traceless) :
    Shell.Holds env K (stopProfiles a : Shell DiskM Unit) := by
  refine (Shell.Holds.outcome (holds_makeProfile h.memory _)).bind fun r => ?_
  cases r with
  | ok u => exact .pure _
  | error e => exact .complain _

theorem holds_startProfiles (h : a.Traceless) :
    Shell.Holds env K (startProfiles a : Shell DiskM Unit) := by
  refine (Shell.Holds.ofHost (holds_makeProfile h.cpu _) id).bind fun _ => ?_
  refine (Shell.Holds.outcome (holds_makeProfile h.runtime _)).bind fun r => ?_
  cases r with
  | ok u => exact .pure _
  | error e =>
      exact (Shell.Holds.outcome (holds_makeProfile h.memory _)).bind fun _ => .throw _

theorem holds_startTrace (h : a.Traceless) :
    Shell.Holds env K (startTrace a : Shell DiskM Unit) := by
  refine (Shell.Holds.ofExcept _ _).bind fun level => ?_
  split
  · exact .pure _
  · refine (Shell.Holds.ofExcept _ _).bind fun storage => ?_
    refine (Shell.Holds.ofExcept _ _).bind fun tracer => ?_
    -- Whether the tracer has writers or not, no file is made for it.
    rw [h.trace, ite_self]
    exact .change fun _ _ => rfl

theorem holds_start (environment : Environment) (h : a.Traceless) :
    Shell.Holds env K (start environment a : Shell DiskM Bool) := by
  refine (Shell.Holds.ofExcept _ _).bind fun colour => ?_
  refine (holds_startProfiles h).bind fun _ => ?_
  refine (Shell.Holds.catching (holds_startTrace h) fun e => ?_).bind fun _ => .pure _
  exact (holds_stopProfiles h).bind fun _ => .throw _

theorem holds_stop (h : a.Traceless) : Shell.Holds env K (stop a : Shell DiskM Unit) := by
  have htrace : Shell.Holds env K (stopTrace : Shell DiskM Unit) := by
    refine .getting fun c hc => ?_
    rw [hc]
    exact .pure _
  exact htrace.bind fun _ => holds_stopProfiles h

end Session

/-! ## The dry run -/

variable {a : Arguments} (turns : Stage → List Turn)

/-- A dry run is asked for without a cache and without a report. -/
theorem request_dry (environment : Environment) (h : a.isOn "dry-run" = true) (s : Settings)
    (paths : List Text) :
    (request environment a s paths : Shell DiskM Request)
      = pure
        { target := s.target, output := s.output, paths := paths, seeds := s.seeds,
          maxDepth := s.maxDepth, dryRun := true } := by
  unfold request
  rw [h]
  simp

theorem holds_resolve_dry (environment : Environment) (colour : Bool)
    (h : a.isOn "dry-run" = true) :
    Shell.Holds env K (resolve environment colour a (.taking turns)) := by
  refine (Shell.Holds.ofExcept _ _).bind fun mode => ?_
  have hconfig : Shell.Holds env K (configuration environment a) :=
    (Shell.Holds.ofHost (Manifest.holds_configuration _ _) _).bind fun _ => .pure _
  refine hconfig.bind fun config => ?_
  refine (Shell.Holds.ofExcept _ _).bind fun settings => ?_
  refine (Shell.Holds.ofHost (Selection.holds_choose _ _) _).bind fun paths => ?_
  rw [request_dry environment h settings paths, pure_bind]
  refine (Shell.Holds.watch (Run.holds_dry environment.cwd rfl rfl turns)).bind fun r => ?_
  obtain ⟨result, monitor⟩ := r
  cases result with
  | error e =>
      have hfailed : Shell.Holds env K (do
          Shell.complain (← get).tracer.failureDump
          throw (.run e) : Shell DiskM Unit) :=
        .getting fun _ _ => (Shell.Holds.complain _).bind fun _ => .throw _
      exact .either ((Shell.Holds.print _).bind fun _ => hfailed) hfailed
  | ok u =>
      have htimings : Shell.Holds env K (do
          Shell.print (← Shell.ofExcept .timings
            (timingsText ((a.text? "timings").getD []) monitor.timings monitor.timer)) :
          Shell DiskM Unit) :=
        (Shell.Holds.ofExcept _ _).bind fun _ => .print _
      have htold : ∀ t t', Shell.Holds env K (do
          Shell.print t
          if a.isOn "quiet" then _ else do
            Shell.print t'
            _ : Shell DiskM Unit) :=
        fun t t' => (Shell.Holds.print t).bind fun _ =>
          .either htimings ((Shell.Holds.print t').bind fun _ => htimings)
      exact .either ((Shell.Holds.print _).bind fun _ => htold _ _) (htold _ _)

theorem holds_session_dry (environment : Environment) (h : a.isOn "dry-run" = true)
    (htraceless : a.Traceless) :
    Shell.Holds env K (session environment .resolve a (.taking turns)) := by
  have hreport : ∀ e, Shell.Holds env K (report e : Shell DiskM Unit) := fun _ => .complain _
  have hbegun : Shell.Holds env K (do return some (← Session.start environment a) :
      Shell DiskM (Option Bool)) :=
    (Session.holds_start environment htraceless).bind fun _ => .pure _
  refine Shell.Holds.bind (.catching hbegun fun e => (hreport e).bind fun _ => .pure none)
    fun begun => ?_
  cases begun with
  | none => exact .pure 1
  | some colour =>
      have hdone : Shell.Holds env K (do
          perform environment colour a (.taking turns) .resolve
          return 0 : Shell DiskM Nat) :=
        (holds_resolve_dry turns environment colour h).bind fun _ => .pure 0
      refine Shell.Holds.bind (.catching hdone fun e => (hreport e).bind fun _ => .pure 1)
        fun code => ?_
      exact (Session.holds_stop htraceless).bind fun _ => .pure code

/-- The tool with a dry run leaves the files as they are, to the last directory. -/
theorem run_dry (environment : Environment) {args rest : List Text}
    (hcommand : findCommand args = .ok (some .resolve, rest))
    (hparsed : parse (Command.flags (some .resolve)) {} rest = .ok a)
    (h : a.isOn "dry-run" = true) (htraceless : a.Traceless) (d : Disk) :
    ((run environment args (.taking turns) : DiskM (Nat × Console)).run d).2.tree = d.tree := by
  -- What is kept here is the tree itself, so no operation that changes it can be on the way.
  have hstart : Shell.Holds d.toSurroundings (· = d.tree)
      (start environment args (.taking turns)) := by
    unfold start
    rw [hcommand]
    dsimp only
    rw [hparsed]
    refine .either ((Shell.Holds.print _).bind fun _ => .pure 0) ?_
    exact holds_session_dry turns environment h htraceless
  obtain ⟨-, -, htree⟩ := hstart {} d rfl rfl rfl
  have hrun : ((run environment args (.taking turns) : DiskM (Nat × Console)).run d).2
      = ((start environment args (.taking turns)).exec {} d).2 := by
    unfold run Shell.exec
    rw [StateT.run_bind]
    rcases (((start environment args (.taking turns) : Shell DiskM Nat).run.run {}).run d :
      (Except Error Nat × Console) × Disk) with ⟨⟨r, c⟩, d'⟩
    cases r <;> rfl
  rw [hrun]
  exact htree

end Cli

/-! ## Outputs -/

/-- The output and the report of a request, if it asks for one, are different places outside the
directory of the cache. -/
structure Request.Separate (cwd : Place) (req : Request) : Prop where
  output : ∀ c, req.cache = some c → ¬ Path.place cwd c.dir <+: Path.place cwd req.output
  report : req.reportDir ≠ [] → ∀ c, req.cache = some c →
    ¬ Path.place cwd c.dir <+: Path.place cwd req.reportFile
  different : req.reportDir ≠ [] → Path.place cwd req.reportFile ≠ Path.place cwd req.output

namespace Run

/-- Nothing that a run would write outside its cache has been written between two trees. -/
structure Untouched (cwd : Place) (req : Request) (t t' : FileTree) : Prop where
  /-- The file at the output is the same, or there is none as before. -/
  output : t'.file? (Path.place cwd req.output) = t.file? (Path.place cwd req.output)
  /-- So it is with the report. -/
  report : req.reportDir ≠ [] →
    t'.file? (Path.place cwd req.reportFile) = t.file? (Path.place cwd req.reportFile)
  /-- No file that was written aside has been left beside the output. -/
  aside : ∀ x, t'.file? (Path.place cwd (Path.parent req.output) ++ [Module.asideStem ++ x])
    = t.file? (Path.place cwd (Path.parent req.output) ++ [Module.asideStem ++ x])
  /-- All files outside the cache are the same. -/
  outside : ∀ z, (∀ c, req.cache = some c → ¬ Path.place cwd c.dir <+: z) → t'.file? z = t.file? z

/-- The places that keeping entries does not touch. -/
def spared (cwd : Place) (req : Request) : Set Place :=
  { z | ∀ c, req.cache = some c → ¬ c.shelf cwd <+: z }

/-- Modules are written aside where no entries are. -/
theorem aside_mem_spared {cwd : Place} {req : Request} (h : req.Separate cwd) (x : Text) :
    Path.place cwd (Path.parent req.output) ++ [Module.asideStem ++ x] ∈ spared cwd req := by
  intro c hc hbelow
  rcases List.prefix_concat_iff.mp hbelow with heq | hinside
  · -- The directory of the entries does not start with a dot.
    have hname : ("pools" : Text) = Module.asideStem ++ x := by
      simpa using (List.append_inj' heq rfl).2
    have hstem : Module.asideStem.head? = some 46 := by decide
    have hhead := congrArg List.head? hname
    rw [List.head?_append, hstem, Option.some_or] at hhead
    exact absurd hhead (by decide)
  · exact h.output c hc (Path.prefix_of_parent hinside)

theorem Untouched.of_keeps {cwd : Place} {req : Request} (h : req.Separate cwd) {t t' : FileTree}
    (hkept : FileTree.Keeps (spared cwd req) t t') : Untouched cwd req t t' := by
  have houtside : ∀ z, (∀ c, req.cache = some c → ¬ Path.place cwd c.dir <+: z) →
      t'.file? z = t.file? z := by
    intro z hz
    apply hkept
    intro c hc hbelow
    exact hz c hc ((List.prefix_append _ _).trans hbelow)
  exact ⟨houtside _ h.output, fun hdir => houtside _ (h.report hdir),
    fun x => hkept _ (aside_mem_spared h x), houtside⟩

end Run

/-- **Failed runs and dry runs leave the outputs alone.** Whatever operations are made to fail, but
for removals, and whatever turns the workers of the stages take: a run that is dry or fails before its
report leaves the output, the report and the files beside the output as they were, and a run that
gets to its report leaves the encoded module at the output, even when the report fails. The tool with
a dry run opens no cache, and without a trace or a profile in a file it leaves the whole tree as it
was.

Without turns this is about workers that act one after another (`Crew.taking_nil`). -/
theorem Run.outputs_left_alone (home : Text) (req : Request) (turns : Stage → List Turn)
    (w : Monitor) (d : Disk) (hremove : ∀ n, d.faults n .remove = none)
    (hreq : req.Separate d.cwd) :
    let o := Work.exec (run home (some req) (.taking turns)) w d
    (Unreported req o.1.1 → Untouched d.cwd req d.tree o.2.tree) ∧
    (Wrote req o.1.1 → Emitted d.cwd req o.1.2.products o.2.tree) ∧
    ∀ (environment : Cli.Environment) (args rest : List Text) (a : Cli.Arguments),
      Cli.findCommand args = .ok (some .resolve, rest) →
      Cli.parse (Cli.Command.flags (some .resolve)) {} rest = .ok a →
      a.isOn "dry-run" = true →
        (∀ s paths, ∃ dry : Request, dry.cache = none ∧
          Cli.request environment a s paths = (pure dry : Cli.Shell DiskM Request)) ∧
        (a.Traceless →
          ((Cli.run environment args (.taking turns) : DiskM (Nat × Cli.Console)).run d).2.tree
            = d.tree) := by
  intro o
  have hcache : ∀ c, req.cache = some c →
      c.Preserves d.toSurroundings (FileTree.Keeps (spared d.cwd req) d.tree) :=
    fun c hc => PoolCache.preserves_keeps fun z hz => hz c hc
  obtain ⟨hkept, hmodule⟩ := exec_run_outputs hremove hreq.different hcache home turns w rfl
    fun z _ => rfl
  refine ⟨fun hr => .of_keeps hreq (hkept hr), hmodule, ?_⟩
  intro environment args rest a hcommand hparsed hdry
  exact ⟨fun s paths => ⟨_, rfl, Cli.request_dry environment hdry s paths⟩,
    fun htraceless => Cli.run_dry turns environment hcommand hparsed hdry htraceless d⟩

namespace Sample

/-- Resolves `Box` in both copies, with a cache and a report. -/
def reported : Request := { twice with cache := some cache, reportDir := "reports" }

/-- A disk with an older module at the output, on which nothing can be renamed. -/
def stubborn : Disk :=
  { stocked with
    tree := stocked.tree.insert ["made.module"] (.file [1])
    faults := fun _ action => if action = .rename then some .busy else none }

end Sample

open Sample in
/-- The module cannot be moved to the output, where the older one stays, also when the second worker
overtakes the first. A dry run does not come to that. -/
theorem Run.outputs_left_alone_stubborn :
    (∀ n, stubborn.faults n .remove = none) ∧ reported.Separate stubborn.cwd ∧
      Unreported reported
        (Work.exec (run "" (some reported) (.taking overtaking)) {} stubborn).1.1 ∧
      (Work.exec (run "" (some reported) (.taking overtaking)) {} stubborn).2.tree.file?
        ["made.module"] = some [1] ∧
      ((Cli.run { cwd := "" } ["resolve", "--dry-run"] (.taking overtaking) :
        DiskM (Nat × Cli.Console)).run stubborn).2.tree = stubborn.tree := by
  have hremove : ∀ n, stubborn.faults n .remove = none := fun _ => rfl
  have hreq : reported.Separate stubborn.cwd := by
    refine ⟨?_, ?_, by decide⟩
    · rintro c ⟨⟩
      decide
    · rintro - c ⟨⟩
      decide
  have hunreported : Unreported reported
      (Work.exec (run "" (some reported) (.taking overtaking)) {} stubborn).1.1 := by
    decide +kernel
  obtain ⟨hkept, -, hdry⟩ := outputs_left_alone "" reported overtaking {} stubborn hremove hreq
  refine ⟨hremove, hreq, hunreported, (hkept hunreported).output, ?_⟩
  exact (hdry { cwd := "" } ["resolve", "--dry-run"] ["--dry-run"] _ rfl rfl rfl).2
    ⟨rfl, rfl, rfl, rfl⟩

end Monomorph
