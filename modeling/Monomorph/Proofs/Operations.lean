import Monomorph.Proofs.Places

/-!
# What operations leave behind

`Disk.Leaves` is a triple for work on a disk in memory: it starts on trees that satisfy one
predicate, and success and failure each leave a predicate behind. The triples hold whatever failures
are still to come. An operation that is made to fail changes nothing, but for a write, which may
leave any part of its bytes; where an operation fails for no other reason, its triple says so.

Each operation gets one triple, and the ways of a host to make directories and to replace a file
get theirs from these. What they ask of a predicate is said in terms of places: that it survives a
directory where nothing stood (`Disk.Extends`), a file under a name that is made for the purpose,
and the move of that file.
-/

namespace Monomorph

namespace Disk

variable {ε δ α β : Type}

/-- What work that may fail does to a disk. -/
def run (x : ExceptT ε DiskM α) (d : Disk) : Except ε α × Disk := x.run.run d

theorem run_bind (x : ExceptT ε DiskM α) (f : α → ExceptT ε DiskM β) (d : Disk) :
    run (x >>= f) d = match run x d with
      | (.ok a, d') => run (f a) d'
      | (.error e, d') => (.error e, d') := by
  unfold run
  rw [ExceptT.run_bind, StateT.run_bind]
  rcases (x.run.run d : Except ε α × Disk) with ⟨r, d'⟩
  cases r <;> rfl

/-- Work that starts on trees with `P` in some surroundings: success leaves `Q`, failure leaves
`E`, and the surroundings stay as they are. -/
def Leaves (env : Surroundings) (P : FileTree → Prop) (x : ExceptT ε DiskM α)
    (Q : α → FileTree → Prop) (E : ε → FileTree → Prop) : Prop :=
  ∀ d : Disk, d.toSurroundings = env → P d.tree → (run x d).2.toSurroundings = env ∧
    match (run x d).1 with
    | .ok a => Q a (run x d).2.tree
    | .error e => E e (run x d).2.tree

variable {env : Surroundings} {P P' : FileTree → Prop} {Q Q' : α → FileTree → Prop}
  {R : β → FileTree → Prop} {E E' : ε → FileTree → Prop} {F : δ → FileTree → Prop}
  {x : ExceptT ε DiskM α}

namespace Leaves

theorem imp (h : Leaves env P x Q E) (hP : ∀ t, P' t → P t) (hQ : ∀ a t, Q a t → Q' a t)
    (hE : ∀ e t, E e t → E' e t) : Leaves env P' x Q' E' := by
  intro d henv hd
  obtain ⟨henv', hout⟩ := h d henv (hP _ hd)
  refine ⟨henv', ?_⟩
  cases hr : (run x d).1 with
  | ok a =>
      rw [hr] at hout
      exact hQ a _ hout
  | error e =>
      rw [hr] at hout
      exact hE e _ hout

/-- What the tree shows may be used. -/
theorem knowing {p : Prop} (hp : ∀ t, P t → p) (h : p → Leaves env P x Q E) : Leaves env P x Q E :=
  fun d henv hd => h (hp _ hd) d henv hd

theorem bind {f : α → ExceptT ε DiskM β} (h : Leaves env P x Q E)
    (hf : ∀ a, Leaves env (Q a) (f a) R E) : Leaves env P (x >>= f) R E := by
  intro d henv hd
  obtain ⟨henv', hout⟩ := h d henv hd
  rw [run_bind]
  rcases hx : run x d with ⟨r, d'⟩
  rw [hx] at henv' hout
  cases r with
  | ok a => exact hf a d' henv' hout
  | error e => exact ⟨henv', hout⟩

theorem pure {a : α} (h : ∀ t, P t → Q a t) : Leaves env P (pure a : ExceptT ε DiskM α) Q E :=
  fun _ henv hd => ⟨henv, h _ hd⟩

/-- A result that is already there. -/
theorem given (r : Except ε α) :
    Leaves env P (ExceptT.mk (Pure.pure r) : ExceptT ε DiskM α) (fun a t => P t ∧ r = .ok a)
      (fun e t => P t ∧ r = .error e) := by
  intro d henv hd
  have hrun : run (ExceptT.mk (Pure.pure r) : ExceptT ε DiskM α) d = (r, d) := rfl
  rw [hrun]
  cases r with
  | ok a => exact ⟨henv, hd, rfl⟩
  | error e => exact ⟨henv, hd, rfl⟩

theorem throw {e : ε} (h : ∀ t, P t → E e t) : Leaves env P (throw e : ExceptT ε DiskM α) Q E :=
  fun _ henv hd => ⟨henv, h _ hd⟩

theorem adapt {f : ε → δ} (h : Leaves env P x Q E) (hE : ∀ e t, E e t → F (f e) t) :
    Leaves env P (ExceptT.adapt f x) Q F := by
  intro d henv hd
  have hrun : run (ExceptT.adapt f x) d = ((run x d).1.mapError f, (run x d).2) := rfl
  obtain ⟨henv', hout⟩ := h d henv hd
  rw [hrun]
  refine ⟨henv', ?_⟩
  revert hout
  cases (run x d).1 with
  | ok a => exact id
  | error e => exact hE e _

/-- An outcome taken as a value never fails. -/
theorem outcome (h : Leaves env P x Q E) :
    Leaves env P (Host.outcome x : ExceptT δ DiskM (Except ε α))
      (fun r t => (∀ a, r = .ok a → Q a t) ∧ ∀ e, r = .error e → E e t) F := by
  intro d henv hd
  have hrun : run (Host.outcome x : ExceptT δ DiskM (Except ε α)) d
      = (.ok (run x d).1, (run x d).2) := rfl
  obtain ⟨henv', hout⟩ := h d henv hd
  rw [hrun]
  refine ⟨henv', ?_, ?_⟩
  · intro a ha
    rw [ha] at hout
    exact hout
  · intro e he
    rw [he] at hout
    exact hout

/-- Work that goes on with an outcome and never fails itself. -/
theorem lift_bind {k : Except ε α → DiskM β} (h : Leaves env P x Q E)
    (hk : ∀ r, Leaves env (fun t => (∀ a, r = .ok a → Q a t) ∧ ∀ e, r = .error e → E e t)
      (ExceptT.lift (k r) : ExceptT δ DiskM β) R F) :
    Leaves env P (ExceptT.lift (x.run >>= k) : ExceptT δ DiskM β) R F := by
  have hlift : (ExceptT.lift (x.run >>= k) : ExceptT δ DiskM β)
      = Host.outcome x >>= fun r => ExceptT.lift (k r) := rfl
  rw [hlift]
  exact h.outcome.bind hk

/-- One operation, with the ways in which it ends told apart: it is made to fail, it fails by
itself, or it gives a new tree. -/
theorem perform_cases {E : FileError → FileTree → Prop} {action : FileAction}
    {error : FileCause → FileError} {operation : Disk → Except FileError (α × FileTree)}
    {wreck : Disk → FileTree}
    (hfault : ∀ n cause (d : Disk), env.faults n action = some cause → d.cwd = env.cwd →
      P d.tree → E (error cause) (wreck d))
    (herror : ∀ (d : Disk) (e : FileError), d.cwd = env.cwd → P d.tree →
      operation d = .error e → E e d.tree)
    (hok : ∀ (d : Disk) (a : α) (t : FileTree), d.cwd = env.cwd → P d.tree →
      operation d = .ok (a, t) → Q a t) :
    Leaves env P (perform action error operation wreck) Q E := by
  rintro d rfl hd
  cases hcause : d.faults d.steps action with
  | some cause =>
      have hrun : run (Disk.perform action error operation wreck) d
          = (.error (error cause), { d with steps := d.steps + 1, tree := wreck d }) := by
        simp [run, Disk.perform, StateT.run, hcause]
      rw [hrun]
      exact ⟨rfl, hfault _ _ d hcause rfl hd⟩
  | none =>
      cases hop : operation d with
      | error e =>
          have hrun : run (Disk.perform action error operation wreck) d
              = (.error e, { d with steps := d.steps + 1 }) := by
            simp [run, Disk.perform, StateT.run, hcause, hop]
          rw [hrun]
          exact ⟨rfl, herror d e rfl hd hop⟩
      | ok out =>
          have hrun : run (Disk.perform action error operation wreck) d
              = (.ok out.1, { d with steps := d.steps + 1, tree := out.2 }) := by
            simp [run, Disk.perform, StateT.run, hcause, hop]
          rw [hrun]
          exact ⟨rfl, hok d out.1 out.2 rfl hd hop⟩

/-- One operation that changes nothing when it fails: where it gives a new tree, the tree satisfies
what success leaves. -/
theorem perform {E : FileError → FileTree → Prop} {action : FileAction}
    {error : FileCause → FileError} {operation : Disk → Except FileError (α × FileTree)}
    (h : ∀ (d : Disk) (a : α) (t : FileTree), d.cwd = env.cwd → P d.tree →
      operation d = .ok (a, t) → Q a t) (hE : ∀ e t, P t → E e t) :
    Leaves env P (perform action error operation) Q E :=
  perform_cases (fun _ _ d _ _ hd => hE _ d.tree hd) (fun d e _ hd _ => hE e d.tree hd) h

theorem performOn_cases {E : FileError → FileTree → Prop} {action : FileAction} {path : Text}
    {operation : Disk → FileTree.Route → Except FileCause (α × FileTree)}
    {wreck : Disk → FileTree}
    (h : ∀ (d : Disk) (r : FileTree.Route) (a : α) (t : FileTree),
      FileTree.route env.cwd path = .ok r → P d.tree → operation d r = .ok (a, t) → Q a t)
    (hE : ∀ e t, P t → E e t)
    (hwreck : ∀ e (d : Disk), d.cwd = env.cwd → P d.tree → E e (wreck d)) :
    Leaves env P (performOn action path operation wreck) Q E := by
  refine perform_cases (fun _ _ d _ hcwd hd => hwreck _ d hcwd hd)
    (fun d e _ hd _ => hE e d.tree hd) ?_
  intro d a t hcwd hd hop
  rw [hcwd] at hop
  cases hr : FileTree.route env.cwd path with
  | error cause => simp [hr, Except.bind] at hop
  | ok r =>
      cases ho : operation d r with
      | error cause => simp [hr, ho, Except.bind] at hop
      | ok out =>
          simp only [hr, ho, Except.bind] at hop
          cases hop
          exact h d r a t hr hd ho

theorem performOn {E : FileError → FileTree → Prop} {action : FileAction} {path : Text}
    {operation : Disk → FileTree.Route → Except FileCause (α × FileTree)}
    (h : ∀ (d : Disk) (r : FileTree.Route) (a : α) (t : FileTree),
      FileTree.route env.cwd path = .ok r → P d.tree → operation d r = .ok (a, t) → Q a t)
    (hE : ∀ e t, P t → E e t) : Leaves env P (performOn action path operation) Q E :=
  performOn_cases h hE fun e d _ hd => hE e d.tree hd

end Leaves

end Disk

/-! ## Operations on trees -/

namespace FileTree

variable {cwd : Place} {path target : Text} {r r' : Route} {t t' : FileTree}

theorem create_ok (hr : route cwd path = .ok r) (h : t.create r = .ok t') :
    t.get? (Path.place cwd path) ≠ some .dir ∧
      t' = t.insert (Path.place cwd path) (.file []) := by
  unfold create at h
  cases hp : t.locate r with
  | error cause => simp [hp, bind, Except.bind] at h
  | ok p =>
      obtain rfl := locate_place hr hp
      simp only [hp, bind, Except.bind] at h
      split at h
      · cases h
      · split at h
        · cases h
        · rename_i hdir
          cases h
          exact ⟨hdir, rfl⟩

/-- A path leads to its place: everything on the way is a directory, and nothing asks for one at the
end. -/
def Leads (cwd : Place) (path : Text) (t : FileTree) : Prop :=
  ∃ r, route cwd path = .ok r ∧ r.slashed = false ∧ t.locate r = .ok (Path.place cwd path)

theorem createNew_ok (hr : route cwd path = .ok r) (h : t.createNew r = .ok t') :
    t.get? (Path.place cwd path) = none ∧ t.locate r = .ok (Path.place cwd path) ∧
      t' = t.insert (Path.place cwd path) (.file []) := by
  unfold createNew at h
  cases hp : t.locate r with
  | error cause => simp [hp, bind, Except.bind] at h
  | ok p =>
      obtain rfl := locate_place hr hp
      cases hget : t.get? (Path.place cwd path) with
      | some n => simp [hp, hget, bind, Except.bind] at h
      | none =>
          simp only [hp, hget, bind, Except.bind] at h
          cases h
          exact ⟨rfl, rfl, rfl⟩

/-- Names lead on where they led before, as long as directories stay. -/
theorem follow_mono (h : ∀ p, t.get? p = some .dir → t'.get? p = some .dir) :
    ∀ {names : List Text} {p q : Place}, t.follow p names = .ok q → t'.follow p names = .ok q
  | [], _, _, hq => hq
  | name :: names, p, q, hq => by
      have hstep : ∀ p', t.step p name = .ok p' → t'.step p name = .ok p' := by
        intro p' hp'
        unfold step at hp' ⊢
        cases hget : t.get? p with
        | none => simp [hget] at hp'
        | some n =>
            cases n with
            | file bytes => simp [hget] at hp'
            | dir =>
                rw [hget] at hp'
                rw [h p hget]
                exact hp'
      rw [follow, List.foldlM_cons] at hq ⊢
      cases hp' : t.step p name with
      | error cause => rw [hp'] at hq; cases hq
      | ok p' =>
          rw [hp'] at hq
          rw [hstep p' hp']
          exact follow_mono h hq

theorem Leads.mono (ht : t.Leads cwd path)
    (h : ∀ p, t.get? p = some .dir → t'.get? p = some .dir) : t'.Leads cwd path := by
  obtain ⟨r, hr, hslashed, hlocate⟩ := ht
  exact ⟨r, hr, hslashed, follow_mono h hlocate⟩

/-- A file where no directory stood leaves the directories as they are. -/
theorem get?_insert_dir {z p : Place} {n : FileNode} (hz : t.get? z ≠ some .dir)
    (hp : t.get? p = some .dir) : (t.insert z n).get? p = some .dir := by
  rw [get?_insert t (t.ne_root hz), if_neg, hp]
  rintro rfl
  exact hz hp

theorem find_of_leads {n : FileNode} (hr : route cwd path = .ok r) (ht : t.Leads cwd path)
    (hn : t.get? (Path.place cwd path) = some n) : t.find r = .ok (Path.place cwd path, n) := by
  obtain ⟨r', hr', hslashed, hlocate⟩ := ht
  cases hr.symm.trans hr'
  have hfollow : t.follow r.start r.names = .ok (Path.place cwd path) := hlocate
  unfold find
  rw [hslashed]
  simp [hfollow, hn, bind, Except.bind]

theorem fill_ok {bytes : List UInt8} (hr : route cwd path = .ok r) (h : t.fill r bytes = .ok t') :
    ∃ old, t.get? (Path.place cwd path) = some (.file old) ∧
      t' = t.insert (Path.place cwd path) (.file bytes) := by
  unfold fill at h
  cases hf : t.find r with
  | error cause => simp [hf, bind, Except.bind] at h
  | ok found =>
      obtain ⟨p, n⟩ := found
      obtain ⟨rfl, hget⟩ := find_place hr hf
      cases n with
      | dir => simp [hf, bind, Except.bind] at h
      | file old =>
          simp only [hf, bind, Except.bind] at h
          cases h
          exact ⟨old, hget, rfl⟩

theorem rename_file_ok {bytes : List UInt8} (hr : route cwd path = .ok r)
    (hr' : route cwd target = .ok r') (hfile : t.get? (Path.place cwd path) = some (.file bytes))
    (h : t.rename r r' = .ok t') :
    t.get? (Path.place cwd target) ≠ some .dir ∧
      t' = t.move (Path.place cwd path) (Path.place cwd target) := by
  unfold rename at h
  cases hq : t.locate r' with
  | error cause => simp [hq, bind, Except.bind] at h
  | ok q =>
      obtain rfl := locate_place hr' hq
      cases hf : t.find r with
      | error cause => simp [hq, hf, bind, Except.bind] at h
      | ok found =>
          obtain ⟨p, n⟩ := found
          obtain ⟨rfl, hget⟩ := find_place hr hf
          obtain rfl : FileNode.file bytes = n := Option.some.inj (hfile.symm.trans hget)
          simp only [hq, hf, bind, Except.bind] at h
          split at h
          · cases h
          · by_cases hdir : t.get? (Path.place cwd target) = some .dir
            · simp [hdir] at h
            · refine ⟨hdir, ?_⟩
              simp only at h
              split at h
              · cases h
              · cases h
                rfl

theorem slashed_of_route (h : route cwd path = .ok r) :
    r.slashed = decide (path.getLast? = some Path.slash) := by
  unfold route at h
  split at h
  · cases h
  · split at h
    · cases h
    · split at h
      · cases h
      · cases h
        rfl

/-- The bytes of the file that a path leads to. -/
def opened? (t : FileTree) (cwd : Place) (path : Text) : Option (List UInt8) :=
  match (route cwd path).bind t.find with
  | .ok (_, .file bytes) => some bytes
  | _ => none

theorem get?_of_opened? {bytes : List UInt8} (h : t.opened? cwd path = some bytes) :
    t.get? (Path.place cwd path) = some (.file bytes) := by
  unfold opened? at h
  cases hr : route cwd path with
  | error cause => simp [hr, Except.bind] at h
  | ok r =>
      cases hf : t.find r with
      | error cause => simp [hr, hf, Except.bind] at h
      | ok found =>
          obtain ⟨p, n⟩ := found
          obtain ⟨rfl, hget⟩ := find_place hr hf
          cases n with
          | dir => simp [hr, hf, Except.bind] at h
          | file content =>
              simp only [hr, hf, Except.bind] at h
              cases h
              exact hget

end FileTree

namespace Disk

variable {ε δ α β : Type} {env : Surroundings} {P : FileTree → Prop}
  {E : FileError → FileTree → Prop}

/-! ## Single operations -/

variable {path : Text}

theorem leaves_status : Leaves env P (Host.status path : ExceptT FileError DiskM FileKind)
    (fun _ => P) (fun _ => P) := by
  refine Leaves.performOn ?_ fun _ t ht => ht
  intro d r kind t hr hd hop
  cases hf : d.tree.find r with
  | error cause => simp [hf, bind, Except.bind] at hop
  | ok found =>
      simp only [hf, bind, Except.bind, pure, Except.pure] at hop
      cases hop
      exact hd

/-- What is read is the file that the path leads to. Where no opening is made to fail, nothing is
read only if there is none. -/
theorem leaves_read_opened : Leaves env P (Host.read path : ExceptT FileError DiskM (List UInt8))
    (fun bytes t => P t ∧ t.opened? env.cwd path = some bytes)
    (fun _ t => P t ∧ ((∀ n, env.faults n .opening = none) → t.opened? env.cwd path = none)) := by
  have hopened : ∀ d : Disk, d.tree.opened? d.cwd path
      = match (FileTree.route d.cwd path).bind d.tree.find with
        | .ok (_, .file bytes) => some bytes
        | _ => none := fun _ => rfl
  refine Leaves.perform_cases ?_ ?_ ?_
  · intro n cause d hfault _ hd
    refine ⟨hd, fun hnone => ?_⟩
    rw [hnone n] at hfault
    cases hfault
  · intro d e hcwd hd hop
    refine ⟨hd, fun _ => ?_⟩
    rw [← hcwd, hopened]
    revert hop
    rcases (FileTree.route d.cwd path).bind d.tree.find with cause | ⟨_, _ | bytes⟩ <;> simp
  · intro d bytes t hcwd hd hop
    rw [← hcwd]
    revert hop
    rcases hfound : (FileTree.route d.cwd path).bind d.tree.find with cause | ⟨_, _ | content⟩
    · simp
    · simp
    · rintro ⟨⟩
      exact ⟨hd, by rw [hopened, hfound]⟩

theorem leaves_read : Leaves env P (Host.read path : ExceptT FileError DiskM (List UInt8))
    (fun bytes t => P t ∧ t.get? (Path.place env.cwd path) = some (.file bytes)) (fun _ => P) :=
  leaves_read_opened.imp (fun _ => id) (fun _ _ h => ⟨h.1, FileTree.get?_of_opened? h.2⟩)
    fun _ _ => And.left

/-- A predicate that a new directory does not disturb. -/
def Extends (P : FileTree → Prop) : Prop := ∀ t z, P t → t.get? z = none → P (t.insert z .dir)

theorem leaves_makeDir (h : Extends P) :
    Leaves env P (Host.makeDir path : ExceptT FileError DiskM Unit) (fun _ => P)
      (fun _ => P) := by
  refine Leaves.performOn ?_ fun _ t ht => ht
  intro d r u t hr hd hop
  unfold FileTree.makeDir at hop
  cases hp : d.tree.locate r with
  | error cause => simp [hp, bind, Except.bind] at hop
  | ok p =>
      cases hget : d.tree.get? p with
      | some n => simp [hp, hget, bind, Except.bind] at hop
      | none =>
          simp only [hp, hget, bind, Except.bind, pure, Except.pure] at hop
          cases hop
          exact h d.tree p hd hget

theorem leaves_create {Q : FileTree → Prop}
    (h : ∀ t, P t → t.get? (Path.place env.cwd path) ≠ some .dir →
      Q (t.insert (Path.place env.cwd path) (.file []))) (hE : ∀ e t, P t → E e t) :
    Leaves env P (Host.create path : ExceptT FileError DiskM Unit) (fun _ => Q) E := by
  refine Leaves.performOn ?_ hE
  intro d r u t hr hd hop
  cases hc : d.tree.create r with
  | error cause => simp [hc, bind, Except.bind] at hop
  | ok made =>
      simp only [hc, bind, Except.bind, pure, Except.pure] at hop
      cases hop
      obtain ⟨hdir, rfl⟩ := FileTree.create_ok hr hc
      exact h d.tree hd hdir

/-- A write replaces what stood in the file. One that fails may have replaced it by anything. -/
theorem leaves_write {Q : FileTree → Prop} {bytes : List UInt8}
    (h : ∀ t old, P t → t.get? (Path.place env.cwd path) = some (.file old) →
      Q (t.insert (Path.place env.cwd path) (.file bytes)))
    (hE : ∀ e t, P t → E e t)
    (htorn : ∀ e t old part, P t → t.get? (Path.place env.cwd path) = some (.file old) →
      E e (t.insert (Path.place env.cwd path) (.file part))) :
    Leaves env P (Host.write path bytes : ExceptT FileError DiskM Unit) (fun _ => Q) E := by
  refine Leaves.performOn_cases ?_ hE ?_
  · intro d r u t hr hd hop
    cases hc : d.tree.fill r bytes with
    | error cause => simp [hc, bind, Except.bind] at hop
    | ok filled =>
        simp only [hc, bind, Except.bind, pure, Except.pure] at hop
        cases hop
        obtain ⟨old, hold, rfl⟩ := FileTree.fill_ok hr hc
        exact h d.tree old hd hold
  · intro e d hcwd hd
    unfold filled
    rw [hcwd]
    split
    · rename_i t hfilled
      cases hr : FileTree.route env.cwd path with
      | error cause => simp [hr, Except.bind] at hfilled
      | ok r =>
          rw [hr] at hfilled
          obtain ⟨old, hold, rfl⟩ := FileTree.fill_ok hr hfilled
          exact htorn e d.tree old _ hd hold
    · exact hE e d.tree hd

theorem inside_getLast? (dir : Text) {n : Text} (hn : Path.Proper n) :
    (inside dir n).getLast? ≠ some Path.slash := by
  have hlast : (inside dir n).getLast? = n.getLast? := by
    obtain ⟨b, hb⟩ := Option.ne_none_iff_exists'.mp
      (mt List.getLast?_eq_none_iff.mp hn.whole.1)
    unfold inside
    split <;> simp [List.getLast?_append, hb]
  rw [hlast]
  intro hslash
  exact hn.whole.2 (List.mem_of_getLast? hslash)

/-- A new file in a directory has a numbered name under which nothing stood, and its path leads
there. -/
theorem leaves_createTemp {dir stem : Text} {Q : Text → FileTree → Prop}
    (hstem : ∀ n, Path.Proper (stem ++ Text.ofNat n))
    (h : ∀ t n, P t →
      t.get? (Path.place env.cwd (inside dir (stem ++ Text.ofNat n))) = none →
      t.Leads env.cwd (inside dir (stem ++ Text.ofNat n)) →
        Q (inside dir (stem ++ Text.ofNat n))
          (t.insert (Path.place env.cwd (inside dir (stem ++ Text.ofNat n))) (.file [])))
    (hE : ∀ e t, P t → E e t) :
    Leaves env P (Host.createTemp dir stem : ExceptT FileError DiskM Text) Q E := by
  refine Leaves.perform ?_ hE
  intro d temp t hcwd hd hop
  have hfree : ∃ n, d.freePath dir stem = inside dir (stem ++ Text.ofNat n) := by
    unfold freePath
    dsimp only
    split
    · exact ⟨_, rfl⟩
    · exact ⟨_, rfl⟩
  obtain ⟨n, hn⟩ := hfree
  rw [hn, hcwd] at hop
  cases hr : FileTree.route env.cwd (inside dir (stem ++ Text.ofNat n)) with
  | error cause => simp [hr, Except.bind] at hop
  | ok r =>
      cases hc : d.tree.createNew r with
      | error cause => simp [hr, hc, Except.bind] at hop
      | ok made =>
          simp only [hr, hc, Except.bind] at hop
          cases hop
          obtain ⟨hnone, hlocate, rfl⟩ := FileTree.createNew_ok hr hc
          refine h d.tree n hd hnone ⟨r, hr, ?_, hlocate⟩
          rw [FileTree.slashed_of_route hr, decide_eq_false_iff_not]
          exact inside_getLast? dir (hstem n)

/-- Renaming a file moves it, over a file or to where nothing stands. -/
theorem leaves_rename {source target : Text} {Q : FileTree → Prop}
    (hfile : ∀ t, P t → ∃ bytes, t.get? (Path.place env.cwd source) = some (.file bytes))
    (h : ∀ t, P t → t.get? (Path.place env.cwd target) ≠ some .dir →
      Q (t.move (Path.place env.cwd source) (Path.place env.cwd target)))
    (hE : ∀ e t, P t → E e t) :
    Leaves env P (Host.rename source target : ExceptT FileError DiskM Unit) (fun _ => Q) E := by
  refine Leaves.perform ?_ hE
  intro d u t hcwd hd hop
  rw [hcwd] at hop
  cases hs : FileTree.route env.cwd source with
  | error cause => simp [hs, bind, Except.bind] at hop
  | ok r =>
      cases ht : FileTree.route env.cwd target with
      | error cause => simp [hs, ht, bind, Except.bind] at hop
      | ok r' =>
          cases hm : d.tree.rename r r' with
          | error cause => simp [hs, ht, hm, bind, Except.bind] at hop
          | ok moved =>
              simp only [hs, ht, hm, bind, Except.bind] at hop
              cases hop
              obtain ⟨bytes, hbytes⟩ := hfile d.tree hd
              obtain ⟨hdir, rfl⟩ := FileTree.rename_file_ok hs ht hbytes hm
              exact h d.tree hd hdir

/-- Removing a file that its path leads to fails only when it is made to. -/
theorem leaves_remove {Q : FileTree → Prop}
    (hfile : ∀ t, P t → t.Leads env.cwd path ∧
      ∃ bytes, t.get? (Path.place env.cwd path) = some (.file bytes))
    (h : ∀ t, P t → Q (t.erase (Path.place env.cwd path)))
    (hE : ∀ n cause e t, env.faults n .remove = some cause → P t → E e t) :
    Leaves env P (Host.remove path : ExceptT FileError DiskM Unit) (fun _ => Q) E := by
  have hremove : ∀ d : Disk, d.cwd = env.cwd → P d.tree → ∀ r,
      FileTree.route env.cwd path = .ok r →
        d.tree.remove r = .ok (d.tree.erase (Path.place env.cwd path)) := by
    intro d hcwd hd r hr
    obtain ⟨hleads, bytes, hbytes⟩ := hfile d.tree hd
    simp [FileTree.remove, FileTree.find_of_leads hr hleads hbytes, bind, Except.bind]
  have hroute : ∀ t, P t → ∃ r, FileTree.route env.cwd path = .ok r := by
    intro t ht
    obtain ⟨⟨r, hr, -⟩, -⟩ := hfile t ht
    exact ⟨r, hr⟩
  refine Leaves.perform_cases (fun n cause d hn _ hd => hE n cause _ d.tree hn hd) ?_ ?_
  · intro d e hcwd hd hop
    obtain ⟨r, hr⟩ := hroute d.tree hd
    rw [hcwd] at hop
    simp [hr, hremove d hcwd hd r hr, bind, Except.bind, pure, Except.pure] at hop
  · intro d u t hcwd hd hop
    obtain ⟨r, hr⟩ := hroute d.tree hd
    rw [hcwd] at hop
    simp only [hr, hremove d hcwd hd r hr, bind, Except.bind, pure, Except.pure] at hop
    cases hop
    exact h d.tree hd

/-! ## Directories on the way -/

theorem leaves_status? {F : ε → FileTree → Prop} :
    Leaves env P (Host.status? path : ExceptT ε DiskM (Option FileKind)) (fun _ => P) F :=
  (leaves_status.outcome).bind fun r => .pure fun t ht => by
    cases r with
    | ok kind => exact ht.1 kind rfl
    | error e => exact ht.2 e rfl

theorem leaves_ensureDir (h : Extends P) :
    Leaves env P (Host.ensureDir path : ExceptT FileError DiskM Unit) (fun _ => P)
      (fun _ => P) := by
  refine ((leaves_makeDir h).outcome).bind fun r => ?_
  cases r with
  | ok u => exact .pure fun t ht => ht.1 u rfl
  | error e =>
      refine (leaves_status?.imp (fun t ht => ht.2 e rfl) (fun _ _ => id) fun _ _ => id).bind
        fun kind => ?_
      split
      · exact .pure fun t ht => ht
      · exact .throw fun t ht => ht

theorem leaves_ensureDirs (h : Extends P) : ∀ paths : List Text,
    Leaves env P (Host.ensureDirs paths : ExceptT FileError DiskM Unit) (fun _ => P)
      (fun _ => P)
  | [] => .pure fun t ht => ht
  | path :: outer => by
      rw [Host.ensureDirs]
      refine leaves_status?.bind fun kind => ?_
      split
      · exact .pure fun t ht => ht
      · exact .throw fun t ht => ht
      · exact (leaves_ensureDirs h outer).bind fun _ => leaves_ensureDir h

theorem leaves_makeDirs (h : Extends P) :
    Leaves env P (Host.makeDirs path : ExceptT FileError DiskM Unit) (fun _ => P)
      (fun _ => P) :=
  leaves_ensureDirs h _

/-! ## Replacing a file -/

theorem leaves_replace {source target : Text} {Q : FileTree → Prop}
    (hfile : ∀ t, P t → ∃ bytes, t.get? (Path.place env.cwd source) = some (.file bytes))
    (h : ∀ t, P t → t.get? (Path.place env.cwd target) ≠ some .dir →
      Q (t.move (Path.place env.cwd source) (Path.place env.cwd target)))
    (hE : ∀ e t, P t → E e t) :
    Leaves env P (Host.replace source target : ExceptT FileError DiskM Unit) (fun _ => Q) E := by
  refine leaves_status?.bind fun kind => ?_
  split
  · exact .throw (hE _)
  · exact leaves_rename hfile h hE

/-- A place in a directory under a name that was made for a file to be written aside. -/
def Aside (dir : Place) (stem : Text) (z : Place) : Prop := ∃ n, z = dir ++ [stem ++ Text.ofNat n]

theorem Aside.ne_root {dir : Place} {stem : Text} {z : Place} (h : Aside dir stem z) : z ≠ [] := by
  obtain ⟨n, rfl⟩ := h
  simp

/-- What a predicate has to survive for a file to be written aside and moved to its path. While the
file stands aside at `z`, `M z` holds: it comes with the empty file, where nothing stood, and stays
whatever is written to the file. The move leaves `Q`, and the file's removal brings the predicate
back, which `M z` gives by itself where removals may be made to fail. -/
structure Survives (env : Surroundings) (P : FileTree → Prop) (M : Place → FileTree → Prop)
    (Q : List UInt8 → FileTree → Prop) (dir stem path : Text)
    (contents : Except ε (List UInt8)) : Prop where
  empty : ∀ t z, P t → Aside (Path.place env.cwd dir) stem z → t.get? z = none →
    M z (t.insert z (.file []))
  filled : ∀ t z old bytes, M z t → Aside (Path.place env.cwd dir) stem z →
    t.get? z = some (.file old) → M z (t.insert z (.file bytes))
  moved : ∀ t z bytes, contents = .ok bytes → M z t → Aside (Path.place env.cwd dir) stem z →
    t.get? z = some (.file bytes) → t.get? (Path.place env.cwd path) ≠ some .dir →
      Q bytes (t.move z (Path.place env.cwd path))
  removed : ∀ t z, M z t → Aside (Path.place env.cwd dir) stem z → P (t.erase z)
  stuck : ∀ n cause, env.faults n .remove = some cause → ∀ t z, M z t →
    Aside (Path.place env.cwd dir) stem z → P t

/-- Writing a file aside fails for want of contents, or on a file. -/
theorem leaves_writeAside {wrap : FileError → ε} {dir stem : Text}
    {contents : Except ε (List UInt8)} {M : Place → FileTree → Prop}
    {Q : List UInt8 → FileTree → Prop} (hdir : dir ≠ [])
    (hstem : ∀ n, Path.Proper (stem ++ Text.ofNat n))
    (h : Survives env P M Q dir stem path contents) :
    Leaves env P (Host.writeAside wrap dir stem path contents : ExceptT ε DiskM Unit)
      (fun _ t => ∃ bytes, contents = .ok bytes ∧ Q bytes t)
      (fun e t => P t ∧ ((∃ f, e = wrap f) ∨ contents = .error e)) := by
  -- A file stands aside at the place of `temp`, and the path leads to it.
  let R (temp : Text) (t : FileTree) : Prop :=
    (M (Path.place env.cwd temp) t ∧
        Aside (Path.place env.cwd dir) stem (Path.place env.cwd temp)) ∧
      t.Leads env.cwd temp ∧ ∃ bytes, t.get? (Path.place env.cwd temp) = some (.file bytes)
  have hput : ∀ (t : FileTree) temp bytes, t.get? (Path.place env.cwd temp) ≠ some .dir →
      t.Leads env.cwd temp →
        (t.insert (Path.place env.cwd temp) (.file bytes)).Leads env.cwd temp ∧
          (t.insert (Path.place env.cwd temp) (.file bytes)).get? (Path.place env.cwd temp)
            = some (.file bytes) := by
    intro t temp bytes hdir hleads
    refine ⟨hleads.mono fun p hp => FileTree.get?_insert_dir hdir hp, ?_⟩
    rw [FileTree.get?_insert t (t.ne_root hdir), if_pos rfl]
  have hcreate : Leaves env P (Host.createTemp dir stem : ExceptT FileError DiskM Text) R
      (fun _ => P) := by
    refine leaves_createTemp hstem ?_ fun _ t ht => ht
    intro t n ht hnone hleads
    have haside : Aside (Path.place env.cwd dir) stem
        (Path.place env.cwd (inside dir (stem ++ Text.ofNat n))) :=
      ⟨n, Path.place_inside hdir (hstem n)⟩
    obtain ⟨hleads', hfile⟩ := hput t _ [] (by simp [hnone]) hleads
    exact ⟨⟨h.empty t _ ht haside hnone, haside⟩, hleads', [], hfile⟩
  refine (hcreate.adapt fun f t ht => ⟨ht, .inl ⟨f, rfl⟩⟩).bind fun temp => ?_
  -- The attempt: with the contents at hand, write them and move the file.
  have hattempt : Leaves env (R temp)
      (do
        let bytes ← ExceptT.mk (pure contents)
        ExceptT.adapt wrap (do
          Host.write temp bytes
          Host.replace temp path) : ExceptT ε DiskM Unit)
      (fun _ t => ∃ bytes, contents = .ok bytes ∧ Q bytes t)
      (fun e t => R temp t ∧ ((∃ f, e = wrap f) ∨ contents = .error e)) := by
    have hgiven : Leaves env (R temp) (ExceptT.mk (pure contents) : ExceptT ε DiskM _)
        (fun bytes t => R temp t ∧ contents = .ok bytes)
        (fun e t => R temp t ∧ ((∃ f, e = wrap f) ∨ contents = .error e)) :=
      (Leaves.given contents).imp (fun _ => id) (fun _ _ => id) fun e t ht => ⟨ht.1, .inr ht.2⟩
    refine hgiven.bind fun bytes => ?_
    let W (t : FileTree) : Prop :=
      (R temp t ∧ contents = .ok bytes) ∧ t.get? (Path.place env.cwd temp) = some (.file bytes)
    have hwrite : Leaves env (fun t => R temp t ∧ contents = .ok bytes)
        (Host.write temp bytes : ExceptT FileError DiskM Unit) (fun _ => W) (fun _ => R temp) := by
      have hfilled : ∀ t old b, R temp t → t.get? (Path.place env.cwd temp) = some (.file old) →
          R temp (t.insert (Path.place env.cwd temp) (.file b)) ∧
            (t.insert (Path.place env.cwd temp) (.file b)).get? (Path.place env.cwd temp)
              = some (.file b) := by
        rintro t old b ⟨⟨hM, haside⟩, hleads, -⟩ hold
        obtain ⟨hleads', hfile⟩ := hput t temp b (by simp [hold]) hleads
        exact ⟨⟨⟨h.filled t _ old b hM haside hold, haside⟩, hleads', b, hfile⟩, hfile⟩
      refine leaves_write ?_ (fun _ t ht => ht.1) fun _ t old part ht hold =>
        (hfilled t old part ht.1 hold).1
      intro t old ht hold
      obtain ⟨hR, hfile⟩ := hfilled t old bytes ht.1 hold
      exact ⟨⟨hR, ht.2⟩, hfile⟩
    have hreplace : Leaves env W (Host.replace temp path : ExceptT FileError DiskM Unit)
        (fun _ t => ∃ bytes, contents = .ok bytes ∧ Q bytes t) (fun _ => R temp) := by
      refine leaves_replace (fun t ht => ⟨bytes, ht.2⟩) ?_ fun _ t ht => ht.1.1
      rintro t ⟨⟨⟨⟨hM, haside⟩, -⟩, hbytes⟩, hfile⟩ hdir
      exact ⟨bytes, hbytes, h.moved t _ bytes hbytes hM haside hfile hdir⟩
    exact (hwrite.bind fun _ => hreplace).adapt fun f t ht => ⟨ht, .inl ⟨f, rfl⟩⟩
  refine hattempt.outcome.bind fun r => ?_
  cases r with
  | ok u => exact .pure fun t ht => ht.1 u rfl
  | error e =>
      have hremove : Leaves env (R temp) (Host.remove temp : ExceptT FileError DiskM Unit)
          (fun _ => P) (fun _ => P) :=
        leaves_remove (fun t ht => ht.2) (fun t ht => h.removed t _ ht.1.1 ht.1.2)
          fun n cause _ t hn ht => h.stuck n cause hn t _ ht.1.1 ht.1.2
      refine .knowing (fun t ht => (ht.2 e rfl).2) fun hcause => ?_
      refine ((hremove.outcome).imp (fun t ht => (ht.2 e rfl).1) (fun _ _ => id) fun _ _ => id).bind
        fun s => .throw fun t ht => ?_
      cases s with
      | ok u => exact ⟨ht.1 u rfl, hcause⟩
      | error e' => exact ⟨ht.2 e' rfl, hcause⟩

/-! ## What is kept either way -/

/-- Work on a disk that keeps a predicate on files, whether it succeeds or fails. -/
def Holds (env : Surroundings) (K : FileTree → Prop) (x : ExceptT ε DiskM α) : Prop :=
  Disk.Leaves env K x (fun _ => K) (fun _ => K)

namespace Holds

variable {env : Surroundings} {K : FileTree → Prop} {x : ExceptT ε DiskM α}

theorem pure (a : α) : Holds env K (pure a : ExceptT ε DiskM α) := Leaves.pure fun _ => id

theorem throw (e : ε) : Holds env K (throw e : ExceptT ε DiskM α) := Leaves.throw fun _ => id

theorem bind {f : α → ExceptT ε DiskM β} (h : Holds env K x) (hf : ∀ a, Holds env K (f a)) :
    Holds env K (x >>= f) :=
  Leaves.bind h hf

theorem adapt (h : Holds env K x) (f : ε → δ) : Holds env K (ExceptT.adapt f x) :=
  Leaves.adapt h fun _ _ => id

theorem outcome (h : Holds env K x) :
    Holds env K (Host.outcome x : ExceptT δ DiskM (Except ε α)) := by
  refine (Leaves.outcome h).imp (fun _ => id) ?_ fun _ _ => id
  intro r t ht
  cases r with
  | ok a => exact ht.1 a rfl
  | error e => exact ht.2 e rfl

theorem exec (h : Holds env K x) {d : Disk} (henv : d.toSurroundings = env) (hK : K d.tree) :
    (run x d).2.toSurroundings = env ∧ K (run x d).2.tree := by
  obtain ⟨henv', hout⟩ := h d henv hK
  refine ⟨henv', ?_⟩
  revert hout
  cases (run x d).1 with
  | ok a => exact id
  | error e => exact id

end Holds

theorem holds_read {env : Surroundings} {K : FileTree → Prop} (path : Text) :
    Holds env K (Host.read path : ExceptT FileError DiskM (List UInt8)) :=
  leaves_read.imp (fun _ => id) (fun _ _ ht => ht.1) fun _ _ => id

end Disk

end Monomorph
