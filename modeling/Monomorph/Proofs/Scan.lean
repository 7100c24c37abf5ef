import Monomorph.Proofs.Calls
import Monomorph.Proofs.Workers

/-!
# The call index is one scan

What the call index holds is what one scan over all definitions finds. Workers that scan the modules
in turns return the same parts in whatever order they are done. None fails unless the work is called
off or a module cannot be announced, since scanning tells no event (`Terms.quiet`).
-/

namespace Monomorph

/-! ## Workers without a cache -/

/-- Announcing a module does not fail and does not call the work off. -/
def Quiet (announcing : Nat → Work DiskM StageError Unit) : Prop :=
  ∀ i w d, w.cancelled = false → ∃ w' d', Work.exec (announcing i) w d = ((.ok (), w'), d') ∧
    w'.cancelled = false

/-- The terms of workers that tell nothing and have no cache. -/
def Terms.quiet (fails : Prop) : Terms :=
  { fails, tells := False, fetches := fun _ found => found = none }

/-- There is no cache, and the work goes on unless `fails` holds. -/
def Terms.Uncached (fails : Prop) (shelf : Option PoolShelf) (w : Monitor) (_ : Disk) : Prop :=
  shelf = none ∧ (¬ fails → w.cancelled = false)

section Quiet

variable {announcing : Nat → Work DiskM StageError Unit} {turns : List Turn} {fails : Prop}

/-- Without a cache, the work of such workers goes on, if announcing does and nobody calls it off. -/
theorem Terms.quiet_kept (hquiet : ¬ fails → Quiet announcing)
    (hturns : ¬ fails → ∀ turn ∈ turns, turn ≠ .cancel) :
    (quiet fails).Kept announcing turns (Uncached fails) where
  called h hcancelled := by
    by_contra hon
    rw [h.2 hon] at hcancelled
    cases hcancelled
  told := False.elim
  traced _ := id
  announced number w d h := by
    by_cases hfails : fails
    · have hany : ∀ w : Monitor, ¬ fails → w.cancelled = false := fun _ hon => absurd hfails hon
      cases (Work.exec (announcing number) w d).1.1 with
      | ok u => exact ⟨h.1, hany _⟩
      | error e => exact ⟨⟨h.1, hany _⟩, hfails⟩
    · obtain ⟨w', d', hexec, hw'⟩ := hquiet hfails number w d (h.2 hfails)
      rw [hexec]
      exact ⟨h.1, fun _ => hw'⟩
  loaded _ h := ⟨trivial, h⟩
  fetched _ h := nomatch h.1
  missed _ _ := rfl
  stored _ h := nomatch h.1
  cancelled hcancel _ _ _ h := ⟨h.1, fun hon => absurd rfl (hturns hon _ hcancel)⟩

/-- Work of such workers succeeds if announcing goes on and nobody calls it off. -/
theorem Work.exec_quiet {α : Type} {x : Work DiskM StageError α} {Q : α → Prop}
    (h : ∀ fails, (Terms.quiet fails).Kept announcing turns (Terms.Uncached fails) →
      Ensures (Terms.Uncached fails none) x (fun a _ _ => Q a) (fun _ _ _ => fails))
    (w : Monitor) (d : Disk) :
    (∀ a, (exec x w d).1.1 = .ok a → Q a) ∧
      (Quiet announcing → (∀ turn ∈ turns, turn ≠ .cancel) → w.cancelled = false →
        ∃ a, (exec x w d).1.1 = .ok a) := by
  let still := Quiet announcing ∧ (∀ turn ∈ turns, turn ≠ .cancel) ∧ w.cancelled = false
  have hstill : ¬ ¬ still → still := not_not.mp
  have hend := h (¬ still)
    (Terms.quiet_kept (fun hon => (hstill hon).1) fun hon => (hstill hon).2.1) w d
    ⟨rfl, fun hon => (hstill hon).2.2⟩
  revert hend
  cases (exec x w d).1.1 with
  | ok a =>
      refine fun hQ => ⟨?_, fun _ _ _ => ⟨a, rfl⟩⟩
      rintro _ ⟨⟩
      exact hQ
  | error e => exact fun hoff => ⟨nofun, fun hquiet hturns hw => absurd ⟨hquiet, hturns, hw⟩ hoff⟩

end Quiet

/-- What the workers of the modules return, when they succeed, is the call index; and they succeed
if nobody calls the work off. -/
theorem Stage.exec_indexModules (announcing : Nat → Work DiskM StageError Unit) (r : Registry)
    (e : Extractor) (parent : Nat) (modules : List Module) (turns : Stage → List Turn) (w : Monitor)
    (d : Disk) :
    let done := (Work.exec (indexModules announcing r e parent modules (.taking turns)) w d).1.1
    (∀ x, done = .ok x → x = CallIndex.build r e (modules.map some)) ∧
      (Quiet announcing → (∀ turn ∈ turns .index, turn ≠ .cancel) → w.cancelled = false →
        ∃ x, done = .ok x) := by
  refine Work.exec_quiet (fun fails hT => ?_) w d
  have hstage : Work.Ensures _ (indexModules announcing r e parent modules (.taking turns)) _ _ :=
    ensures_indexModules hT r e modules
  exact hstage.imp (fun _ _ => id) (fun x _ _ ⟨_, _, hx⟩ => hx) fun _ _ _ => And.right

/-- **The call index is one scan.** Over modules of which some may be missing, and with either
extractor, let `sites` be the calls that one scan over all definitions picks.

* The call sites of a method are those of `sites` that lead to it, in that order and as often, and
  the methods of the index are those that one of `sites` leads to, once each, in the order of the
  first.
* The call sites that the generic extractor gives a method are those of all its call sites that
  carry type arguments of the method or of its declaring type.
* Whatever turns the workers of the modules take, what they return when they succeed is that index;
  and they succeed if nobody calls the work off. -/
theorem CallIndex.build_exact (r : Registry) (e : Extractor) (modules : List (Option Module)) :
    let sites := calls e (Registry.ofModules modules).definitions
    let index := build r e modules
    (∀ id, index.callers id = sites.filter fun s => r.resolveMethod? s.ref = some id) ∧
      index.callees = (sites.filterMap fun s => r.resolveMethod? s.ref).eraseDups ∧
      (index.callees.Nodup ∧ ∀ id, id ∈ index.callees ↔ index.callers id ≠ []) ∧
      (∀ id, (build r .genericOnly modules).callers id
        = ((build r .plain modules).callers id).filter fun s =>
            s.ref.isGenericInstance || s.ref.declaring.isInstance) ∧
      ∀ (announcing : Nat → Work DiskM StageError Unit) (parent : Nat) (turns : Stage → List Turn)
        (w : Monitor) (d : Disk),
        let done := (Work.exec (Stage.indexModules announcing r e parent (modules.filterMap id)
          (.taking turns)) w d).1.1
        (∀ x, done = .ok x → x = index) ∧
          (Quiet announcing → (∀ turn ∈ turns .index, turn ≠ .cancel) → w.cancelled = false →
            done = .ok index) := by
  intro sites index
  have hcallees : index.callees = (sites.filterMap fun s => r.resolveMethod? s.ref).eraseDups :=
    callees_build modules
  have hcallers : ∀ id, index.callers id
      = sites.filter fun s => r.resolveMethod? s.ref = some id := callers_build modules
  refine ⟨hcallers, hcallees, ⟨?_, ?_⟩, ?_, ?_⟩
  · rw [hcallees]
    exact nodup_eraseDups _
  · intro id
    rw [hcallees, hcallers, List.mem_eraseDups, List.mem_filterMap, ne_eq, List.filter_eq_nil_iff]
    simp
  · intro id
    rw [callers_build, callers_build, calls_genericOnly, List.filter_filter, List.filter_filter]
    simp only [Bool.and_comm]
  · intro announcing parent turns w d done
    obtain ⟨hresult, hsuccess⟩ :=
      Stage.exec_indexModules announcing r e parent (modules.filterMap id) turns w d
    have hindex : ∀ x, done = .ok x → x = index := by
      intro x hx
      rw [hresult x hx, ← build_present]
    refine ⟨hindex, ?_⟩
    intro hquiet hturns hw
    obtain ⟨x, hx⟩ := hsuccess hquiet hturns hw
    rw [← hindex x hx]
    exact hx

namespace Sample

/-- A module with a class of its name, whose `Run` makes the calls. -/
def calling (name : Text) (calls : List Instruction) : Option Module :=
  some (.new name [cls name [] [staticMethod "Run" [] calls]])

/-- `A<T>`, `B<T>` and `C` of `Host`, called from two other modules with an empty place between. -/
def scanned : List (Option Module) :=
  let plainCall := withMethod .call (callTo (.define "App.Host") "C" 0 true [] [])
  [some (hostModule [staticMethod "A" ["T"] [], staticMethod "B" ["T"] [], staticMethod "C" [] []]),
    calling "First" [hostCall "B" foo, hostCall "A" foo, plainCall, hostCall "B" bar], none,
    calling "Second" [plainCall, hostCall "A" bar, hostCall "B" foo]]

/-- The second caller is scanned before the first, which starts in between. -/
def scanTurns : List Turn :=
  [.worker 2, .worker 1, .worker 2, .worker 2, .worker 1, .worker 2, .worker 0, .worker 2]

end Sample

open Sample in
/-- Two modules call the same methods in overlapping orders, and are scanned in turns. -/
theorem CallIndex.build_exact_turns :
    let r := Registry.ofModules scanned
    let index := build r .plain scanned
    let host (k : Nat) : MethodId := { type := 2, index := k }
    index.callees = [host 1, host 0, host 2] ∧
      (index.callers (host 1)).map Site.caller = [⟨3, 0⟩, ⟨3, 0⟩, ⟨4, 0⟩] ∧
      (index.callers (host 2)).map Site.caller = [⟨3, 0⟩, ⟨4, 0⟩] ∧
      (build r .genericOnly scanned).callers (host 2) = [] ∧
      (Work.exec (Stage.indexModules (fun _ => return ()) r .plain 0 (scanned.filterMap id)
        (.taking fun _ => scanTurns)) {} {}).1.1 = .ok index := by
  intro r index host
  obtain ⟨hcallers, hcallees, -, hgeneric, hturns⟩ := build_exact r .plain scanned
  refine ⟨hcallees.trans ?_, ?_, ?_, (hgeneric _).trans ?_, ?_⟩
  · decide +kernel
  · rw [hcallers]
    rfl
  · rw [hcallers]
    rfl
  · rw [hcallers]
    rfl
  · refine (hturns _ 0 _ {} {}).2 ?_ ?_ rfl
    · exact fun i w d hw => ⟨w, d, rfl, hw⟩
    · rintro _ hcancel rfl
      simp [scanTurns] at hcancel

end Monomorph
