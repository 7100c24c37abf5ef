import Monomorph.Proofs.Places

/-!
# A clean path stays as it is

Cleaning keeps the names of a path on a stack. A name for the enclosing directory takes the last name
away, so what such a name stands on can only be others of its kind, and at the root there is none
(`Path.Settled`). A stack of that form, read again from the bottom, comes out as it went in
(`Path.Settled.refold`), and a path is clean once it is cleaned (`Path.clean_clean`).

The last name of a path is read off its names (`Path.base_eq`). Unless it is one of the two dotted
ones, cleaning leaves it alone (`Path.base_clean`).
-/

namespace Monomorph.Path

/-! ## Settled stacks -/

/-- The stacks of names, last first, that cleaning comes to: a name for the enclosing directory
stands on nothing or on another one, and there is none at the root. -/
inductive Settled (rooted : Bool) : List Text → Prop where
  | empty : Settled rooted []
  | name {n : Text} {before : List Text} (below : Settled rooted before) (not_here : n ≠ here)
      (not_up : n ≠ up) : Settled rooted (n :: before)
  | out {before : List Text} (below : Settled rooted before) (free : rooted = false)
      (last : ∀ n ∈ before.head?, n = up) : Settled rooted (up :: before)

theorem cleanStep_name {n : Text} (hhere : n ≠ here) (hup : n ≠ up) (rooted : Bool)
    (before : List Text) : cleanStep rooted before n = n :: before := by
  unfold cleanStep
  rw [if_neg hhere, if_neg hup]

/-- One more name. -/
theorem Settled.step {rooted : Bool} {before : List Text} (h : Settled rooted before) (n : Text) :
    Settled rooted (cleanStep rooted before n) := by
  unfold cleanStep
  by_cases hhere : n = here
  · rwa [if_pos hhere]
  · rw [if_neg hhere]
    by_cases hup : n = up
    · subst hup
      rw [if_pos rfl]
      cases h with
      | empty =>
          cases rooted with
          | true => exact .empty
          | false => exact .out .empty rfl (by simp)
      | name below not_here not_up => simpa [not_up] using below
      | out below free last => simpa using .out (.out below free last) free (by simp)
    · rw [if_neg hup]
      exact .name h hhere hup

theorem settled_cleaned (p : Text) : Settled (isAbsolute p) (cleaned p) :=
  List.foldlRecOn (names p) (cleanStep (isAbsolute p)) .empty fun _ h n _ => h.step n

/-- A settled stack that is built up again is the same. -/
theorem Settled.refold {rooted : Bool} {before : List Text} (h : Settled rooted before) :
    before.reverse.foldl (cleanStep rooted) [] = before := by
  induction h with
  | empty => rfl
  | name _ not_here not_up ih =>
      rw [List.reverse_cons, List.foldl_append, ih]
      exact cleanStep_name not_here not_up rooted _
  | @out before _ free last ih =>
      have hstep : cleanStep rooted before up = up :: before := by
        unfold cleanStep
        rw [if_neg (by decide), if_pos rfl]
        cases before with
        | nil => simp [free]
        | cons n before => simp [last n (by simp)]
      rw [List.reverse_cons, List.foldl_append, ih]
      exact hstep

theorem cleaned_clean (p : Text) : cleaned (clean p) = cleaned p := by
  by_cases hnil : cleaned p = []
  · rw [clean_eq, hnil]
    split <;> rfl
  · rw [cleaned, isAbsolute_clean, names_clean p hnil]
    exact (settled_cleaned p).refold

/-- A clean path is a matter of its start and of the names that are left. -/
theorem clean_congr {p q : Text} (habs : isAbsolute p = isAbsolute q)
    (hnames : cleaned p = cleaned q) : clean p = clean q := by
  rw [clean_eq p, clean_eq q, habs, hnames]

theorem clean_clean (p : Text) : clean (clean p) = clean p :=
  clean_congr (isAbsolute_clean p) (cleaned_clean p)

/-! ## The last name -/

theorem names_append_slashes (p : Text) (k : Nat) :
    names (p ++ List.replicate k slash) = names p := by
  induction k with
  | zero => rw [List.replicate_zero, List.append_nil]
  | succ k ih =>
      rw [List.replicate_succ', ← List.append_assoc, names_append, ih]
      exact List.append_nil _

theorem dropTrailingSlashes_append (p : Text) :
    ∃ k, dropTrailingSlashes p ++ List.replicate k slash = p := by
  have hslashes : ∀ b ∈ p.reverse.takeWhile (· = slash), b = slash := fun b hb => by
    simpa using List.all_eq_true.mp List.all_takeWhile b hb
  refine ⟨(p.reverse.takeWhile (· = slash)).length, ?_⟩
  rw [dropTrailingSlashes, ← List.reverse_replicate, ← List.eq_replicate_of_mem hslashes,
    ← List.reverse_append, List.takeWhile_append_dropWhile, List.reverse_reverse]

theorem names_dropTrailingSlashes (p : Text) : names (dropTrailingSlashes p) = names p := by
  obtain ⟨k, hk⟩ := dropTrailingSlashes_append p
  rw [← names_append_slashes _ k, hk]

/-- A path that does not end with a slash ends with a name. -/
theorem lastName_dropTrailingSlashes {p : Text} (h : dropTrailingSlashes p ≠ []) :
    (names p).getLast? = some (lastName (dropTrailingSlashes p)) := by
  have hne : lastName (dropTrailingSlashes p) ≠ [] := by
    unfold lastName dropTrailingSlashes at *
    rw [List.reverse_reverse]
    rw [List.reverse_ne_nil_iff] at *
    have hfirst := List.head?_dropWhile_not (· = slash) p.reverse
    obtain ⟨b, rest, hrest⟩ := List.exists_cons_of_ne_nil h
    rw [hrest] at hfirst ⊢
    have hb : b ≠ slash := by simpa using hfirst
    simp [hb]
  have hwhole : Whole (lastName (dropTrailingSlashes p)) := ⟨hne, slash_not_mem_lastName _⟩
  rw [← names_dropTrailingSlashes p]
  conv_lhs => rw [← upToLastSlash_append (dropTrailingSlashes p)]
  rcases upToLastSlash_cases (dropTrailingSlashes p) with hnil | ⟨u, hu⟩
  · rw [hnil, List.nil_append, names_whole hwhole]
    rfl
  · rw [hu, List.append_assoc, List.singleton_append, names_append, names_whole hwhole,
      List.getLast?_append]
    rfl

/-- The last name of a path; one without names is the root or the directory itself. -/
theorem base_eq (p : Text) :
    base p = ((names p).getLast?).getD (if isAbsolute p then "/" else here) := by
  unfold base
  by_cases hnil : p = []
  · subst hnil
    rfl
  · rw [if_neg hnil]
    by_cases hslashes : dropTrailingSlashes p = []
    · obtain ⟨k, hk⟩ := dropTrailingSlashes_append p
      rw [hslashes, List.nil_append] at hk
      have hnames : names p = [] := by
        rw [← names_dropTrailingSlashes, hslashes]
        rfl
      cases k with
      | zero => exact absurd hk.symm hnil
      | succ k =>
          have habs : isAbsolute p = true := by
            rw [← hk, List.replicate_succ]
            rfl
          rw [hslashes, hnames, habs]
          rfl
    · have hlast := lastName_dropTrailingSlashes hslashes
      have hne : lastName (dropTrailingSlashes p) ≠ [] :=
        (whole_of_mem_names (List.mem_of_getLast? hlast)).1
      rw [hlast]
      split
      · contradiction
      · rfl

/-- Cleaning leaves the last name alone, unless it stands for the directory itself or for the
enclosing one. -/
theorem base_clean {p : Text} (hhere : base p ≠ here) (hup : base p ≠ up) :
    base (clean p) = base p := by
  rw [base_eq] at hhere hup
  rw [base_eq, base_eq, isAbsolute_clean]
  rcases List.eq_nil_or_concat (names p) with hnil | ⟨ns, n, hns⟩
  -- Without names the path is made of slashes, and its clean form is the root.
  · cases habs : isAbsolute p with
    | false => simp [hnil, habs] at hhere
    | true =>
        have hclean : names (clean p) = [] := by
          unfold clean
          rw [hnil, habs]
          rfl
        rw [hclean, hnil]
  · rw [List.concat_eq_append] at hns
    rw [hns, List.getLast?_concat, Option.getD_some] at hhere hup
    have hcleaned : cleaned p = n :: ns.foldl (cleanStep (isAbsolute p)) [] := by
      rw [cleaned, hns, List.foldl_append]
      exact cleanStep_name hhere hup _ _
    rw [names_clean p (by simp [hcleaned]), hcleaned, hns, List.reverse_cons, List.getLast?_concat,
      List.getLast?_concat]

end Monomorph.Path
