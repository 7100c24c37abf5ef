import Mathlib.Data.List.Induction
import Monomorph.Proofs.Calls
import Monomorph.Proofs.CleanPath
import Monomorph.Selection

/-!
# Selection is a stable filter

Modules are selected by the names of their clean paths. Paths that are spelled differently and are
the same once they are clean count as one, at the place of the first (`Selection.distinct`), and the
filters look at each path alone. So what is selected from two lists in a row is what is selected from
the first, and then what only the second brings (`Selection.select_append`). Selected paths are clean
and pass the filters, so selecting from them changes nothing (`Selection.select_select`). None of this
depends on the form in which names and keywords are compared.
-/

namespace Monomorph

theorem Text.contains_iff_infix {part t : Text} : Text.contains part t = true ↔ part <:+: t := by
  induction t with
  | nil => rw [contains, List.isEmpty_iff, List.infix_nil]
  | cons b t ih =>
      rw [contains, Bool.or_eq_true, List.isPrefixOf_iff_prefix, ih, List.infix_cons_iff]

namespace Selection

/-! ## The first of equal texts -/

theorem distinct_eq (ts : List Text) : distinct ts = ts.eraseDups := by
  induction ts using List.reverseRecOn with
  | nil => rfl
  | append_singleton ts t ih =>
      have hsnoc : distinct (ts ++ [t])
          = if (distinct ts).contains t then distinct ts else distinct ts ++ [t] :=
        List.foldl_append ..
      rw [hsnoc, ih, eraseDups_snoc]
      simp only [List.contains_iff_mem, List.mem_eraseDups]

/-- The texts that are kept stand in the order in which they first appear. -/
theorem pairwise_eraseDups (ts : List Text) :
    ts.eraseDups.Pairwise fun t u => ts.idxOf t < ts.idxOf u := by
  induction ts using List.reverseRecOn with
  | nil => exact .nil
  | append_singleton ts a ih =>
      have hkept : ts.eraseDups.Pairwise fun t u => (ts ++ [a]).idxOf t < (ts ++ [a]).idxOf u := by
        refine ih.imp_of_mem fun {t u} ht hu hlt => ?_
        rwa [List.idxOf_append_of_mem (List.mem_eraseDups.mp ht),
          List.idxOf_append_of_mem (List.mem_eraseDups.mp hu)]
      rw [eraseDups_snoc]
      by_cases ha : a ∈ ts
      · rwa [if_pos ha]
      · rw [if_neg ha, List.pairwise_append]
        refine ⟨hkept, List.pairwise_singleton .., fun t ht u hu => ?_⟩
        have ht' : t ∈ ts := List.mem_eraseDups.mp ht
        rw [List.mem_singleton.mp hu, List.idxOf_append_of_mem ht', List.idxOf_append_of_notMem ha]
        exact Nat.lt_add_right _ (List.idxOf_lt_length_iff.mpr ht')

theorem eraseDups_of_nodup {ts : List Text} (h : ts.Nodup) : ts.eraseDups = ts := by
  induction ts using List.reverseRecOn with
  | nil => rfl
  | append_singleton ts t ih =>
      obtain ⟨hts, -, hnew⟩ := List.nodup_append.mp h
      have ht : t ∉ ts := fun hmem => hnew t hmem t (List.mem_singleton_self t) rfl
      rw [eraseDups_snoc, if_neg ht, ih hts]

/-- Behind other texts only those are kept that are not among them. -/
theorem eraseDups_append_filter (ts us : List Text) :
    (ts ++ us).eraseDups = ts.eraseDups ++ us.eraseDups.filter (· ∉ ts) := by
  induction us using List.reverseRecOn with
  | nil => simp
  | append_singleton us u ih =>
      rw [← List.append_assoc, eraseDups_snoc, eraseDups_snoc, ih]
      by_cases hus : u ∈ us
      · rw [if_pos (List.mem_append_right ts hus), if_pos hus]
      · rw [if_neg hus, List.filter_append]
        by_cases hts : u ∈ ts
        · rw [if_pos (List.mem_append_left us hts)]
          simp [hts]
        · have hnew : u ∉ ts ++ us := by
            rw [List.mem_append, not_or]
            exact ⟨hts, hus⟩
          rw [if_neg hnew]
          simp [hts]

/-! ## Names that pass -/

/-- A name holds one of the keywords that are not empty, both in the form in which they are
compared. -/
def Holds (fold : Text → Text) (keywords : List Text) (name : Text) : Prop :=
  ∃ k ∈ keywords, k ≠ [] ∧ fold k <:+: fold name

/-- A name holds a keyword, if there are any, and none of the excluded words. -/
def Wanted (fold : Text → Text) (keywords exclude : List Text) (name : Text) : Prop :=
  (keywords = [] ∨ Holds fold keywords name) ∧ ¬ Holds fold exclude name

variable {fold : Text → Text} {keywords exclude : List Text}

theorem hasKeyword_iff {name : Text} :
    hasKeyword name keywords fold = true ↔ Holds fold keywords name := by
  simp [hasKeyword, Holds, Text.contains_iff_infix]

theorem passes_iff {path : Text} :
    passes keywords exclude fold path = true ↔ Wanted fold keywords exclude (moduleName path) := by
  simp [passes, Wanted, ← hasKeyword_iff]

/-- The name of a module is a matter of the last name of its path. -/
theorem moduleName_congr {p q : Text} (h : Path.base p = Path.base q) :
    moduleName p = moduleName q := by
  rw [moduleName, moduleName, h]

/-! ## What is selected -/

theorem mem_select {candidates : List Text} {p : Text} :
    p ∈ select candidates keywords exclude fold ↔
      ∃ c ∈ candidates, Path.clean c = p ∧ Wanted fold keywords exclude (moduleName p) := by
  rw [select, distinct_eq, List.mem_filter, List.mem_eraseDups, List.mem_map, passes_iff]
  constructor
  · rintro ⟨⟨c, hc, rfl⟩, hwanted⟩
    exact ⟨c, hc, rfl, hwanted⟩
  · rintro ⟨c, hc, rfl, hwanted⟩
    exact ⟨⟨c, hc, rfl⟩, hwanted⟩

theorem nodup_select (candidates : List Text) :
    (select candidates keywords exclude fold).Nodup := by
  rw [select, distinct_eq]
  exact (nodup_eraseDups _).filter _

/-- Selected paths are clean. -/
theorem map_clean_select (candidates : List Text) :
    (select candidates keywords exclude fold).map Path.clean
      = select candidates keywords exclude fold := by
  refine (List.map_congr_left fun p hp => ?_).trans (List.map_id _)
  obtain ⟨c, -, rfl, -⟩ := mem_select.mp hp
  exact Path.clean_clean c

theorem select_select (candidates : List Text) :
    select (select candidates keywords exclude fold) keywords exclude fold
      = select candidates keywords exclude fold := by
  have hpass : ∀ p ∈ select candidates keywords exclude fold,
      passes keywords exclude fold p = true := fun p hp => (List.mem_filter.mp hp).2
  rw [select, map_clean_select, distinct_eq, eraseDups_of_nodup (nodup_select candidates),
    List.filter_eq_self.mpr hpass]

theorem select_append (a b : List Text) :
    select (a ++ b) keywords exclude fold
      = select a keywords exclude fold
        ++ (select b keywords exclude fold).filter (· ∉ select a keywords exclude fold) := by
  have hnew : ∀ p, passes keywords exclude fold p = true →
      (p ∈ select a keywords exclude fold ↔ p ∈ a.map Path.clean) := by
    intro p hp
    rw [select, distinct_eq, List.mem_filter, List.mem_eraseDups]
    exact and_iff_left hp
  have hrest : ((b.map Path.clean).eraseDups.filter (· ∉ a.map Path.clean)).filter
        (passes keywords exclude fold)
      = (select b keywords exclude fold).filter (· ∉ select a keywords exclude fold) := by
    rw [select.eq_def b, distinct_eq, List.filter_filter, List.filter_filter]
    refine List.filter_congr fun p _ => ?_
    by_cases hp : passes keywords exclude fold p = true
    · simp only [hp, hnew p hp, Bool.and_true, Bool.true_and]
    · simp [hp]
  rw [select, distinct_eq, List.map_append, eraseDups_append_filter, List.filter_append, hrest,
    select.eq_def a, distinct_eq]

/-- **Selection is a stable, idempotent filter.** Take any candidates, keywords and excluded words,
and any form in which names are compared.

* No path is selected twice. A path is selected if it is the clean form of a candidate, and its
  module name holds a keyword, or there are none, and no excluded word.
* The selected paths stand in the order in which they first appear among the clean candidates.
* A candidate has the module name of its clean form, unless it ends with a name for a directory.
* Selecting from what is selected gives it back.
* Selecting from two lists in a row gives what is selected from the first, and behind it what is
  selected from the second and is not there yet. -/
theorem select_stable (fold : Text → Text) (keywords exclude a b : List Text) :
    let chosen := fun candidates => select candidates keywords exclude fold
    (chosen a).Nodup ∧
      (∀ p, p ∈ chosen a ↔
        ∃ c ∈ a, Path.clean c = p ∧ Wanted fold keywords exclude (moduleName p)) ∧
      (chosen a).Pairwise
        (fun p q => (a.map Path.clean).idxOf p < (a.map Path.clean).idxOf q) ∧
      (∀ c ∈ a, Path.base c ≠ Path.here → Path.base c ≠ Path.up →
        moduleName (Path.clean c) = moduleName c) ∧
      chosen (chosen a) = chosen a ∧
      chosen (a ++ b) = chosen a ++ (chosen b).filter (· ∉ chosen a) := by
  intro chosen
  refine ⟨nodup_select a, fun p => mem_select, ?_, ?_, select_select a, select_append a b⟩
  · have hkept := (pairwise_eraseDups (a.map Path.clean)).filter (passes keywords exclude fold)
    rwa [← distinct_eq] at hkept
  · intro c _ hhere hup
    exact moduleName_congr (Path.base_clean hhere hup)

/-- One path is given in two spellings, and one of the paths that match is excluded. The second list
brings one path more: the others do not match or are selected already. -/
theorem select_stable_spellings :
    let chosen := fun candidates =>
      select candidates ["RENDER"] ["tests"] (List.map lowerByte)
    let a : List Text := ["build/./Render.bin", "Core.bin", "build//Render.bin",
      "lib/../Render.Tests.bin", "lib/Renderer.bin"]
    let b : List Text := ["lib/", "tmp/../lib/Renderer.bin", "../render.bin", "/Tests/Core.bin"]
    chosen a = ["build/Render.bin", "lib/Renderer.bin"] ∧
      chosen ["build/Render.bin", "lib/Renderer.bin"] = ["build/Render.bin", "lib/Renderer.bin"] ∧
      chosen (a ++ b) = ["build/Render.bin", "lib/Renderer.bin", "../render.bin"] ∧
      Path.base "build/./Render.bin" ≠ Path.here ∧ Path.base "build/./Render.bin" ≠ Path.up ∧
      moduleName (Path.clean "build/./Render.bin") = moduleName "build/./Render.bin" := by
  intro chosen a b
  have hchosen : chosen a = ["build/Render.bin", "lib/Renderer.bin"] := by decide +kernel
  have hmore : chosen b = ["lib/Renderer.bin", "../render.bin"] := by decide +kernel
  have hhere : Path.base "build/./Render.bin" ≠ Path.here := by decide
  have hup : Path.base "build/./Render.bin" ≠ Path.up := by decide
  obtain ⟨-, -, -, hname, hagain, happend⟩ :=
    select_stable (List.map lowerByte) ["RENDER"] ["tests"] a b
  refine ⟨hchosen, ?_, ?_, hhere, hup, hname _ (by decide) hhere hup⟩
  · rw [← hchosen]
    exact hagain
  · have hrest : chosen (a ++ b) = chosen a ++ (chosen b).filter (· ∉ chosen a) := happend
    rw [hrest, hchosen, hmore]
    decide +kernel

end Selection

end Monomorph
