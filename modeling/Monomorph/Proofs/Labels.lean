import Mathlib.Data.List.Chain
import Mathlib.Data.List.Infix
import Mathlib.Data.List.Nodup
import Monomorph.Board

/-!
# What a board shows of the events it takes in

A line of a board depends on what the events say about its file, and on nothing else
(`Board.labels_foldl`), as long as files are told apart. What a run says about a file keeps to a
course (`Progress.Orderly`), along which nothing follows a final label; so the count of finished
files only grows.
-/

namespace Monomorph

/-! ## What is said about a file -/

namespace Progress

/-- What events say about a file, in order; about the empty file, what they say about stages. -/
def about (file : Text) (es : List Progress) : List (Stage × Status) :=
  (es.filter fun e => e.file = file).map fun e => (e.stage, e.status)

theorem about_append (file : Text) (es es' : List Progress) :
    about file (es ++ es') = about file es ++ about file es' := by
  simp [about]

theorem about_same {file : Text} {es : List Progress} (h : ∀ e ∈ es, e.file = file) :
    about file es = es.map fun e => (e.stage, e.status) := by
  have hall : es.filter (fun e => e.file = file) = es :=
    List.filter_eq_self.mpr fun e he => decide_eq_true (h e he)
  rw [about, hall]

theorem about_other {file : Text} {es : List Progress} (h : ∀ e ∈ es, e.file ≠ file) :
    about file es = [] := by
  have hnone : es.filter (fun e => e.file = file) = [] :=
    List.filter_eq_nil_iff.mpr fun e he => by simpa using h e he
  rw [about, hnone, List.map_nil]

theorem about_mono {es es' : List Progress} (h : es <+: es') (file : Text) :
    about file es <+: about file es' := (h.filter _).map _

/-- One event for each of some files says the same once about each. -/
theorem about_each (s : Stage) (status : Status) {file : Text} : ∀ {files : List Text},
    files.Nodup → file ∈ files →
      about file (files.map fun file => { file, stage := s, status }) = [(s, status)]
  | other :: files, hnodup, h => by
      rcases List.nodup_cons.mp hnodup with ⟨hother, hnodup⟩
      rw [List.map_cons, ← List.singleton_append, about_append]
      rcases List.mem_cons.mp h with rfl | h
      · have hrest : about file (files.map fun file => { file, stage := s, status }) = [] := by
          refine about_other fun e he => ?_
          rcases List.mem_map.mp he with ⟨f, hf, rfl⟩
          rintro rfl
          exact hother hf
        rw [hrest, about_same (by simp)]
        rfl
      · have hfirst : about file [{ file := other, stage := s, status }] = [] := by
          refine about_other fun e he => ?_
          rw [List.mem_singleton.mp he]
          rintro rfl
          exact hother h
        rw [hfirst, about_each s status hnodup h]
        rfl

/-- What is said about a file that goes through all stages. -/
def course : List (Stage × Status) :=
  [(.load, .queued), (.load, .working), (.index, .working), (.harvest, .working), (.harvest, .done)]

/-- What is said about a file that cannot be loaded. -/
def unreadable : List (Stage × Status) := [(.load, .queued), (.load, .working), (.load, .error)]

/-- The file is somewhere on its course, or could not be loaded. -/
def Orderly (said : List (Stage × Status)) : Prop := said ∈ unreadable :: course.inits

instance (said : List (Stage × Status)) : Decidable (Orderly said) :=
  inferInstanceAs (Decidable (said ∈ _))

end Progress

open Progress

/-! ## Labels -/

/-- The label of a file about which that was said. -/
def Label.after (said : List (Stage × Status)) : Label :=
  said.foldl (fun label (stage, status) => (Label.of? stage status).getD label) .queued

/-- A label that is final on the course of a file stays final. -/
theorem Progress.Orderly.isFinal_mono {all said said' : List (Stage × Status)} (h : Orderly all)
    (hsaid' : said' <+: all) (hsaid : said <+: said') (hfinal : (Label.after said).isFinal = true) :
    (Label.after said').isFinal = true := by
  have hcourse : ∀ all ∈ unreadable :: course.inits, ∀ said' ∈ all.inits, ∀ said ∈ said'.inits,
      (Label.after said).isFinal = true → (Label.after said').isFinal = true := by
    decide
  exact hcourse all h said' ((List.mem_inits _ _).mpr hsaid') said ((List.mem_inits _ _).mpr hsaid)
    hfinal

namespace Board

/-- What the board says about each of its files. -/
def labels (b : Board) : List (Text × Label) := b.items.map fun i => (i.path, i.label)

theorem finished_eq (b : Board) : b.finished = b.labels.countP fun p => p.2.isFinal := by
  rw [labels, List.countP_map]
  rfl

theorem labels_start (title : Text) (files : List Text) :
    (start title files).labels = files.map fun file => (file, .queued) := by
  simp [labels, start]

/-- A file of the board has a line, and no other file has one. -/
theorem line?_cases (b : Board) (file : Text) :
    (b.line? file = none ∧ file ∉ b.labels.map Prod.fst) ∨
      ∃ line, b.line? file = some line ∧ (b.labels.map Prod.fst)[line]? = some file := by
  have hpaths : b.labels.map Prod.fst = b.items.map BoardItem.path := by
    rw [labels, List.map_map]
    rfl
  rw [hpaths]
  unfold line?
  cases hfind : b.items.zipIdx.reverse.find? fun p => p.1.path = file with
  | none =>
      refine Or.inl ⟨rfl, fun hmem => ?_⟩
      rcases List.mem_map.mp hmem with ⟨i, hi, rfl⟩
      rcases List.getElem_of_mem hi with ⟨n, hn, rfl⟩
      have hnone := List.find?_eq_none.mp hfind (b.items[n], n) (by simp [List.mem_zipIdx_iff_getElem?])
      simp at hnone
  | some p =>
      refine Or.inr ⟨p.2, rfl, ?_⟩
      have hpath : p.1.path = file := by simpa using List.find?_some hfind
      have hget : b.items[p.2]? = some p.1 := by
        have hmem := List.mem_of_find?_eq_some hfind
        rwa [List.mem_reverse, List.mem_zipIdx_iff_getElem?] at hmem
      rw [List.getElem?_map, hget, Option.map_some, hpath]

theorem labels_relabel (b : Board) (line : Nat) (label : Label) (stage : Stage) :
    (b.relabel line label stage).labels = b.labels.modify line fun p => (p.1, label) := by
  ext n : 1
  simp only [labels, relabel, List.getElem?_map, List.getElem?_modify]
  cases b.items[n]? with
  | none => rfl
  | some i =>
      by_cases hn : line = n
      · simp [hn]
      · simp [hn]

/-- An event changes the label of its file and no other. -/
theorem labels_apply {b : Board} (hnodup : (b.labels.map Prod.fst).Nodup)
    (hnamed : [] ∉ b.labels.map Prod.fst) (e : Progress) :
    (b.apply e).labels = b.labels.map fun p =>
      (p.1, if p.1 = e.file then (Label.of? e.stage e.status).getD p.2 else p.2) := by
  have hunknown : e.file ∉ b.labels.map Prod.fst → b.labels = b.labels.map fun p =>
      (p.1, if p.1 = e.file then (Label.of? e.stage e.status).getD p.2 else p.2) := by
    intro hfile
    refine ((List.map_congr_left fun p hp => ?_).trans (List.map_id _)).symm
    have hother : p.1 ≠ e.file := fun heq => hfile (heq ▸ List.mem_map_of_mem hp)
    rw [if_neg hother]
    rfl
  unfold apply
  dsimp only
  by_cases hempty : e.file = []
  · rw [if_pos hempty]
    exact hunknown (hempty ▸ hnamed)
  · rw [if_neg hempty]
    rcases b.line?_cases e.file with ⟨hline, hfile⟩ | ⟨line, hline, hget⟩
    · rw [hline]
      exact hunknown hfile
    · rw [hline]
      cases Label.of? e.stage e.status with
      | none =>
          show b.labels = _
          simp
      | some label =>
          show (b.relabel line label e.stage).labels = _
          rw [labels_relabel]
          ext n : 1
          rw [List.getElem?_modify, List.getElem?_map]
          cases hn : b.labels[n]? with
          | none => rfl
          | some p =>
              -- As files are told apart, the line that changes is the only one of the file.
              have hsame : line = n ↔ p.1 = e.file := by
                have hp : (b.labels.map Prod.fst)[n]? = some p.1 := by
                  rw [List.getElem?_map, hn, Option.map_some]
                constructor
                · rintro rfl
                  rw [hget] at hp
                  exact (Option.some.inj hp).symm
                · intro heq
                  rw [heq, ← hget] at hp
                  rcases List.getElem?_eq_some_iff.mp hget with ⟨hlt, -⟩
                  exact (List.getElem?_inj hlt hnodup).mp hp.symm
              by_cases hfile : p.1 = e.file
              · simp [hsame, hfile]
              · simp [hsame, hfile]

/-- **A board shows what is said about its files.** -/
theorem labels_foldl (title : Text) {files : List Text} (hnodup : files.Nodup)
    (hnamed : [] ∉ files) (es : List Progress) :
    (es.foldl apply (start title files)).labels
      = files.map fun file => (file, Label.after (about file es)) := by
  induction es using List.reverseRecOn with
  | nil => exact labels_start title files
  | append_singleton es e ih =>
      have hfiles : (es.foldl apply (start title files)).labels.map Prod.fst = files := by
        rw [ih, List.map_map]
        exact List.map_id _
      rw [List.foldl_append, List.foldl_cons, List.foldl_nil,
        labels_apply (hfiles.symm ▸ hnodup) (hfiles.symm ▸ hnamed), ih, List.map_map]
      refine List.map_congr_left fun file _ => ?_
      rw [Function.comp_apply, about_append]
      by_cases hfile : file = e.file
      · have hsaid : about file [e] = [(e.stage, e.status)] := about_same (by simp [hfile])
        rw [if_pos hfile, hsaid]
        simp [Label.after]
      · have hsaid : about file [e] = [] := about_other (by simpa using Ne.symm hfile)
        rw [if_neg hfile, hsaid, List.append_nil]

theorem finished_foldl (title : Text) {files : List Text} (hnodup : files.Nodup)
    (hnamed : [] ∉ files) (es : List Progress) :
    (es.foldl apply (start title files)).finished
      = files.countP fun file => (Label.after (about file es)).isFinal := by
  rw [finished_eq, labels_foldl title hnodup hnamed, List.countP_map]
  rfl

/-- The counts that a board goes through, where one more event never takes from them. -/
theorem isChain_replay : ∀ (es : List Progress) (b : Board),
    (∀ pre e post, es = pre ++ e :: post →
      (pre.foldl apply b).finished ≤ ((pre ++ [e]).foldl apply b).finished) →
    ((b :: b.replay es).map finished).IsChain (· ≤ ·)
  | [], b, _ => by
      show List.IsChain _ [b.finished, b.finished]
      simp
  | e :: es, b, h => by
      refine List.isChain_cons_cons.mpr ⟨h [] e es rfl, isChain_replay es (b.apply e) ?_⟩
      intro pre e' post hsplit
      exact h (e :: pre) e' post (by rw [hsplit, List.cons_append])

/-- Where what is said about each file keeps to its course, finished files stay finished. -/
theorem finished_forward (title : Text) {files : List Text} (hnodup : files.Nodup)
    (hnamed : [] ∉ files) {es : List Progress} (h : ∀ file ∈ files, Orderly (about file es)) :
    ((start title files :: (start title files).replay es).map finished).IsChain (· ≤ ·) := by
  refine isChain_replay es _ fun pre e post hsplit => ?_
  rw [finished_foldl title hnodup hnamed, finished_foldl title hnodup hnamed]
  refine List.countP_mono_left fun file hfile hfinal => ?_
  -- A file that is finished before the event has come to the end of its course.
  have hlater : pre ++ [e] <+: es := ⟨post, by rw [hsplit, List.append_assoc]; rfl⟩
  exact (h file hfile).isFinal_mono (about_mono hlater file)
    (about_mono (List.prefix_append pre [e]) file) hfinal

/-- Where every file has gone through its course, every line shows that it is done. -/
theorem done_foldl (title : Text) {files : List Text} (hnodup : files.Nodup)
    (hnamed : [] ∉ files) {es : List Progress} (h : ∀ file ∈ files, about file es = course) :
    (es.foldl apply (start title files)).finished = files.length ∧
      (es.foldl apply (start title files)).labels = files.map fun file => (file, .done) := by
  have hdone : ∀ file ∈ files, Label.after (about file es) = .done := by
    intro file hfile
    rw [h file hfile]
    decide
  constructor
  · rw [finished_foldl title hnodup hnamed, List.countP_eq_length]
    intro file hfile
    rw [hdone file hfile]
    decide
  · rw [labels_foldl title hnodup hnamed]
    exact List.map_congr_left fun file hfile => by rw [hdone file hfile]

end Board

end Monomorph
