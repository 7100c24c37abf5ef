import Mathlib.Data.List.Induction
import Monomorph.Resolve.Walk

/-!
# The run of a chain walk

A chain is the specification: a pair is carried through call sites one by one. A walk is a tree of
calls of `Walk.walk`, each with the state in which it starts; `Walk.Call` says which calls a walk
makes. A call either ends at once or enters its pair and makes one call for each call site that
binds. Three facts carry everything else:

* what a call returns is part of what the whole walk returns (`Call.returns`);
* every pair on the stack or in the memory has been entered, and every pair that is returned is the
  pair of a call that ends on it (`Call.sound`);
* a pair is called only at the end of a chain of entered pairs (`Call.chain`).

None of them looks at how keys are made, so pairs that share a key do no harm here.
-/

namespace Monomorph

namespace Pair

/-- A call site of the pair's method carries its type over to the calling method. -/
def Steps (callers : MethodId → List Site) (p q : Pair) : Prop :=
  ∃ site ∈ callers p.entry,
    (Bindings.ofSite site.ref).apply p.type = .ok q.type ∧ q.entry = site.caller

/-- The type still holds a parameter. -/
def Generic (p : Pair) : Prop := p.type.isConcrete = false

/-- A chain of `n` substitutions from `p` to `q`; every pair before the last one satisfies `via`. -/
inductive Chain (callers : MethodId → List Site) (via : Pair → Prop) : Nat → Pair → Pair → Prop where
  | refl (p : Pair) : Chain callers via 0 p p
  | snoc {n : Nat} {p q r : Pair} (h : Chain callers via n p q) (hq : via q)
      (hs : q.Steps callers r) : Chain callers via (n + 1) p r

variable {callers : MethodId → List Site} {via via' : Pair → Prop}

theorem Chain.imp (hvia : ∀ p, via p → via' p) {n : Nat} {p q : Pair}
    (h : Chain callers via n p q) : Chain callers via' n p q := by
  induction h with
  | refl p => exact .refl p
  | snoc _ hq hs ih => exact .snoc ih (hvia _ hq) hs

/-- What one substitution keeps, a chain keeps. -/
theorem Chain.invariant {P : Pair → Prop} (hstep : ∀ p q, P p → p.Steps callers q → P q) {n : Nat}
    {p q : Pair} (h : Chain callers via n p q) (hp : P p) : P q := by
  induction h with
  | refl p => exact hp
  | snoc _ _ hs ih => exact hstep _ _ (ih hp) hs

end Pair

/-- The second counts forget no cut of the first. -/
structure WalkCounts.Le (a b : WalkCounts) : Prop where
  depth : a.depth ≤ b.depth
  cycles : a.cycles ≤ b.cycles

theorem WalkCounts.Le.refl (a : WalkCounts) : a.Le a := ⟨Nat.le_refl _, Nat.le_refl _⟩

theorem WalkCounts.Le.trans {a b c : WalkCounts} (h : a.Le b) (h' : b.Le c) : a.Le c :=
  ⟨Nat.le_trans h.depth h'.depth, Nat.le_trans h.cycles h'.cycles⟩

namespace WalkState

/-- The state while the call sites of `p` are walked. -/
def enter (s : WalkState) (p : Pair) : WalkState := { s with onStack := p.key :: s.onStack }

/-- The state behind the call sites of `p`, which was entered in state `before` and ends on
`out`. -/
def leave (s : WalkState) (p : Pair) (before : WalkState) (out : List Pair) : WalkState :=
  { s with onStack := before.onStack, memo := (p.key, out) :: s.memo }

end WalkState

namespace Walk

variable (callers : MethodId → List Site)

/-- What one call site adds to the pairs and to the state so far. -/
def visit (left : Nat) (type : TypeRef) (acc : List Pair × WalkState) (site : Site) :
    List Pair × WalkState :=
  match (Bindings.ofSite site.ref).apply type with
  | .error f => (acc.1, { acc.2 with counts := countFailure f acc.2.counts })
  | .ok t =>
    let (more, s) := walk callers left { type := t, entry := site.caller } acc.2
    (acc.1 ++ more, s)

/-- The call sites of `p` in a row, behind the state `s` in which `p` was entered. -/
def sweep (left : Nat) (p : Pair) (s : WalkState) (sites : List Site) : List Pair × WalkState :=
  sites.foldl (visit callers left p.type) ([], s.enter p)

/-- A call goes on to the call sites of its pair. -/
structure Enters (p : Pair) (s : WalkState) : Prop where
  generic : p.Generic
  fresh : s.memo.lookup p.key = none
  off : p.key ∉ s.onStack
  called : callers p.entry ≠ []

/-- A call ends on its own pair: the type is concrete, or no memory answers for the pair, and it is
being walked already, nothing is left, or its method has no call sites. -/
def Ends (left : Nat) (p : Pair) (s : WalkState) : Prop :=
  p.type.isConcrete = true ∨ p.Generic ∧ s.memo.lookup p.key = none ∧
    (p.key ∈ s.onStack ∨ p.key ∉ s.onStack ∧ (left = 0 ∨ callers p.entry = []))

variable {callers}

theorem sweep_nil (left : Nat) (p : Pair) (s : WalkState) :
    sweep callers left p s [] = ([], s.enter p) := rfl

theorem sweep_snoc (left : Nat) (p : Pair) (s : WalkState) (sites : List Site) (site : Site) :
    sweep callers left p s (sites ++ [site])
      = visit callers left p.type (sweep callers left p s sites) site := by
  simp [sweep, List.foldl_append]

theorem visit_error {left : Nat} {type : TypeRef} {site : Site} {f : SubstFailure}
    (h : (Bindings.ofSite site.ref).apply type = .error f) (acc : List Pair × WalkState) :
    visit callers left type acc site
      = (acc.1, { acc.2 with counts := countFailure f acc.2.counts }) := by
  simp [visit, h]

theorem visit_ok {left : Nat} {type t : TypeRef} {site : Site}
    (h : (Bindings.ofSite site.ref).apply type = .ok t) (acc : List Pair × WalkState) :
    visit callers left type acc site
      = (acc.1 ++ (walk callers left { type := t, entry := site.caller } acc.2).1,
          (walk callers left { type := t, entry := site.caller } acc.2).2) := by
  simp [visit, h]

/-! ## The ways a call ends -/

theorem walk_concrete {left : Nat} {p : Pair} {s : WalkState} (h : p.type.isConcrete = true) :
    walk callers left p s = ([p], s) := by
  rw [walk.eq_def]
  simp [h]

theorem walk_remembered {left : Nat} {p : Pair} {s : WalkState} {out : List Pair}
    (h : p.Generic) (hm : s.memo.lookup p.key = some out) :
    walk callers left p s = (out, s) := by
  rw [walk.eq_def]
  simp [show p.type.isConcrete = false from h, hm]

theorem walk_cycle {left : Nat} {p : Pair} {s : WalkState} (h : p.Generic)
    (hm : s.memo.lookup p.key = none) (hs : p.key ∈ s.onStack) :
    walk callers left p s
      = ([p], { s with counts := { s.counts with cycles := s.counts.cycles + 1 } }) := by
  rw [walk.eq_def]
  simp [show p.type.isConcrete = false from h, hm, hs]

theorem walk_cut {p : Pair} {s : WalkState} (h : p.Generic)
    (hm : s.memo.lookup p.key = none) (hs : p.key ∉ s.onStack) :
    walk callers 0 p s
      = ([p], { s with counts := { s.counts with depth := s.counts.depth + 1 } }) := by
  rw [walk.eq_def]
  simp [show p.type.isConcrete = false from h, hm, hs]

theorem walk_uncalled {left : Nat} {p : Pair} {s : WalkState} (h : p.Generic)
    (hm : s.memo.lookup p.key = none) (hs : p.key ∉ s.onStack) (hc : callers p.entry = []) :
    walk callers (left + 1) p s = ([p], s) := by
  rw [walk.eq_def]
  simp [show p.type.isConcrete = false from h, hm, hs, hc]

theorem walk_enters {left : Nat} {p : Pair} {s : WalkState} (h : Enters callers p s) :
    walk callers (left + 1) p s
      = ((sweep callers left p s (callers p.entry)).1,
          (sweep callers left p s (callers p.entry)).2.leave p s
            (sweep callers left p s (callers p.entry)).1) := by
  rw [walk.eq_def]
  simp only [show p.type.isConcrete = false from h.generic, h.fresh, List.contains_iff_mem, h.off]
  cases hc : callers p.entry with
  | nil => exact absurd hc h.called
  | cons site sites => rfl

/-- A call that does not enter its pair ends on the pair or returns what the memory holds for it;
stack and memory stay, no cut is forgotten, and nothing faults. -/
theorem walk_of_not_enters {left : Nat} {p : Pair} {s : WalkState}
    (h : left = 0 ∨ ¬ Enters callers p s) :
    ∃ out counts, walk callers left p s = (out, { s with counts := counts }) ∧
      s.counts.Le counts ∧ (out = [p] ∧ Ends callers left p s ∨ (p.key, out) ∈ s.memo) ∧
      counts.faulted = s.counts.faulted := by
  cases hconc : p.type.isConcrete with
  | true =>
      exact ⟨[p], s.counts, walk_concrete hconc, .refl _, Or.inl ⟨rfl, Or.inl hconc⟩, rfl⟩
  | false =>
      cases hm : s.memo.lookup p.key with
      | some out =>
          refine ⟨out, s.counts, walk_remembered hconc hm, .refl _, Or.inr ?_, rfl⟩
          obtain ⟨l₁, l₂, hl, -⟩ := List.lookup_eq_some_iff.mp hm
          simp [hl]
      | none =>
          by_cases hs : p.key ∈ s.onStack
          · exact ⟨[p], _, walk_cycle hconc hm hs, ⟨Nat.le_refl _, Nat.le_succ _⟩,
              Or.inl ⟨rfl, Or.inr ⟨hconc, hm, Or.inl hs⟩⟩, rfl⟩
          · cases left with
            | zero =>
                exact ⟨[p], _, walk_cut hconc hm hs, ⟨Nat.le_succ _, Nat.le_refl _⟩,
                  Or.inl ⟨rfl, Or.inr ⟨hconc, hm, Or.inr ⟨hs, Or.inl rfl⟩⟩⟩, rfl⟩
            | succ left =>
                have hc : callers p.entry = [] := by
                  by_contra hc
                  rcases h with h | h
                  · exact Nat.succ_ne_zero _ h
                  · exact h ⟨hconc, hm, hs, hc⟩
                exact ⟨[p], s.counts, walk_uncalled hconc hm hs hc, .refl _,
                  Or.inl ⟨rfl, Or.inr ⟨hconc, hm, Or.inr ⟨hs, Or.inr hc⟩⟩⟩, rfl⟩

/-! ## Nothing that was returned or counted is lost -/

/-- Later results hold the earlier ones, and later counts of cuts are no smaller. -/
structure Grows (before after : List Pair × WalkState) : Prop where
  out : before.1 ⊆ after.1
  cuts : before.2.counts.Le after.2.counts

theorem Grows.refl (acc : List Pair × WalkState) : Grows acc acc :=
  ⟨List.Subset.refl _, .refl _⟩

theorem Grows.trans {a b c : List Pair × WalkState} (h : Grows a b) (h' : Grows b c) :
    Grows a c := ⟨List.Subset.trans h.out h'.out, h.cuts.trans h'.cuts⟩

theorem foldl_visit_grows {left : Nat} {type : TypeRef}
    (hwalk : ∀ (p : Pair) (s : WalkState), s.counts.Le (walk callers left p s).2.counts)
    (sites : List Site) :
    ∀ acc, Grows acc (sites.foldl (visit callers left type) acc) := by
  induction sites with
  | nil => exact Grows.refl
  | cons site sites ih =>
      intro acc
      refine Grows.trans ?_ (ih (visit callers left type acc site))
      cases hsub : (Bindings.ofSite site.ref).apply type with
      | error f =>
          rw [visit_error hsub]
          refine ⟨List.Subset.refl _, ?_⟩
          cases f <;> exact ⟨Nat.le_refl _, Nat.le_refl _⟩
      | ok t =>
          rw [visit_ok hsub]
          exact ⟨List.subset_append_left _ _, hwalk _ _⟩

theorem cuts_le_walk (left : Nat) : ∀ (p : Pair) (s : WalkState),
    s.counts.Le (walk callers left p s).2.counts := by
  induction left with
  | zero =>
      intro p s
      have hends : 0 = 0 ∨ ¬ Enters callers p s := Or.inl rfl
      obtain ⟨out, counts, hw, hd, -⟩ := walk_of_not_enters hends
      rw [hw]
      exact hd
  | succ left ih =>
      intro p s
      by_cases he : Enters callers p s
      · rw [walk_enters he]
        exact (foldl_visit_grows ih (callers p.entry) ([], s.enter p)).cuts
      · have hends : left + 1 = 0 ∨ ¬ Enters callers p s := Or.inr he
        obtain ⟨out, counts, hw, hd, -⟩ := walk_of_not_enters hends
        rw [hw]
        exact hd

variable (callers) in
theorem sweep_grows (left : Nat) (p : Pair) (s : WalkState) (pre post : List Site) :
    Grows (sweep callers left p s pre) (sweep callers left p s (pre ++ post)) := by
  rw [sweep, sweep, List.foldl_append]
  exact foldl_visit_grows (cuts_le_walk left) post _

/-! ## Walks that do not fault -/

theorem faulted_sweep {left : Nat} {p : Pair} {s : WalkState}
    (hwalk : ∀ q s, p.Steps callers q →
      (walk callers left q s).2.counts.faulted = s.counts.faulted)
    (hbind : ∀ site ∈ callers p.entry,
      (Bindings.ofSite site.ref).apply p.type ≠ .error .outOfRange) (sites : List Site) :
    sites ⊆ callers p.entry →
      (sweep callers left p s sites).2.counts.faulted = s.counts.faulted := by
  -- The sites are taken from the left: each visit starts in the state that those before it left.
  induction sites using List.reverseRecOn with
  | nil => exact fun _ => rfl
  | append_singleton sites site ih =>
      intro hsites
      have hsite : site ∈ callers p.entry := hsites (by simp)
      have hbefore := ih fun x hx => hsites (List.mem_append_left _ hx)
      rw [sweep_snoc]
      cases hsub : (Bindings.ofSite site.ref).apply p.type with
      | error f =>
          rw [visit_error hsub, ← hbefore]
          cases f with
          | unbound => rfl
          | outOfRange => exact absurd hsub (hbind site hsite)
      | ok t =>
          rw [visit_ok hsub, ← hbefore]
          exact hwalk _ _ ⟨site, hsite, hsub, rfl⟩

/-- A walk through pairs whose call sites all bind within their arguments does not fault. -/
theorem faulted_walk {P : Pair → Prop} (hstep : ∀ p q, P p → p.Steps callers q → P q)
    (hbind : ∀ p, P p → ∀ site ∈ callers p.entry,
      (Bindings.ofSite site.ref).apply p.type ≠ .error .outOfRange) (left : Nat) :
    ∀ (p : Pair) (s : WalkState), P p →
      (walk callers left p s).2.counts.faulted = s.counts.faulted := by
  have hends : ∀ {left p s}, left = 0 ∨ ¬ Enters callers p s →
      (walk callers left p s).2.counts.faulted = s.counts.faulted := by
    intro left p s h
    obtain ⟨out, counts, hw, -, -, hf⟩ := walk_of_not_enters h
    rw [hw]
    exact hf
  induction left with
  | zero => exact fun p s _ => hends (Or.inl rfl)
  | succ left ih =>
      intro p s hp
      by_cases he : Enters callers p s
      · have hwalk : ∀ q s, p.Steps callers q →
            (walk callers left q s).2.counts.faulted = s.counts.faulted :=
          fun q s hq => ih q s (hstep p q hp hq)
        rw [walk_enters he]
        exact faulted_sweep hwalk (hbind p hp) (callers p.entry) (List.Subset.refl _)
      · exact hends (Or.inr he)

/-! ## The calls of a walk -/

variable (callers) in
/-- The calls that the walk of `root` makes when a chain may have `limit` substitutions: how many
of them are left, the pair, and the state in which the call starts. -/
inductive Call (limit : Nat) (root : Pair) : Nat → Pair → WalkState → Prop where
  | root : Call limit root limit root {}
  | site {left : Nat} {p : Pair} {s : WalkState} {pre post : List Site} {site : Site} {t : TypeRef}
      (h : Call limit root (left + 1) p s) (he : Enters callers p s)
      (hsites : callers p.entry = pre ++ site :: post)
      (ht : (Bindings.ofSite site.ref).apply p.type = .ok t) :
      Call limit root left { type := t, entry := site.caller } (sweep callers left p s pre).2

variable (callers) in
/-- The walk makes a call for the pair. -/
def Called (limit : Nat) (root p : Pair) : Prop := ∃ left s, Call callers limit root left p s

variable (callers) in
/-- The walk makes a call that ends on the pair. -/
def Ended (limit : Nat) (root p : Pair) : Prop :=
  ∃ left s, Call callers limit root left p s ∧ Ends callers left p s

variable (callers) in
/-- The walk goes through the call sites of the pair. -/
def Expanded (limit : Nat) (root p : Pair) : Prop :=
  ∃ left s, Call callers limit root (left + 1) p s ∧ Enters callers p s

variable (callers) in
/-- The pairs that the walk of `root` ends on. -/
def finals (limit : Nat) (root : Pair) : List Pair := (walk callers limit root {}).1

variable {limit : Nat} {root : Pair}

theorem Expanded.generic {p : Pair} (h : Expanded callers limit root p) : p.Generic := by
  obtain ⟨_, _, _, he⟩ := h
  exact he.generic

theorem Expanded.called {p : Pair} (h : Expanded callers limit root p) :
    callers p.entry ≠ [] := by
  obtain ⟨_, _, _, he⟩ := h
  exact he.called

/-- A pair is called at the end of a chain of expanded pairs, and the chain has used up what is no
longer left. -/
theorem Call.chain {left : Nat} {p : Pair} {s : WalkState}
    (h : Call callers limit root left p s) :
    ∃ n, n + left = limit ∧ Pair.Chain callers (Expanded callers limit root) n root p := by
  induction h with
  | root => exact ⟨0, Nat.zero_add _, .refl _⟩
  | @site left p s pre post site t h he hsites ht ih =>
      obtain ⟨n, hn, hchain⟩ := ih
      refine ⟨n + 1, by omega, .snoc hchain ⟨left, s, h, he⟩ ⟨site, ?_, ht, rfl⟩⟩
      simp [hsites]

/-- What a call returns is part of what the walk returns, and its cuts are among those of the
walk. -/
theorem Call.returns {left : Nat} {p : Pair} {s : WalkState}
    (h : Call callers limit root left p s) :
    Grows (walk callers left p s) (walk callers limit root {}) := by
  induction h with
  | root => exact Grows.refl _
  | @site left p s pre post site t h he hsites ht ih =>
      refine Grows.trans ?_ ih
      rw [walk_enters he]
      have hgrow := sweep_grows callers left p s (pre ++ [site]) post
      rw [List.append_assoc, List.singleton_append, ← hsites, sweep_snoc, visit_ok ht] at hgrow
      exact ⟨List.Subset.trans (List.subset_append_right _ _) hgrow.out, hgrow.cuts⟩

variable (callers limit root) in
/-- Every pair on the stack and in the memory is expanded, and what the memory holds are ends of
calls. -/
structure Sound (s : WalkState) : Prop where
  stack : ∀ k ∈ s.onStack, ∃ q, Expanded callers limit root q ∧ q.key = k
  memo : ∀ e ∈ s.memo, (∃ q, Expanded callers limit root q ∧ q.key = e.1) ∧
    ∀ q ∈ e.2, Ended callers limit root q

theorem Sound.of_counts {s : WalkState} (h : Sound callers limit root s) (counts : WalkCounts) :
    Sound callers limit root { s with counts := counts } := ⟨h.stack, h.memo⟩

theorem sweep_sound {left : Nat} {p : Pair} {s : WalkState}
    (hwalk : ∀ q s, Call callers limit root left q s → Sound callers limit root s →
      (∀ r ∈ (walk callers left q s).1, Ended callers limit root r) ∧
        Sound callers limit root (walk callers left q s).2)
    (h : Call callers limit root (left + 1) p s) (he : Enters callers p s)
    (hs : Sound callers limit root s) (pre : List Site) :
    ∀ post, callers p.entry = pre ++ post →
      (∀ r ∈ (sweep callers left p s pre).1, Ended callers limit root r) ∧
        Sound callers limit root (sweep callers left p s pre).2 := by
  induction pre using List.reverseRecOn with
  | nil =>
      intro post _
      rw [sweep_nil]
      refine ⟨by simp, ?_, hs.memo⟩
      intro k hk
      rcases List.mem_cons.mp hk with rfl | hk
      · exact ⟨p, ⟨left, s, h, he⟩, rfl⟩
      · exact hs.stack k hk
  | append_singleton pre site ih =>
      intro post hsites
      rw [List.append_assoc, List.singleton_append] at hsites
      obtain ⟨hout, hsound⟩ := ih _ hsites
      rw [sweep_snoc]
      cases hsub : (Bindings.ofSite site.ref).apply p.type with
      | error f =>
          rw [visit_error hsub]
          exact ⟨hout, hsound.of_counts _⟩
      | ok t =>
          rw [visit_ok hsub]
          obtain ⟨hmore, hsound'⟩ := hwalk _ _ (Call.site h he hsites hsub) hsound
          refine ⟨?_, hsound'⟩
          intro r hr
          rcases List.mem_append.mp hr with hr | hr
          · exact hout r hr
          · exact hmore r hr

theorem walk_sound (left : Nat) : ∀ (p : Pair) (s : WalkState),
    Call callers limit root left p s → Sound callers limit root s →
      (∀ r ∈ (walk callers left p s).1, Ended callers limit root r) ∧
        Sound callers limit root (walk callers left p s).2 := by
  -- A call that enters its pair is handled by the sweep; any other call changes neither the stack
  -- nor the memory.
  have hends : ∀ {left p s}, left = 0 ∨ ¬ Enters callers p s →
      Call callers limit root left p s → Sound callers limit root s →
        (∀ r ∈ (walk callers left p s).1, Ended callers limit root r) ∧
          Sound callers limit root (walk callers left p s).2 := by
    intro left p s h hcall hs
    obtain ⟨out, counts, hw, -, hout, -⟩ := walk_of_not_enters h
    rw [hw]
    refine ⟨?_, hs.of_counts counts⟩
    intro r hr
    rcases hout with ⟨rfl, hends⟩ | hmem
    · rw [List.mem_singleton.mp hr]
      exact ⟨left, s, hcall, hends⟩
    · exact (hs.memo _ hmem).2 r hr
  induction left with
  | zero =>
      intro p s
      exact hends (Or.inl rfl)
  | succ left ih =>
      intro p s hcall hs
      by_cases he : Enters callers p s
      · obtain ⟨hout, hsound⟩ :=
          sweep_sound ih hcall he hs (callers p.entry) [] (List.append_nil _).symm
        rw [walk_enters he]
        refine ⟨hout, hs.stack, ?_⟩
        intro e hmem
        rcases List.mem_cons.mp hmem with rfl | hmem
        · exact ⟨⟨p, ⟨left, s, hcall, he⟩, rfl⟩, hout⟩
        · exact hsound.memo e hmem
      · exact hends (Or.inr he) hcall hs

/-- The state in which any call of the walk starts is sound. -/
theorem Call.sound {left : Nat} {p : Pair} {s : WalkState}
    (h : Call callers limit root left p s) : Sound callers limit root s := by
  induction h with
  | root => exact ⟨by simp, by simp⟩
  | @site left p s pre post site t h he hsites ht ih =>
      exact (sweep_sound (walk_sound left) h he ih pre _ hsites).2

/-- What the walk ends on are ends of its calls. -/
theorem ended_of_mem_finals {q : Pair} (h : q ∈ finals callers limit root) :
    Ended callers limit root q :=
  (walk_sound limit root {} .root Call.root.sound).1 q h

/-- A pair that the walk ends on is at the end of a chain of expanded pairs. -/
theorem chain_of_mem_finals {q : Pair} (h : q ∈ finals callers limit root) :
    ∃ n, n ≤ limit ∧ Pair.Chain callers (Expanded callers limit root) n root q := by
  obtain ⟨left, s, hcall, -⟩ := ended_of_mem_finals h
  obtain ⟨n, hn, hchain⟩ := hcall.chain
  exact ⟨n, by omega, hchain⟩

/-! ## Where a walk can only end -/

variable (callers) in
/-- Nothing can follow the pair: its type is concrete, or its method has no call sites. -/
def Terminal (p : Pair) : Prop := p.type.isConcrete = true ∨ callers p.entry = []

/-- No pair with the key of an uncalled pair is on the stack or in the memory. -/
theorem Sound.uncalled {s : WalkState} (h : Sound callers limit root s) {p : Pair}
    (hp : callers p.entry = []) : s.memo.lookup p.key = none ∧ p.key ∉ s.onStack := by
  have hkey : ∀ q, Expanded callers limit root q → q.key ≠ p.key := by
    intro q hq hqp
    have hentry : q.entry = p.entry := congrArg PairKey.entry hqp
    exact hq.called (hentry ▸ hp)
  constructor
  · rw [List.lookup_eq_none_iff]
    intro e he
    obtain ⟨⟨q, hq, hqe⟩, -⟩ := h.memo e he
    simpa [hqe] using (hkey q hq).symm
  · intro hmem
    obtain ⟨q, hq, hqe⟩ := h.stack _ hmem
    exact hkey q hq hqe

theorem Call.mem_walk_of_terminal {left : Nat} {p : Pair} {s : WalkState}
    (h : Call callers limit root left p s) (hp : Terminal callers p) :
    p ∈ (walk callers left p s).1 := by
  have hends : left = 0 ∨ ¬ Enters callers p s := by
    right
    intro he
    rcases hp with hp | hp
    · exact Bool.false_ne_true (he.generic.symm.trans hp)
    · exact he.called hp
  obtain ⟨out, counts, hw, -, hout, -⟩ := walk_of_not_enters hends
  rw [hw]
  rcases hout with ⟨rfl, -⟩ | hmem
  · exact List.mem_singleton_self p
  · rcases hp with hp | hp
    · rw [walk_concrete hp] at hw
      rw [← (Prod.mk.inj hw).1]
      exact List.mem_singleton_self p
    · -- What has no call sites is never entered, so no memory answers for it.
      have hnone := (h.sound.uncalled hp).1
      rw [List.lookup_eq_none_iff] at hnone
      simpa using hnone _ hmem

theorem mem_finals_of_chain {q : Pair} (hq : Terminal callers q) {n : Nat}
    (hchain : Pair.Chain callers (Expanded callers limit root) n root q) :
    q ∈ finals callers limit root := by
  cases hchain with
  | refl => exact Call.root.mem_walk_of_terminal hq
  | @snoc n _ p _ _ hp hstep =>
      obtain ⟨left, s, hcall, he⟩ := hp
      obtain ⟨site, hsite, ht, hentry⟩ := hstep
      obtain ⟨pre, post, hsites⟩ := List.append_of_mem hsite
      have hchild := Call.site hcall he hsites ht
      have hpair : ({ type := q.type, entry := site.caller } : Pair) = q := by rw [← hentry]
      rw [hpair] at hchild
      exact hchild.returns.out (hchild.mem_walk_of_terminal hq)

/-- A pair that nothing can follow is among the ends of the walk exactly when a chain of expanded
pairs leads to it. -/
theorem mem_finals_iff {q : Pair} (hq : Terminal callers q) :
    q ∈ finals callers limit root ↔
      ∃ n, n ≤ limit ∧ Pair.Chain callers (Expanded callers limit root) n root q := by
  refine ⟨chain_of_mem_finals, ?_⟩
  rintro ⟨n, -, hchain⟩
  exact mem_finals_of_chain hq hchain

/-- A generic pair that is called with substitutions left, or in a walk without depth cuts, is
expanded under its key unless its method has no call sites. -/
theorem Call.expanded {left : Nat} {p : Pair} {s : WalkState}
    (h : Call callers limit root left p s) (hp : p.Generic) (hc : callers p.entry ≠ [])
    (hleft : left ≠ 0 ∨ (walk callers limit root {}).2.counts.depth = 0) :
    ∃ q, Expanded callers limit root q ∧ q.key = p.key := by
  cases hm : s.memo.lookup p.key with
  | some out =>
      obtain ⟨l₁, l₂, hl, -⟩ := List.lookup_eq_some_iff.mp hm
      exact (h.sound.memo (p.key, out) (by simp [hl])).1
  | none =>
      by_cases hs : p.key ∈ s.onStack
      · exact h.sound.stack _ hs
      · cases left with
        | succ left => exact ⟨p, ⟨left, s, h, hp, hm, hs, hc⟩, rfl⟩
        | zero =>
            -- The call counts a cut, and the whole walk counts no fewer than its calls.
            have hcut := h.returns.cuts.depth
            rw [walk_cut hp hm hs] at hcut
            rcases hleft with hleft | hleft
            · exact absurd rfl hleft
            · rw [hleft] at hcut
              exact absurd hcut (Nat.not_succ_le_zero _)

/-- Without cuts a walk ends only where nothing can follow. -/
theorem terminal_of_mem_finals {q : Pair}
    (hdepth : (walk callers limit root {}).2.counts.depth = 0)
    (hcycles : (walk callers limit root {}).2.counts.cycles = 0)
    (h : q ∈ finals callers limit root) : Terminal callers q := by
  obtain ⟨left, s, hcall, hends⟩ := ended_of_mem_finals h
  have hcuts := hcall.returns.cuts
  rcases hends with hconc | ⟨hgen, hm, hs | ⟨hs, rfl | hc⟩⟩
  · exact Or.inl hconc
  · have hcycle := hcuts.cycles
    rw [walk_cycle hgen hm hs, hcycles] at hcycle
    exact absurd hcycle (Nat.not_succ_le_zero _)
  · have hcut := hcuts.depth
    rw [walk_cut hgen hm hs, hdepth] at hcut
    exact absurd hcut (Nat.not_succ_le_zero _)
  · exact Or.inr hc

end Walk

end Monomorph
