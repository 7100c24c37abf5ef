import Mathlib.Data.Finset.Card
import Monomorph.Proofs.Decoded

/-!
# The stack of a chain walk

A walk keeps the keys of the pairs that it is in the middle of. `Walk.CallUnder` is `Walk.Call` with
these pairs: it says under which other calls a call is made. The keys on the stack are those of the
calls above, no two of them are the same, and there are as many as substitutions have been used up.

So a walk runs out of substitutions only where more different keys stand above one another than the
limit allows. Where the keys that chains reach are no more than that, the walk makes no cut at the
limit, however its calls recur (`Engine.recursion_uncut`).
-/

namespace Monomorph

namespace Walk

variable (callers : MethodId → List Site)

/-- The calls of a walk under the pairs from whose call sites they are made, the nearest first. -/
inductive CallUnder (limit : Nat) (root : Pair) : List Pair → Nat → Pair → WalkState → Prop where
  | root : CallUnder limit root [] limit root {}
  | site {above : List Pair} {left : Nat} {p : Pair} {s : WalkState} {pre post : List Site}
      {site : Site} {t : TypeRef} (h : CallUnder limit root above (left + 1) p s)
      (he : Enters callers p s) (hsites : callers p.entry = pre ++ site :: post)
      (ht : (Bindings.ofSite site.ref).apply p.type = .ok t) :
      CallUnder limit root (p :: above) left { type := t, entry := site.caller }
        (sweep callers left p s pre).2

variable {callers} {limit : Nat} {root : Pair}

theorem call_iff_exists_above {left : Nat} {p : Pair} {s : WalkState} :
    Call callers limit root left p s ↔ ∃ above, CallUnder callers limit root above left p s := by
  constructor
  · intro h
    induction h with
    | root => exact ⟨[], .root⟩
    | site _ he hsites ht ih =>
        rcases ih with ⟨above, habove⟩
        exact ⟨_ :: above, .site habove he hsites ht⟩
  · rintro ⟨above, h⟩
    induction h with
    | root => exact .root
    | site _ he hsites ht ih => exact .site ih he hsites ht

/-! ## The stack before, during and behind a call -/

theorem onStack_sweep {left : Nat}
    (hwalk : ∀ (q : Pair) (s : WalkState), (walk callers left q s).2.onStack = s.onStack) (p : Pair)
    (s : WalkState) (sites : List Site) :
    (sweep callers left p s sites).2.onStack = p.key :: s.onStack := by
  induction sites using List.reverseRecOn with
  | nil => rfl
  | append_singleton sites site ih =>
      rw [sweep_snoc]
      cases hsub : (Bindings.ofSite site.ref).apply p.type with
      | error f => rw [visit_error hsub, ih]
      | ok t => rw [visit_ok hsub, hwalk, ih]

/-- A call leaves the stack as it was. -/
theorem onStack_walk (left : Nat) : ∀ (p : Pair) (s : WalkState),
    (walk callers left p s).2.onStack = s.onStack := by
  have hends : ∀ {left p s}, left = 0 ∨ ¬ Enters callers p s →
      (walk callers left p s).2.onStack = s.onStack := by
    intro left p s h
    rcases walk_of_not_enters h with ⟨out, counts, hw, -⟩
    rw [hw]
  cases left with
  | zero => exact fun p s => hends (Or.inl rfl)
  | succ left =>
      intro p s
      by_cases he : Enters callers p s
      · rw [walk_enters he]
        rfl
      · exact hends (Or.inr he)

/-- What a call finds on the stack: the keys of the pairs above it, each once, and as many as
substitutions have been used up. -/
structure Stacked (limit : Nat) (above : List Pair) (left : Nat) (s : WalkState) : Prop where
  keys : s.onStack = above.map Pair.key
  nodup : s.onStack.Nodup
  generic : ∀ p ∈ above, p.Generic
  depth : above.length + left = limit

theorem CallUnder.stacked {above : List Pair} {left : Nat} {p : Pair} {s : WalkState}
    (h : CallUnder callers limit root above left p s) : Stacked limit above left s := by
  induction h with
  | root => exact ⟨rfl, List.nodup_nil, by simp, Nat.zero_add _⟩
  | @site above left p s pre post site t _ he _ _ ih =>
      have hstack : (sweep callers left p s pre).2.onStack = p.key :: s.onStack :=
        onStack_sweep (onStack_walk left) p s pre
      refine ⟨?_, ?_, ?_, ?_⟩
      · rw [hstack, ih.keys, List.map_cons]
      · rw [hstack]
        exact List.nodup_cons.mpr ⟨he.off, ih.nodup⟩
      · intro q hq
        rcases List.mem_cons.mp hq with rfl | hq
        · exact he.generic
        · exact ih.generic q hq
      · have hdepth := ih.depth
        rw [List.length_cons]
        omega

/-- The pairs above a call, and its own, are at the ends of chains. -/
theorem CallUnder.chain {above : List Pair} {left : Nat} {p : Pair} {s : WalkState}
    (h : CallUnder callers limit root above left p s) :
    ∀ q ∈ p :: above, ∃ n, Pair.Chain callers Pair.Generic n root q := by
  induction h with
  | root =>
      intro q hq
      rw [List.mem_singleton.mp hq]
      exact ⟨0, .refl _⟩
  | @site above left p s pre post site t _ he hsites ht ih =>
      intro q hq
      rcases List.mem_cons.mp hq with rfl | hq
      · rcases ih p List.mem_cons_self with ⟨n, hchain⟩
        exact ⟨n + 1, .snoc hchain he.generic ⟨site, by simp [hsites], ht, rfl⟩⟩
      · exact ih q hq

/-! ## Where cuts come from -/

theorem depth_of_not_enters {left : Nat} {p : Pair} {s : WalkState}
    (h : left = 0 ∨ ¬ Enters callers p s)
    (hcut : left = 0 → p.Generic → s.memo.lookup p.key = none → p.key ∈ s.onStack) :
    (walk callers left p s).2.counts.depth = s.counts.depth := by
  cases hconc : p.type.isConcrete with
  | true => rw [walk_concrete hconc]
  | false =>
      cases hm : s.memo.lookup p.key with
      | some out => rw [walk_remembered hconc hm]
      | none =>
          by_cases hs : p.key ∈ s.onStack
          · rw [walk_cycle hconc hm hs]
          · cases left with
            | zero => exact absurd (hcut rfl hconc hm) hs
            | succ left =>
                -- Only a pair without callers is left: any other would have been entered.
                have hc : callers p.entry = [] := by
                  by_contra hc
                  rcases h with h | h
                  · exact Nat.succ_ne_zero _ h
                  · exact h ⟨hconc, hm, hs, hc⟩
                rw [walk_uncalled hconc hm hs hc]

theorem depth_sweep {left : Nat} {p : Pair} {s : WalkState}
    (hwalk : ∀ q s, Call callers limit root left q s →
      (walk callers left q s).2.counts.depth = s.counts.depth)
    (h : Call callers limit root (left + 1) p s) (he : Enters callers p s) (pre : List Site) :
    ∀ post, callers p.entry = pre ++ post →
      (sweep callers left p s pre).2.counts.depth = s.counts.depth := by
  induction pre using List.reverseRecOn with
  | nil => exact fun _ _ => rfl
  | append_singleton pre site ih =>
      intro post hsites
      rw [List.append_assoc, List.singleton_append] at hsites
      have hbefore := ih _ hsites
      rw [sweep_snoc]
      cases hsub : (Bindings.ofSite site.ref).apply p.type with
      | error f =>
          rw [visit_error hsub, ← hbefore]
          cases f <;> rfl
      | ok t =>
          rw [visit_ok hsub, hwalk _ _ (.site h he hsites hsub), hbefore]

/-- A walk counts no cut if each of its calls that has nothing left ends for another reason. -/
theorem depth_walk (hcut : ∀ p s, Call callers limit root 0 p s → p.Generic →
      s.memo.lookup p.key = none → p.key ∈ s.onStack) (left : Nat) :
    ∀ (p : Pair) (s : WalkState), Call callers limit root left p s →
      (walk callers left p s).2.counts.depth = s.counts.depth := by
  induction left with
  | zero => exact fun p s h => depth_of_not_enters (Or.inl rfl) fun _ => hcut p s h
  | succ left ih =>
      intro p s h
      by_cases he : Enters callers p s
      · rw [walk_enters he]
        exact depth_sweep ih h he (callers p.entry) [] (List.append_nil _).symm
      · exact depth_of_not_enters (Or.inr he) fun hleft => absurd hleft (Nat.succ_ne_zero left)

/-- With nothing left, as many different keys stand on the stack as chains can reach at most, so
the key of a generic pair is one of them. -/
theorem CallUnder.mem_onStack {reachable : Finset PairKey}
    (hreach : ∀ n q, Pair.Chain callers Pair.Generic n root q → q.Generic → q.key ∈ reachable)
    (hcard : reachable.card ≤ limit) {above : List Pair} {p : Pair} {s : WalkState}
    (h : CallUnder callers limit root above 0 p s) (hp : p.Generic) : p.key ∈ s.onStack := by
  have hstacked := h.stacked
  -- Otherwise the call and those above it would have one key more than chains can reach.
  by_contra hoff
  have hkeys : ∀ q ∈ p :: above, q.key ∈ reachable := by
    intro q hq
    rcases h.chain q hq with ⟨n, hchain⟩
    refine hreach n q hchain ?_
    rcases List.mem_cons.mp hq with rfl | hq
    · exact hp
    · exact hstacked.generic q hq
  have hnodup : ((p :: above).map Pair.key).Nodup := by
    rw [List.map_cons, ← hstacked.keys]
    exact List.nodup_cons.mpr ⟨hoff, hstacked.nodup⟩
  have hsub : ((p :: above).map Pair.key).toFinset ⊆ reachable := by
    intro k hk
    rcases List.mem_map.mp (List.mem_toFinset.mp hk) with ⟨q, hq, rfl⟩
    exact hkeys q hq
  have hle := Finset.card_le_card hsub
  rw [List.toFinset_card_of_nodup hnodup, List.length_map, List.length_cons] at hle
  have hdepth := hstacked.depth
  omega

end Walk

theorem le_depthLimit (option : Int) : option ≤ depthLimit option := by
  unfold depthLimit
  split <;> omega

/-- **Recursion alone never meets the depth limit.** For every program view, every seed and every
given limit:

* every call of the seed's walk is made under other calls; the stack holds the keys of their pairs,
  which are generic, no key twice, and as many as the depth at which the call is made;
* while the call sites of a pair are walked, its key lies on top of the stack that the call found,
  and taking it off gives that stack back; every call leaves the stack as it was;
* if no more keys of generic pairs are reached by chains than the limit says, the walk makes no cut
  at the limit, and the seed's resolution counts none. -/
theorem Engine.recursion_uncut (e : Engine) (maxDepth : Int) (seed : Pair) :
    let limit := depthLimit maxDepth
    (∀ left p s, Walk.Call e.callers limit seed left p s →
      ∃ above, Walk.CallUnder e.callers limit seed above left p s) ∧
    (∀ above left p s, Walk.CallUnder e.callers limit seed above left p s →
      s.onStack = above.map Pair.key ∧ s.onStack.Nodup ∧ (∀ q ∈ above, q.Generic) ∧
        above.length = limit - left ∧ left ≤ limit) ∧
    (∀ left p s pre,
      (Walk.sweep e.callers left p s pre).2.onStack = p.key :: s.onStack ∧
        (Walk.sweep e.callers left p s pre).2.onStack.erase p.key = s.onStack) ∧
    (∀ left p s, (Walk.walk e.callers left p s).2.onStack = s.onStack) ∧
    ∀ reachable : Finset PairKey,
      (∀ n q, Pair.Chain e.callers Pair.Generic n seed q → q.Generic → q.key ∈ reachable) →
      (reachable.card : Int) ≤ maxDepth →
        (Walk.walk e.callers limit seed {}).2.counts.depth = 0 ∧
        ∀ types stats, ({ e with maxDepth := limit } : Engine).resolveSeed seed = .ok (types, stats) →
          stats.depth = 0 := by
  intro limit
  refine ⟨fun left p s h => Walk.call_iff_exists_above.mp h, ?_, ?_, Walk.onStack_walk, ?_⟩
  · intro above left p s h
    have hstacked := h.stacked
    have hdepth := hstacked.depth
    exact ⟨hstacked.keys, hstacked.nodup, hstacked.generic, by omega, by omega⟩
  · intro left p s pre
    have hstack : (Walk.sweep e.callers left p s pre).2.onStack = p.key :: s.onStack :=
      Walk.onStack_sweep (Walk.onStack_walk left) p s pre
    refine ⟨hstack, ?_⟩
    rw [hstack, List.erase_cons_head]
  · intro reachable hreach hcard
    have hlimit : reachable.card ≤ limit := by
      have hle := le_depthLimit maxDepth
      omega
    have huncut : (Walk.walk e.callers limit seed {}).2.counts.depth = 0 := by
      refine Walk.depth_walk ?_ limit seed {} .root
      intro p s hcall hp _
      rcases Walk.call_iff_exists_above.mp hcall with ⟨above, habove⟩
      exact habove.mem_onStack hreach hlimit hp
    refine ⟨huncut, ?_⟩
    intro types stats hseed
    rw [(Engine.resolveSeed_cuts hseed).1]
    exact congrArg Int.ofNat huncut

/-! ## A limit as small as the cycle -/

namespace Sample

/-- The engine over the ring, in which `A` and `B` call each other. -/
def ringEngine : Engine := .ofModules [some ring.module] 2

/-- What the seed becomes in `B`. -/
def ringBack : Pair :=
  { type := .applied "App.Box`1" [.methodParam "T" 0 "App.Host::B"],
    entry := { type := 2, index := 1 } }

theorem steps_ringPair {q : Pair} (h : ringPair.Steps ringEngine.callers q) : q = ringBack := by
  have hsites : ringEngine.callers ringPair.entry
      = [{ ref := callTo (.define "App.Host") "A" 1 true [] [.methodParam "T" 0 "App.Host::B"],
           caller := ringBack.entry }] := rfl
  rcases h with ⟨site, hsite, happly, hentry⟩
  rw [hsites, List.mem_singleton] at hsite
  subst hsite
  rcases q with ⟨type, entry⟩
  cases happly
  cases hentry
  rfl

theorem steps_ringBack {q : Pair} (h : ringBack.Steps ringEngine.callers q) :
    q = ringPair ∨ q.type.isConcrete = true := by
  have hsites : ringEngine.callers ringBack.entry
      = [{ ref := callTo (.define "App.Host") "B" 1 true [] [.methodParam "T" 0 "App.Host::A"],
           caller := ringPair.entry },
         { ref := callTo (.define "App.Host") "B" 1 true [] [foo],
           caller := { type := 2, index := 2 } }] := rfl
  rcases h with ⟨site, hsite, happly, hentry⟩
  rw [hsites, List.mem_pair] at hsite
  rcases q with ⟨type, entry⟩
  rcases hsite with rfl | rfl
  · cases happly
    cases hentry
    exact Or.inl rfl
  · cases happly
    exact Or.inr rfl

/-- From the seed only two generic pairs are reached. -/
theorem reached_ring {n : Nat} {q : Pair}
    (h : Pair.Chain ringEngine.callers Pair.Generic n ringPair q) (hq : q.Generic) :
    q.key ∈ ({ringPair.key, ringBack.key} : Finset PairKey) := by
  have hpairs : ∀ {n p q}, Pair.Chain ringEngine.callers Pair.Generic n p q → p = ringPair →
      q = ringPair ∨ q = ringBack ∨ q.type.isConcrete = true := by
    intro n p q h hp
    induction h with
    | refl p => exact Or.inl hp
    | snoc _ hgeneric hstep ih =>
        rcases ih hp with rfl | rfl | hconc
        · exact Or.inr (Or.inl (steps_ringPair hstep))
        · rcases steps_ringBack hstep with hback | hconc
          · exact Or.inl hback
          · exact Or.inr (Or.inr hconc)
        · exact absurd (hgeneric.symm.trans hconc) Bool.false_ne_true
  rcases hpairs h rfl with rfl | rfl | hconc
  · exact Finset.mem_insert_self _ _
  · exact Finset.mem_insert_of_mem (Finset.mem_singleton_self _)
  · exact absurd (hq.symm.trans hconc) Bool.false_ne_true

end Sample

/-- A limit of two is enough for a cycle of two pairs: the walk cuts the cycle and nothing else. -/
theorem Engine.recursion_uncut_ring :
    (∀ n q, Pair.Chain Sample.ringEngine.callers Pair.Generic n Sample.ringPair q → q.Generic →
      q.key ∈ ({Sample.ringPair.key, Sample.ringBack.key} : Finset PairKey)) ∧
    (({Sample.ringPair.key, Sample.ringBack.key} : Finset PairKey).card : Int) ≤ 2 ∧
    (Walk.walk Sample.ringEngine.callers 2 Sample.ringPair {}).2.counts.cycles = 1 ∧
    (Walk.walk Sample.ringEngine.callers 2 Sample.ringPair {}).2.counts.depth = 0 ∧
    (Walk.walk Sample.ringEngine.callers 1 Sample.ringPair {}).2.counts.depth = 1 := by
  have hcard : (({Sample.ringPair.key, Sample.ringBack.key} : Finset PairKey).card : Int) ≤ 2 := by
    exact_mod_cast Finset.card_le_two
  have huncut := (Engine.recursion_uncut Sample.ringEngine 2 Sample.ringPair).2.2.2.2 _
    (fun _ _ => Sample.reached_ring) hcard
  exact ⟨fun _ _ => Sample.reached_ring, hcard, rfl, huncut.1, rfl⟩

end Monomorph
