import Monomorph.Proofs.DepthLimit
import Monomorph.Proofs.ModuleOrder
import Monomorph.Proofs.Stack

/-!
# What a walk remembers

`Walk.plain` walks without the memory. Where it is never cut, what it ends on depends neither on the
substitutions that are left nor on the stack, and of the pair only the tree counts (`plain_alike`).
So a remembered list may stand for any later walk of a pair with that key: the walk with the memory
ends on the same pairs, in the same order and as often. Everything behind the walk looks at types
through their trees too, so the pool binds the same, and the same names are resolved.

Cuts have to be left out, because a list that was cut short is remembered like any other.
-/

namespace Monomorph

namespace Walk

variable (callers : MethodId → List Site)

/-- How often the plain walk is cut: it meets a pair that is being walked, or nothing is left. -/
def cuts : (left : Nat) → (stack : List PairKey) → Pair → Nat
  | left, stack, p =>
    if p.type.isConcrete then 0
    else if stack.contains p.key then 1
    else
      match left with
      | 0 => 1
      | left + 1 =>
        ((callers p.entry).map fun site =>
          match (Bindings.ofSite site.ref).apply p.type with
          | .error _ => 0
          | .ok t => cuts left (p.key :: stack) { type := t, entry := site.caller }).sum

/-- What the plain walk ends on behind one call site. -/
def follow (left : Nat) (stack : List PairKey) (type : TypeRef) (site : Site) : List Pair :=
  match (Bindings.ofSite site.ref).apply type with
  | .error _ => []
  | .ok t => plain callers left stack { type := t, entry := site.caller }

variable {callers}

theorem follow_error {left : Nat} {stack : List PairKey} {type : TypeRef} {site : Site}
    {f : SubstFailure} (h : (Bindings.ofSite site.ref).apply type = .error f) :
    follow callers left stack type site = [] := by
  simp [follow, h]

theorem follow_ok {left : Nat} {stack : List PairKey} {type t : TypeRef} {site : Site}
    (h : (Bindings.ofSite site.ref).apply type = .ok t) :
    follow callers left stack type site
      = plain callers left stack { type := t, entry := site.caller } := by
  simp [follow, h]

theorem plain_concrete {left : Nat} {stack : List PairKey} {p : Pair}
    (h : p.type.isConcrete = true) : plain callers left stack p = [p] := by
  rw [plain.eq_def]
  simp [h]

theorem plain_uncalled {left : Nat} {stack : List PairKey} {p : Pair} (h : p.Generic)
    (hs : p.key ∉ stack) (hc : callers p.entry = []) :
    plain callers (left + 1) stack p = [p] := by
  rw [plain.eq_def]
  simp [show p.type.isConcrete = false from h, hs, hc]

theorem plain_called {left : Nat} {stack : List PairKey} {p : Pair} (h : p.Generic)
    (hs : p.key ∉ stack) (hc : callers p.entry ≠ []) :
    plain callers (left + 1) stack p
      = (callers p.entry).flatMap (follow callers left (p.key :: stack) p.type) := by
  rw [plain.eq_def]
  simp only [show p.type.isConcrete = false from h, List.contains_iff_mem, hs]
  cases hsites : callers p.entry with
  | nil => exact absurd hsites hc
  | cons site sites => rfl

/-- Where the plain walk of a generic pair is not cut: the pair is not being walked, something is
left, and the walks behind its call sites are not cut. -/
theorem uncut_generic {left : Nat} {stack : List PairKey} {p : Pair} (h : p.Generic)
    (hcuts : cuts callers left stack p = 0) :
    p.key ∉ stack ∧ ∃ left', left = left' + 1 ∧ ∀ site ∈ callers p.entry, ∀ t,
      (Bindings.ofSite site.ref).apply p.type = .ok t →
        cuts callers left' (p.key :: stack) { type := t, entry := site.caller } = 0 := by
  rw [cuts.eq_def] at hcuts
  simp only [show p.type.isConcrete = false from h, List.contains_iff_mem] at hcuts
  by_cases hs : p.key ∈ stack
  · simp [hs] at hcuts
  · refine ⟨hs, ?_⟩
    cases left with
    | zero => simp [hs] at hcuts
    | succ left =>
        simp only [hs, if_false, Bool.false_eq_true, List.sum_eq_zero_iff_forall_eq_nat,
          List.forall_mem_map] at hcuts
        refine ⟨left, rfl, ?_⟩
        intro site hsite t ht
        simpa [ht] using hcuts site hsite

end Walk

namespace Pair

/-- The pair with the tree of its type. -/
def tree (p : Pair) : Pair := { type := p.type.tree, entry := p.entry }

theorem alike_iff_tree {p q : Pair} : p.Alike q ↔ p.tree = q.tree := by
  constructor
  · rintro ⟨htype, hentry⟩
    rw [tree, tree, htype, hentry]
  · intro h
    rcases Pair.mk.inj h with ⟨htype, hentry⟩
    exact ⟨htype, hentry⟩

end Pair

namespace Walk

variable {callers : MethodId → List Site}

theorem follow_alike {left left' : Nat} {stack stack' : List PairKey} {t o : TypeRef} {site : Site}
    (h : t.tree = o.tree)
    (hplain : ∀ r r', (Bindings.ofSite site.ref).apply t = .ok r →
      (Bindings.ofSite site.ref).apply o = .ok r' → r.tree = r'.tree →
        (plain callers left stack { type := r, entry := site.caller }).map Pair.tree
          = (plain callers left' stack' { type := r', entry := site.caller }).map Pair.tree) :
    (follow callers left stack t site).map Pair.tree
      = (follow callers left' stack' o site).map Pair.tree := by
  cases ht : (Bindings.ofSite site.ref).apply t with
  | ok r =>
      rcases Bindings.apply_tree_eq h ht with ⟨r', hr', htree⟩
      rw [follow_ok ht, follow_ok hr']
      exact hplain r r' ht hr' htree
  | error f =>
      cases ho : (Bindings.ofSite site.ref).apply o with
      | ok r' =>
          rcases Bindings.apply_tree_eq h.symm ho with ⟨r, hr, -⟩
          rw [hr] at ht
          cases ht
      | error g => rw [follow_error ht, follow_error ho]

/-- Uncut plain walks of pairs with one tree end on pairs with one tree, whatever is left and
whatever is being walked. -/
theorem plain_alike (left : Nat) : ∀ {left' : Nat} {stack stack' : List PairKey} {p q : Pair},
    p.Alike q → cuts callers left stack p = 0 → cuts callers left' stack' q = 0 →
      (plain callers left stack p).map Pair.tree = (plain callers left' stack' q).map Pair.tree := by
  have hends : ∀ {p q : Pair}, p.Alike q → [p].map Pair.tree = [q].map Pair.tree := by
    intro p q h
    rw [List.map_singleton, List.map_singleton, Pair.alike_iff_tree.mp h]
  induction left with
  | zero =>
      intro left' stack stack' p q h hp hq
      cases hconc : p.type.isConcrete with
      | true =>
          rw [plain_concrete hconc,
            plain_concrete ((TypeRef.isConcrete_eq_of_tree_eq h.type).symm.trans hconc)]
          exact hends h
      | false =>
          rcases uncut_generic hconc hp with ⟨-, left, hleft, -⟩
          exact absurd hleft.symm (Nat.succ_ne_zero left)
  | succ left ih =>
      intro left' stack stack' p q h hp hq
      cases hconc : p.type.isConcrete with
      | true =>
          rw [plain_concrete hconc,
            plain_concrete ((TypeRef.isConcrete_eq_of_tree_eq h.type).symm.trans hconc)]
          exact hends h
      | false =>
          have hqgen : q.Generic := h.symm.generic hconc
          rcases uncut_generic hconc hp with ⟨hoff, l, hl, hsites⟩
          rcases uncut_generic hqgen hq with ⟨hoff', l', rfl, hsites'⟩
          obtain rfl : left = l := Nat.succ.inj hl
          by_cases hc : callers p.entry = []
          · rw [plain_uncalled hconc hoff hc, plain_uncalled hqgen hoff' (h.entry ▸ hc)]
            exact hends h
          · rw [plain_called hconc hoff hc, plain_called hqgen hoff' (h.entry ▸ hc), ← h.entry,
              List.map_flatMap, List.map_flatMap]
            refine List.flatMap_congr fun site hsite => follow_alike h.type ?_
            intro r r' hr hr' htree
            exact ih ⟨htree, rfl⟩ (hsites site hsite r hr)
              (hsites' site (h.entry ▸ hsite) r' hr')

/-! ## The memory stands for the plain walk -/

variable (callers) in
/-- Every remembered list is, up to trees, what an uncut plain walk of a readable pair with that key
ends on. -/
def Recalls (s : WalkState) : Prop :=
  ∀ e ∈ s.memo, ∃ q left stack, q.key = e.1 ∧ q.type.Obeys (.readable True) ∧
    cuts callers left stack q = 0 ∧ e.2.map Pair.tree = (plain callers left stack q).map Pair.tree

variable {P : Pair → Prop} (hstep : ∀ p q, P p → p.Steps callers q → P q)
  (hread : ∀ p, P p → p.type.Obeys (.readable True))

theorem sweep_recalls {left : Nat} {p : Pair} {s : WalkState}
    (hwalk : ∀ q s, p.Steps callers q → Recalls callers s → cuts callers left s.onStack q = 0 →
      (walk callers left q s).1.map Pair.tree = (plain callers left s.onStack q).map Pair.tree ∧
        Recalls callers (walk callers left q s).2)
    (hs : Recalls callers s)
    (hcuts : ∀ site ∈ callers p.entry, ∀ t, (Bindings.ofSite site.ref).apply p.type = .ok t →
      cuts callers left (p.key :: s.onStack) { type := t, entry := site.caller } = 0)
    (sites : List Site) : sites ⊆ callers p.entry →
      (sweep callers left p s sites).1.map Pair.tree
          = (sites.flatMap (follow callers left (p.key :: s.onStack) p.type)).map Pair.tree ∧
        Recalls callers (sweep callers left p s sites).2 := by
  induction sites using List.reverseRecOn with
  | nil => exact fun _ => ⟨rfl, hs⟩
  | append_singleton sites site ih =>
      intro hsites
      have hsite : site ∈ callers p.entry := hsites (by simp)
      have hstack : (sweep callers left p s sites).2.onStack = p.key :: s.onStack :=
        onStack_sweep (onStack_walk left) p s sites
      rcases ih fun x hx => hsites (List.mem_append_left _ hx) with ⟨hout, hrecalls⟩
      rw [sweep_snoc, List.flatMap_append, List.map_append, List.flatMap_singleton]
      cases hsub : (Bindings.ofSite site.ref).apply p.type with
      | error f =>
          rw [visit_error hsub, follow_error hsub, hout]
          exact ⟨(List.append_nil _).symm, hrecalls⟩
      | ok t =>
          have huncut := hcuts site hsite t hsub
          rw [← hstack] at huncut
          rcases hwalk _ _ ⟨site, hsite, hsub, rfl⟩ hrecalls huncut with ⟨hmore, hrecalls'⟩
          rw [visit_ok hsub, follow_ok hsub, List.map_append, hout, hmore, hstack]
          exact ⟨rfl, hrecalls'⟩

include hstep hread

/-- Where the plain walk is not cut, the walk with the memory ends on the same pairs, and what it
remembers can be relied on. -/
theorem walk_recalls (left : Nat) : ∀ (p : Pair) (s : WalkState), P p → Recalls callers s →
    cuts callers left s.onStack p = 0 →
      (walk callers left p s).1.map Pair.tree = (plain callers left s.onStack p).map Pair.tree ∧
        Recalls callers (walk callers left p s).2 := by
  induction left with
  | zero =>
      intro p s hp hs hcuts
      cases hconc : p.type.isConcrete with
      | true =>
          rw [walk_concrete hconc, plain_concrete hconc]
          exact ⟨rfl, hs⟩
      | false =>
          rcases uncut_generic hconc hcuts with ⟨-, left, hleft, -⟩
          exact absurd hleft.symm (Nat.succ_ne_zero left)
  | succ left ih =>
      intro p s hp hs hcuts
      cases hconc : p.type.isConcrete with
      | true =>
          rw [walk_concrete hconc, plain_concrete hconc]
          exact ⟨rfl, hs⟩
      | false =>
          rcases uncut_generic hconc hcuts with ⟨hoff, l, hl, hsites⟩
          obtain rfl : left = l := Nat.succ.inj hl
          cases hm : s.memo.lookup p.key with
          | some out =>
              -- The remembered list was made for a pair with this key, and so with this tree.
              obtain ⟨l₁, l₂, hmemo, -⟩ := List.lookup_eq_some_iff.mp hm
              obtain ⟨q, left', stack', hkey, hq, huncut, hout⟩ :=
                hs (p.key, out) (by simp [hmemo])
              have halike : q.Alike p := .of_key hq (hread p hp) hkey
              rw [walk_remembered hconc hm]
              exact ⟨hout.trans (plain_alike left' halike huncut hcuts), hs⟩
          | none =>
              by_cases hc : callers p.entry = []
              · rw [walk_uncalled hconc hm hoff hc, plain_uncalled hconc hoff hc]
                exact ⟨rfl, hs⟩
              · have henters : Enters callers p s := ⟨hconc, hm, hoff, hc⟩
                rcases sweep_recalls (fun q s hq => ih q s (hstep p q hp hq)) hs hsites
                  (callers p.entry) (List.Subset.refl _) with ⟨hout, hrecalls⟩
                rw [walk_enters henters, plain_called hconc hoff hc]
                refine ⟨hout, ?_⟩
                intro e he
                rcases List.mem_cons.mp he with rfl | he
                · refine ⟨p, left + 1, s.onStack, rfl, hread p hp, hcuts, ?_⟩
                  rw [plain_called hconc hoff hc]
                  exact hout
                · exact hrecalls e he

theorem finals_eq_plain {limit : Nat} {root : Pair} (hroot : P root)
    (hcuts : cuts callers limit [] root = 0) :
    (finals callers limit root).map Pair.tree = (plain callers limit [] root).map Pair.tree :=
  (walk_recalls hstep hread limit root {} hroot (by simp [Recalls]) hcuts).1

end Walk

/-! ## Binding and joining see only trees -/

theorem mapM_map_congr {α β γ ε : Type} {f g : α → Except ε β} {h : β → γ} :
    ∀ {l : List α}, (∀ a ∈ l, (f a).map h = (g a).map h) →
      (l.mapM f).map (List.map h) = (l.mapM g).map (List.map h)
  | [], _ => rfl
  | a :: l, hl => by
      have ha := hl a List.mem_cons_self
      have hrest := mapM_map_congr fun b hb => hl b (List.mem_cons_of_mem a hb)
      rw [List.mapM_cons, List.mapM_cons]
      revert ha hrest
      cases f a <;> cases g a <;> cases l.mapM f <;> cases l.mapM g <;>
        simp_all [Except.map, bind, Except.bind, pure, Except.pure]

theorem map_map_except {α β γ ε : Type} (x : Except ε α) (f : α → β) (g : β → γ) :
    (x.map f).map g = x.map fun a => g (f a) := by
  cases x <;> rfl

theorem map_eq_of_map_eq {α β γ ε : Type} {x y : Except ε α} {k : α → γ} {f g : α → β}
    (h : x.map k = y.map k) (hfg : ∀ a b, k a = k b → f a = g b) : x.map f = y.map g := by
  cases x with
  | error e =>
      cases y with
      | error e' => exact congrArg Except.error (Except.error.inj h)
      | ok b => cases h
  | ok a =>
      cases y with
      | error e' => cases h
      | ok b => exact congrArg Except.ok (hfg a b (Except.ok.inj h))

namespace Engine

variable {e : Engine}

theorem bindTypeArgs_names {t o : TypeRef} (h : t.tree = o.tree) (args : List TypeRef) :
    (bindTypeArgs t args).map (Option.map TypeRef.fullName)
      = (bindTypeArgs o args).map (Option.map TypeRef.fullName) := by
  have happly : ((Bindings.ofTypeArgs args).apply t).map TypeRef.tree
      = ((Bindings.ofTypeArgs args).apply o).map TypeRef.tree := by
    rw [← Bindings.apply_tree, h, Bindings.apply_tree]
  unfold bindTypeArgs
  revert happly
  cases (Bindings.ofTypeArgs args).apply t with
  | error f =>
      cases (Bindings.ofTypeArgs args).apply o with
      | error g =>
          intro happly
          cases happly
          rfl
      | ok r => exact fun happly => nomatch happly
  | ok r =>
      cases (Bindings.ofTypeArgs args).apply o with
      | error g => exact fun happly => nomatch happly
      | ok r' =>
          intro happly
          have htree : r.tree = r'.tree := Except.ok.inj happly
          simp only [Except.map, ← TypeRef.isConcrete_eq_of_tree_eq htree]
          split
          · rename_i hconc
            simp only [Option.map_some, TypeRef.fullName_eq_of_tree_eq htree hconc]
          · rfl

theorem bindFromPool_names {p q : Pair} (h : p.Alike q) :
    (e.bindFromPool p).map (List.map TypeRef.fullName)
      = (e.bindFromPool q).map (List.map TypeRef.fullName) := by
  unfold bindFromPool
  rw [h.entry]
  cases e.program.declaring? q.entry with
  | none => rfl
  | some d =>
      dsimp only
      split
      · rfl
      · have hwith : ∀ c ∈ e.pool.types,
            (e.bindWith d.fullName p.type c).map (Option.map TypeRef.fullName)
              = (e.bindWith d.fullName q.type c).map (Option.map TypeRef.fullName) := by
          intro c _
          unfold bindWith
          split
          · rfl
          · rfl
          · exact bindTypeArgs_names h.type _
        have hfilter : ∀ rs : List (Option TypeRef), (rs.filterMap id).map TypeRef.fullName
            = (rs.map (Option.map TypeRef.fullName)).filterMap id := by
          intro rs
          simp [List.filterMap_map, List.map_filterMap]
        have hpool := congrArg (Except.map fun rs : List (Option Text) => rs.filterMap id)
          (mapM_map_congr hwith)
        revert hpool
        cases e.pool.types.mapM fun c => e.bindWith d.fullName p.type c <;>
          cases e.pool.types.mapM fun c => e.bindWith d.fullName q.type c <;>
          simp only [Except.map, hfilter] <;> exact id

theorem bindFinals_fault {p : Pair} (hc : p.type.isConcrete = false) {f : Fault}
    (hp : e.bindFromPool p = .error f) (ps : List Pair) :
    e.bindFinals (p :: ps) = (e.bindFinals ps).bind fun _ => .error f := by
  rw [bindFinals]
  cases e.bindFinals ps <;> simp [hc, hp, bind, Except.bind]

/-- Ends with the same trees give the same names, and as many are bound and dropped. -/
theorem bindFinals_names : ∀ {ps qs : List Pair}, ps.map Pair.tree = qs.map Pair.tree →
    (e.bindFinals ps).map (fun r => (r.1.map TypeRef.fullName, r.2))
      = (e.bindFinals qs).map fun r => (r.1.map TypeRef.fullName, r.2)
  | [], [], _ => rfl
  | p :: ps, q :: qs, h => by
      obtain ⟨htree, hrest⟩ := List.cons.inj h
      have halike : p.Alike q := Pair.alike_iff_tree.mpr htree
      have ih := bindFinals_names hrest
      have hsame := TypeRef.isConcrete_eq_of_tree_eq halike.type
      cases hconc : p.type.isConcrete with
      | true =>
          have hname := TypeRef.fullName_eq_of_tree_eq halike.type hconc
          rw [bindFinals_concrete hconc, bindFinals_concrete (hsame.symm.trans hconc),
            map_map_except, map_map_except]
          refine map_eq_of_map_eq ih ?_
          rintro ⟨types, counts⟩ ⟨types', counts'⟩ hr
          obtain ⟨hnames, rfl⟩ := Prod.mk.inj hr
          simp only [List.map_cons, hname, hnames]
      | false =>
          have hconc' := hsame.symm.trans hconc
          have hpool := bindFromPool_names (e := e) halike
          cases hp : e.bindFromPool p with
          | error f =>
              cases hq : e.bindFromPool q with
              | ok more => rw [hp, hq] at hpool; cases hpool
              | error g =>
                  rw [hp, hq] at hpool
                  obtain rfl : f = g := Except.error.inj hpool
                  rw [bindFinals_fault hconc hp, bindFinals_fault hconc' hq]
                  revert ih
                  cases e.bindFinals ps <;> cases e.bindFinals qs <;> simp [Except.map, Except.bind]
          | ok more =>
              cases hq : e.bindFromPool q with
              | error g => rw [hp, hq] at hpool; cases hpool
              | ok more' =>
                  rw [hp, hq] at hpool
                  have hmore : more.map TypeRef.fullName = more'.map TypeRef.fullName :=
                    Except.ok.inj hpool
                  have hlength : more.length = more'.length := by
                    simpa using congrArg List.length hmore
                  have hnil : more = [] ↔ more' = [] := by
                    rw [← List.length_eq_zero_iff, ← List.length_eq_zero_iff, hlength]
                  rw [bindFinals_generic hconc hp, bindFinals_generic hconc' hq,
                    map_map_except, map_map_except]
                  refine map_eq_of_map_eq ih ?_
                  rintro ⟨types, counts⟩ ⟨types', counts'⟩ hr
                  obtain ⟨hnames, rfl⟩ := Prod.mk.inj hr
                  simp only [List.map_append, hmore, hnames, hlength, hnil]

end Engine

/-- What resolution answers: the full names in their order, and the counts of what was bound. -/
structure Summary where
  names : List Text
  finals : Int
  poolBound : Int
  dropped : Int
  duplicates : Int

namespace Summary

/-- One name joins unless it is there. -/
def joinName (s : Summary) (name : Text) : Summary :=
  if name ∈ s.names then { s with duplicates := s.duplicates + 1 }
  else { s with names := s.names ++ [name] }

/-- The answer with that of one more seed. -/
def join (s t : Summary) : Summary :=
  t.names.foldl joinName
    { s with
      finals := s.finals + t.finals, poolBound := s.poolBound + t.poolBound,
      dropped := s.dropped + t.dropped, duplicates := s.duplicates + t.duplicates }

end Summary

/-- The answer in a result. -/
def Resolution.summary (r : Resolution) : Summary :=
  { names := r.types.map TypeRef.fullName, finals := r.stats.finals,
    poolBound := r.stats.poolBound, dropped := r.stats.dropped,
    duplicates := r.stats.duplicates }

namespace Engine

variable {e : Engine}

theorem summary_joinOne (r : Resolution) (t : TypeRef) :
    (joinOne r t).summary = r.summary.joinName t.fullName := by
  have hany : (r.types.any fun u => u.fullName == t.fullName) = true ↔
      t.fullName ∈ r.summary.names := by
    simp [Resolution.summary, List.any_eq_true]
  unfold joinOne Summary.joinName
  by_cases h : t.fullName ∈ r.summary.names
  · rw [if_pos (hany.mpr h), if_pos h]
    rfl
  · rw [if_neg (mt hany.mp h), if_neg h]
    simp [Resolution.summary]

theorem summary_foldl_joinOne (types : List TypeRef) : ∀ r : Resolution,
    (types.foldl joinOne r).summary = (types.map TypeRef.fullName).foldl .joinName r.summary := by
  induction types with
  | nil => exact fun _ => rfl
  | cons t types ih =>
      intro r
      rw [List.foldl_cons, ih, summary_joinOne, List.map_cons, List.foldl_cons]

theorem summary_join (r : Resolution) (types : List TypeRef) (stats : Stats) :
    (join r types stats).summary = r.summary.join (Resolution.summary { types, stats }) := by
  rw [join_eq_foldl, summary_foldl_joinOne]
  rfl

/-- One seed on the plain walk. -/
def plainSeed (e : Engine) (p : Pair) : Except Fault (List TypeRef × Stats) :=
  let finals := Walk.plain e.callers e.maxDepth [] p
  (e.bindFinals finals).map fun (types, bound, dropped) =>
    (types, { seeds := 1, finals := finals.length, poolBound := bound, dropped })

/-- The seeds on the plain walk. -/
def plainResolve (e : Engine) : List Pair → Resolution → Except Fault Resolution
  | [], r => .ok r
  | p :: ps, r => (e.plainSeed p).bind fun (types, stats) => plainResolve e ps (join r types stats)

/-- The answer for one seed. -/
def answer (r : List TypeRef × Stats) : Summary := Resolution.summary { types := r.1, stats := r.2 }

theorem resolveSeed_answer {p : Pair}
    (hfault : (Walk.walk e.callers e.maxDepth p {}).2.counts.faulted = false)
    (h : (Walk.finals e.callers e.maxDepth p).map Pair.tree
      = (Walk.plain e.callers e.maxDepth [] p).map Pair.tree) :
    (e.resolveSeed p).map answer = (e.plainSeed p).map answer := by
  have hlength : (Walk.finals e.callers e.maxDepth p).length
      = (Walk.plain e.callers e.maxDepth [] p).length := by
    simpa using congrArg List.length h
  rw [resolveSeed_eq hfault, plainSeed, map_map_except, map_map_except]
  refine map_eq_of_map_eq (bindFinals_names h) ?_
  rintro ⟨types, counts⟩ ⟨types', counts'⟩ hr
  obtain ⟨hnames, rfl⟩ := Prod.mk.inj hr
  simp only [answer, Resolution.summary, hnames, hlength]

/-- Where each seed is answered as on the plain walk, so are all of them. -/
theorem resolveFrom_summary {calls : List CallRef} :
    ∀ {seeds : List Pair} {r r' : Resolution} (i : Nat), calls.map pair? = seeds.map some →
      r.summary = r'.summary →
      (∀ p ∈ seeds, (e.resolveSeed p).map answer = (e.plainSeed p).map answer) →
        (e.resolveFrom false i calls r).map Resolution.summary
          = ((e.plainResolve seeds r').map Resolution.summary).mapError fun _ => .fault := by
  induction calls with
  | nil =>
      intro seeds r r' i hseeds hr _
      obtain rfl : seeds = [] := List.map_eq_nil_iff.mp hseeds.symm
      exact congrArg Except.ok hr
  | cons c calls ih =>
      intro seeds r r' i hseeds hr hplain
      cases seeds with
      | nil => cases hseeds
      | cons p seeds =>
          obtain ⟨hp, hrest⟩ := List.cons.inj hseeds
          have hseed := hplain p List.mem_cons_self
          simp only [resolveFrom, plainResolve, hp, Bool.false_eq_true, if_false]
          cases hout : e.resolveSeed p with
          | error f =>
              cases hout' : e.plainSeed p with
              | error g => rfl
              | ok out => rw [hout, hout'] at hseed; cases hseed
          | ok out =>
              cases hout' : e.plainSeed p with
              | error g => rw [hout, hout'] at hseed; cases hseed
              | ok out' =>
                  rw [hout, hout'] at hseed
                  have hjoin : (join r out.1 out.2).summary = (join r' out'.1 out'.2).summary := by
                    rw [summary_join, summary_join, hr]
                    exact congrArg _ (Except.ok.inj hseed)
                  exact ih (i + 1) hrest hjoin fun q hq => hplain q (List.mem_cons_of_mem p hq)

/-! ## Walks over a program -/

/-- The engine's call sites are written in the code of the modules. -/
def Reads (e : Engine) (modules : List (Option Module)) : Prop :=
  ∀ id, ∀ s ∈ e.callers id,
    ∃ i, (Registry.ofModules modules).Runs i ∧ i.operand.method = some s.ref

theorem reads_ofModules (modules : List (Option Module)) (maxDepth : Nat) :
    (Engine.ofModules modules maxDepth).Reads modules :=
  fun _ _ => origin_of_mem_callers

end Engine

/-- Every index over modules reads them, whatever it leaves out and whatever it resolves with. -/
theorem CallIndex.reads_build {e : Engine} {r : Registry} {x : Extractor}
    {modules : List (Option Module)} (h : e.callers = (CallIndex.build r x modules).callers) :
    e.Reads modules := by
  intro id s hs
  rw [h] at hs
  exact origin_of_mem_callers hs

namespace Engine.Reads

variable {e : Engine} {modules : List (Option Module)} (h : e.Reads modules)

include h

theorem args_obey (hd : Decoded modules) (hl : Legible modules) {id : MethodId} {s : Site}
    (hs : s ∈ e.callers id) :
    ∀ a ∈ (Bindings.ofSite s.ref).args, a.Obeys (.format True) ∧ a.Obeys .legible := by
  rcases h id s hs with ⟨i, hi, hmethod⟩
  have hvalid := (hd.instruction hi).1.method _ hmethod
  have hrefs := hl i (Registry.runs_iff.mp hi)
  intro a ha
  refine ⟨Bindings.ofSite_obeys hvalid.declaring.allow_holes
    (fun a ha => (hvalid.typeArgs a ha).obeys) a ha, ?_⟩
  refine Bindings.ofSite_obeys (hrefs _ ?_) (fun a ha => hrefs a ?_) a ha
  · simp [Instruction.refs, hmethod]
  · simp [Instruction.refs, hmethod, ha]

theorem steps_obey (hd : Decoded modules) (hl : Legible modules) {p q : Pair}
    (hp : p.type.Obeys (.format True) ∧ p.type.Obeys .legible) (hstep : p.Steps e.callers q) :
    q.type.Obeys (.format True) ∧ q.type.Obeys .legible := by
  rcases hstep with ⟨site, hsite, happly, -⟩
  have hargs := h.args_obey hd hl hsite
  exact ⟨Bindings.apply_obeys (fun a ha => (hargs a ha).1) hp.1 happly,
    Bindings.apply_obeys (fun a ha => (hargs a ha).2) hp.2 happly⟩

theorem unfaulted (hd : Decoded modules) (hl : Legible modules) {p : Pair}
    (hp : p.type.Obeys (.format True) ∧ p.type.Obeys .legible) :
    (Walk.walk e.callers e.maxDepth p {}).2.counts.faulted = false := by
  refine Walk.faulted_walk (fun _ _ => h.steps_obey hd hl) ?_ e.maxDepth p {} hp
  intro q hq site hsite
  rcases h _ site hsite with ⟨i, hi, hmethod⟩
  have hnarrow := ((hd.instruction hi).2.method _ hmethod).declaring.obeys
  exact Bindings.apply_ne_outOfRange (Bindings.narrow_ofSite hnarrow) hq.1.placed

end Engine.Reads

/-- **Memory is transparent.** Take a decoded program with legible names, an engine whose call sites
are written in its code, and seeds that were collected from it. Where the plain walk of a seed meets
no cut, the walk with the memory ends on the same pairs, compared as calls, in the same order and
as often, and the seed is answered alike. Where no seed is cut, resolution as a whole answers as on
plain walks: the same names in the same order, and the same counts. The engine over the program
itself does answer. -/
theorem memory_transparent (modules : List (Option Module)) (hdecoded : Decoded modules)
    (hlegible : Legible modules) (e : Engine) (hreads : e.Reads modules) (seeds : List Text)
    (calls : List CallRef) (hcalls : calls ⊆ CallRef.collect (Registry.ofModules modules) seeds) :
    ∃ pairs : List Pair, calls.map Engine.pair? = pairs.map some ∧
      (∀ p ∈ pairs, Walk.cuts e.callers e.maxDepth [] p = 0 →
        List.Forall₂ (fun q q' : Pair => CallRef.equal q.call q'.call = true)
            (Walk.finals e.callers e.maxDepth p) (Walk.plain e.callers e.maxDepth [] p) ∧
          (e.resolveSeed p).map Engine.answer = (e.plainSeed p).map Engine.answer) ∧
      ((∀ p ∈ pairs, Walk.cuts e.callers e.maxDepth [] p = 0) →
        (e.resolve calls).map Resolution.summary
          = ((e.plainResolve pairs {}).map Resolution.summary).mapError fun _ => .fault) ∧
      ∀ limit, e = Engine.ofModules modules limit →
        ∃ out, e.resolve calls = .ok out ∧ resolveProgram modules calls limit = .ok out := by
  have hobeys : ∀ p ∈ calls.filterMap Engine.pair?,
      p.type.Obeys (.format True) ∧ p.type.Obeys .legible := by
    intro p hp
    rcases List.mem_filterMap.mp hp with ⟨c, hc, hpair⟩
    rw [(Engine.pair?_eq_some_iff.mp hpair).2.2]
    exact ⟨(hdecoded.seed (hcalls hc)).allow_holes, CallRef.seed_obeys hlegible (hcalls hc)⟩
  have htrees : ∀ p ∈ calls.filterMap Engine.pair?, Walk.cuts e.callers e.maxDepth [] p = 0 →
      (Walk.finals e.callers e.maxDepth p).map Pair.tree
        = (Walk.plain e.callers e.maxDepth [] p).map Pair.tree := by
    intro p hp
    exact Walk.finals_eq_plain (fun _ _ => hreads.steps_obey hdecoded hlegible)
      (fun _ hq => hq.1.readable hq.2) (hobeys p hp)
  have hanswer : ∀ p ∈ calls.filterMap Engine.pair?, Walk.cuts e.callers e.maxDepth [] p = 0 →
      (e.resolveSeed p).map Engine.answer = (e.plainSeed p).map Engine.answer := by
    intro p hp hcuts
    exact Engine.resolveSeed_answer (hreads.unfaulted hdecoded hlegible (hobeys p hp))
      (htrees p hp hcuts)
  have hpairs : calls.map Engine.pair? = (calls.filterMap Engine.pair?).map some := by
    rw [List.map_filterMap_some_eq_filter_map_isSome, eq_comm, List.filter_eq_self]
    intro o ho
    rcases List.mem_map.mp ho with ⟨c, hc, rfl⟩
    rcases CallRef.pair?_of_mem_collect (hcalls hc) with ⟨p, hp, -⟩
    rw [hp, Option.isSome_some]
  refine ⟨calls.filterMap Engine.pair?, hpairs, ?_, ?_, ?_⟩
  · intro p hp hcuts
    refine ⟨?_, hanswer p hp hcuts⟩
    -- Pairs with one tree have one key, and so are equal as calls.
    have hequal : ∀ {q q' : Pair}, q.tree = q'.tree → CallRef.equal q.call q'.call = true :=
      fun h => Pair.equal_call_iff.mpr (Pair.alike_iff_tree.mpr h).key
    have hforall := List.forall₂_eq_eq_eq ▸ htrees p hp hcuts
    rw [List.forall₂_map_left_iff, List.forall₂_map_right_iff] at hforall
    exact hforall.imp fun _ _ => hequal
  · intro huncut
    exact Engine.resolveFrom_summary 0 hpairs rfl fun p hp => hanswer p hp (huncut p hp)
  · rintro limit rfl
    rcases resolveProgram_succeeds fun c hc => hdecoded.resolves (hcalls hc) with ⟨out, hout⟩
    exact ⟨out, resolve_of_resolveProgram hout, hout⟩

namespace Sample

theorem decoded_relay : Decoded [some relay.module] := decoded_of_fileBytes (by decide +kernel)

end Sample

open Sample in
/-- With a limit of four the relay is not cut. The chains by way of `B` and past it both pass through
`C`, which is remembered the second time, and both are counted. -/
theorem memory_transparent_relay :
    Decoded [some relay.module] ∧ Legible [some relay.module] ∧
      (Engine.ofModules [some relay.module] 4).Reads [some relay.module] ∧
      [relayCall] ⊆ CallRef.collect (Registry.ofModules [some relay.module]) ["App.Box`1"] ∧
      Walk.cuts (Engine.ofModules [some relay.module] 4).callers 4 [] (relayPair "App.Host::A" 0)
        = 0 ∧
      ∃ out, resolveProgram [some relay.module] [relayCall] 4 = .ok out ∧
        out.summary = { names := ["App.Box`1<App.Foo>"], finals := 2, poolBound := 0, dropped := 0,
                        duplicates := 1 } ∧
        .ok out.summary = (((Engine.ofModules [some relay.module] 4).plainResolve
          [relayPair "App.Host::A" 0] {}).map Resolution.summary).mapError
            fun _ => ResolveError.fault := by
  have hlegible : Legible [some relay.module] := by decide +kernel
  have hreads := Engine.reads_ofModules [some relay.module] 4
  have hcalls : [relayCall] ⊆
      CallRef.collect (Registry.ofModules [some relay.module]) ["App.Box`1"] :=
    List.Subset.refl _
  have hcuts : Walk.cuts (Engine.ofModules [some relay.module] 4).callers 4 []
      (relayPair "App.Host::A" 0) = 0 := rfl
  refine ⟨decoded_relay, hlegible, hreads, hcalls, hcuts, ?_⟩
  obtain ⟨pairs, hpairs, -, hanswer, hrun⟩ := memory_transparent [some relay.module] decoded_relay
    hlegible _ hreads ["App.Box`1"] [relayCall] hcalls
  obtain rfl : [relayPair "App.Host::A" 0] = pairs :=
    List.map_injective_iff.mpr (Option.some_injective Pair) hpairs
  obtain ⟨out, hout, hprogram⟩ := hrun 4 rfl
  have hsame := hanswer (List.forall_mem_singleton.mpr hcuts)
  rw [hout] at hsame
  refine ⟨out, hprogram, ?_, hsame⟩
  have hfound : (resolveProgram [some relay.module] [relayCall] 4).map Resolution.summary
      = .ok { names := ["App.Box`1<App.Foo>"], finals := 2, poolBound := 0, dropped := 0,
              duplicates := 1 } := rfl
  rw [hprogram] at hfound
  exact Except.ok.inj hfound

end Monomorph
