import Monomorph.Proofs.Completeness
import Monomorph.Proofs.Pooled
import Monomorph.Proofs.Soundness

/-!
# Keys are faithful names

Two references are the same tree when they agree at every node in the fields that its kind uses
(`TypeRef.Same`). Under the conditions on names and owners that `TypeRef.Named` collects, a key says
no less than the tree and no more, and of a concrete reference the full name says as much. So a list
that is kept free of repetitions by full names holds no tree twice, and a type that it leaves out
has its tree there already.
-/

namespace Monomorph

section Rows

variable {α β : Type} {R : α → α → Prop} {f : α → β} {xs ys : List α}

theorem map_eq_of_forall₂ (h : List.Forall₂ R xs ys) (hR : ∀ x ∈ xs, ∀ y, R x y → f x = f y) :
    xs.map f = ys.map f := by
  induction h with
  | nil => rfl
  | cons hxy _ ih =>
      obtain ⟨hx, hxs⟩ := List.forall_mem_cons.mp hR
      rw [List.map_cons, List.map_cons, hx _ hxy, ih hxs]

theorem forall₂_of_map_eq (h : xs.map f = ys.map f)
    (hR : ∀ x ∈ xs, ∀ y ∈ ys, f x = f y → R x y) : List.Forall₂ R xs ys := by
  have hlen : xs.length = ys.length := by simpa using congrArg List.length h
  refine List.forall₂_of_length_eq_of_get hlen ?_
  intro i hi hi'
  refine hR _ (List.get_mem ..) _ (List.get_mem ..) ?_
  simpa [hi, hi'] using congrArg (·[i]?) h

end Rows

namespace TypeRef

/-! ## The same tree -/

mutual
/-- The references agree at every node: in its kind, for a parameter in kind, position and, with
`owned`, the owner, for any other node in the name, and for an instance in its arguments. -/
def Same (owned : Bool) : TypeRef → TypeRef → Prop
  | .absent, .absent => True
  | .absent, .node .. => False
  | .node .., .absent => False
  | .node kind name args position param owner, .node kind' name' args' position' param' owner' =>
    kind = kind' ∧
      if kind = .parameter then
        position = position' ∧ param = param' ∧ (owned = true → owner = owner')
      else name = name' ∧ (kind = .inst → SameEach owned args args')

/-- As many references on both sides, and the same ones in order. -/
def SameEach (owned : Bool) : List TypeRef → List TypeRef → Prop
  | [], [] => True
  | [], _ :: _ => False
  | _ :: _, [] => False
  | t :: ts, o :: os => t.Same owned o ∧ SameEach owned ts os
end

variable {owned : Bool} {t o : TypeRef}

mutual
/-- Whether two references are the same tree can be checked node by node. -/
def decSame (owned : Bool) : (t o : TypeRef) → Decidable (t.Same owned o)
  | .absent, .absent => .isTrue trivial
  | .absent, .node .. => .isFalse id
  | .node .., .absent => .isFalse id
  | .node kind name args position param owner, .node kind' name' args' position' param' owner' =>
    have := decSameEach owned args args'
    inferInstanceAs (Decidable (kind = kind' ∧
      if kind = .parameter then
        position = position' ∧ param = param' ∧ (owned = true → owner = owner')
      else name = name' ∧ (kind = .inst → SameEach owned args args')))

/-- The same of references in a row. -/
def decSameEach (owned : Bool) : (ts os : List TypeRef) → Decidable (SameEach owned ts os)
  | [], [] => .isTrue trivial
  | [], _ :: _ => .isFalse id
  | _ :: _, [] => .isFalse id
  | t :: ts, o :: os =>
    have := decSame owned t o
    have := decSameEach owned ts os
    inferInstanceAs (Decidable (t.Same owned o ∧ SameEach owned ts os))
end

instance (owned : Bool) (t o : TypeRef) : Decidable (t.Same owned o) := decSame owned t o

theorem sameEach_iff : ∀ {ts os : List TypeRef},
    SameEach owned ts os ↔ List.Forall₂ (Same owned) ts os
  | [], [] => by simp [SameEach]
  | [], _ :: _ => by simp [SameEach]
  | _ :: _, [] => by simp [SameEach]
  | t :: ts, o :: os => by rw [SameEach, sameEach_iff, List.forall₂_cons]

theorem same_parameter_iff {name name' : Text} {args args' : List TypeRef}
    {position position' : Int64} {param param' : ParamKind} {owner owner' : Text} :
    Same owned (.node .parameter name args position param owner)
        (.node .parameter name' args' position' param' owner')
      ↔ position = position' ∧ param = param' ∧ (owned = true → owner = owner') := by
  rw [Same, if_pos rfl]
  exact and_iff_right rfl

theorem same_inst_iff {name name' : Text} {args args' : List TypeRef}
    {position position' : Int64} {param param' : ParamKind} {owner owner' : Text} :
    Same owned (.node .inst name args position param owner)
        (.node .inst name' args' position' param' owner')
      ↔ name = name' ∧ List.Forall₂ (Same owned) args args' := by
  rw [Same, if_neg (by decide), ← sameEach_iff]
  simp

theorem same_other_iff {kind : TypeKind} (hp : kind ≠ .parameter) (hi : kind ≠ .inst)
    {name name' : Text} {args args' : List TypeRef} {position position' : Int64}
    {param param' : ParamKind} {owner owner' : Text} :
    Same owned (.node kind name args position param owner)
        (.node kind name' args' position' param' owner')
      ↔ name = name' := by
  rw [Same, if_neg hp]
  simp [hi]

/-- The kind of a reference, if there is one. -/
def kind? : TypeRef → Option TypeKind
  | .absent => none
  | .node kind .. => some kind

theorem Same.kind_eq (h : t.Same owned o) : t.kind? = o.kind? := by
  cases t <;> cases o
  · rfl
  · rw [Same] at h; exact h.elim
  · rw [Same] at h; exact h.elim
  · rw [Same] at h; exact congrArg some h.1

theorem kind_tree (t : TypeRef) : t.tree.kind? = t.kind? := by
  cases t with
  | absent => rfl
  | node kind =>
      rw [tree]
      split_ifs with hp hi
      · rfl
      · exact congrArg some hi.symm
      · rfl

/-- References are the same tree when blanking what their kinds do not use leaves no difference. -/
theorem same_iff_tree_eq (t : TypeRef) : ∀ o : TypeRef, t.Same true o ↔ t.tree = o.tree := by
  -- Both sides ask for one kind; under it the fields are compared.
  have hkind : ∀ {t o : TypeRef}, (t.kind? = o.kind? → (t.Same true o ↔ t.tree = o.tree)) →
      (t.Same true o ↔ t.tree = o.tree) := by
    intro t o h
    refine ⟨fun hsame => (h hsame.kind_eq).mp hsame, fun htree => (h ?_).mpr htree⟩
    rw [← kind_tree t, htree, kind_tree o]
  induction t using induction with
  | absent =>
      intro o
      refine hkind fun hk => ?_
      cases o with
      | absent => simp [Same]
      | node => cases hk
  | node kind name args position param owner ih =>
      intro o
      refine hkind fun hk => ?_
      cases o with
      | absent => cases hk
      | node kind' name' args' position' param' owner' =>
          obtain rfl : kind = kind' := Option.some.inj hk
          by_cases hp : kind = .parameter
          · subst hp
            rw [same_parameter_iff, tree_parameter, tree_parameter]
            simp
          by_cases hi : kind = .inst
          · subst hi
            have hargs : List.Forall₂ (Same true) args args' ↔ args.map tree = args'.map tree :=
              ⟨fun h => map_eq_of_forall₂ h fun a ha b => (ih a ha b).mp,
                fun h => forall₂_of_map_eq h fun a ha b _ => (ih a ha b).mpr⟩
            rw [same_inst_iff, tree_inst, tree_inst, hargs]
            simp [applied]
          · rw [same_other_iff hp hi, tree_other hp hi, tree_other hp hi]
            simp

/-! ## What keys and full names tell -/

end TypeRef

/-- The rules for the names in a reference that tell it apart from others: none of the bytes that
structure a key, and not the mark of a parameter in front of the name of a declared type. -/
def Rules.unambiguous : Rules where
  inst name _ := Text.Plain name ∧ name.head? ≠ some 33
  leaf kind name _ _ owner :=
    (kind = .parameter → Text.Plain owner) ∧
      (kind ≠ .parameter → Text.Plain name ∧ name.head? ≠ some 33)
  hole := True

namespace TypeRef

variable {t o : TypeRef}

/-- The reference breaks no rule of the format and its names tell it apart. -/
def Named (t : TypeRef) : Prop := t.fault? = none ∧ t.Obeys .unambiguous

instance : Decidable Rules.unambiguous.hole := inferInstanceAs (Decidable True)

instance (name : Text) (n : Nat) : Decidable (Rules.unambiguous.inst name n) :=
  inferInstanceAs (Decidable (Text.Plain name ∧ name.head? ≠ some 33))

instance (kind : TypeKind) (name : Text) (position : Int64) (param : ParamKind) (owner : Text) :
    Decidable (Rules.unambiguous.leaf kind name position param owner) :=
  inferInstanceAs (Decidable ((kind = .parameter → Text.Plain owner) ∧
    (kind ≠ .parameter → Text.Plain name ∧ name.head? ≠ some 33)))

instance (t : TypeRef) : Decidable t.Named :=
  inferInstanceAs (Decidable (t.fault? = none ∧ t.Obeys .unambiguous))

theorem Named.readable (h : t.Named) (ht : t.isPresent = true) : t.Obeys (.readable False) := by
  have hformat := ((fault?_eq_none_iff t).mp h.1).obeys_of_present ht
  refine (hformat.and h.2).imp ?_ ?_ fun hhole : False ∧ True => hhole.1
  · rintro name n ⟨hn, hplain, hhead⟩
    exact ⟨hplain, hhead, False.elim, hn⟩
  · rintro kind name position param owner ⟨hkind, howner, hname⟩
    rcases hkind with rfl | ⟨rfl, hparam, hfits⟩
    · obtain ⟨hplain, hhead⟩ := hname (by decide)
      exact Or.inl ⟨rfl, hplain, hhead, False.elim⟩
    · have hpos : 0 ≤ position.toInt ∧ position.toInt < 65536 := by
        simpa [fitsPosition] using hfits
      exact Or.inr ⟨rfl, hparam, hpos.1, howner rfl⟩

/-- The keys of named references say neither more nor less than their trees. -/
theorem Named.key_eq_iff (ht : t.Named) (ho : o.Named) (hpt : t.isPresent = true)
    (hpo : o.isPresent = true) : t.key = o.key ↔ t.Same true o := by
  rw [same_iff_tree_eq]
  refine ⟨tree_eq_of_key_eq (ht.readable hpt) (ho.readable hpo), ?_⟩
  intro htree
  rw [← key_tree t, htree, key_tree o]

theorem Named.equal_iff (ht : t.Named) (ho : o.Named) : t.equal o = true ↔ t.Same true o := by
  cases t with
  | absent => cases o <;> simp [equal, Same]
  | node =>
      cases o with
      | absent => simp [equal, Same]
      | node =>
          rw [← ht.key_eq_iff ho rfl rfl, equal, beq_iff_eq]
          all_goals nofun

theorem isPresent_of_isConcrete (h : t.isConcrete = true) : t.isPresent = true := by
  cases t with
  | absent => cases h
  | node => rfl

/-- Among named concrete references the full name is a key. -/
theorem Named.fullName_eq_iff (ht : t.Named) (ho : o.Named) (hct : t.isConcrete = true)
    (hco : o.isConcrete = true) : t.fullName = o.fullName ↔ t.Same true o := by
  rw [fullName_eq_key_of_isConcrete hct, fullName_eq_key_of_isConcrete hco]
  exact ht.key_eq_iff ho (isPresent_of_isConcrete hct) (isPresent_of_isConcrete hco)

/-- No two of the references are the same tree. -/
def Distinct (ts : List TypeRef) : Prop := ts.Pairwise fun t o => ¬ t.Same true o

theorem distinct_of_nodup {ts : List TypeRef} (hnamed : ∀ t ∈ ts, t.Named)
    (hconc : ∀ t ∈ ts, t.isConcrete = true) (h : (ts.map fullName).Nodup) : Distinct ts := by
  rw [List.Nodup, List.pairwise_map] at h
  refine h.imp_of_mem ?_
  intro t o ht ho hne hsame
  exact hne (((hnamed t ht).fullName_eq_iff (hnamed o ho) (hconc t ht) (hconc o ho)).mpr hsame)

/-- A concrete type whose full name is taken is there already. -/
theorem Named.exists_same {ts : List TypeRef} (ht : t.Named) (hct : t.isConcrete = true)
    (hnamed : ∀ u ∈ ts, u.Named) (hconc : ∀ u ∈ ts, u.isConcrete = true)
    (h : t.fullName ∈ ts.map fullName) : ∃ u ∈ ts, u.Same true t := by
  obtain ⟨u, hu, hname⟩ := List.mem_map.mp h
  exact ⟨u, hu, ((hnamed u hu).fullName_eq_iff ht (hconc u hu) hct).mp hname⟩

end TypeRef

namespace Pool

variable {ts : List TypeRef}

/-- A pool of named types holds no tree twice, and the tree of every concrete type added. -/
theorem ofList_faithful (hnamed : ∀ t ∈ ts, t.Named) :
    TypeRef.Distinct (ofList ts).types ∧
      ∀ t ∈ ts, t.isConcrete = true → ∃ u ∈ (ofList ts).types, u.Same true t := by
  have hproper := proper_empty.addAll ts
  have hadded : ∀ u ∈ (ofList ts).types, u.Named := fun u hu =>
    hnamed u ((mem_of_mem_addAll u hu).resolve_left (by simp))
  refine ⟨TypeRef.distinct_of_nodup hadded hproper.concrete hproper.nodup, ?_⟩
  intro t ht hct
  refine (hnamed t ht).exists_same hct hadded hproper.concrete ?_
  exact mem_names_addAll.mpr (Or.inr ⟨t, ht, hct, rfl⟩)

end Pool

/-- **Keys are faithful names.** Of references that break no rule of the format, whose names and
owners hold no byte that structures a key, and whose declared types are not named like parameters:

* two are equal exactly if they are the same tree, and so are two calls exactly if their types are
  and their entries are one;
* two concrete ones have one full name exactly if they are equal;
* a pool to which they are added, and the result of a resolution that gives them, hold no tree twice
  and the tree of every concrete one. -/
theorem key_faithful :
    (∀ t o : TypeRef, t.Named → o.Named →
      (t.equal o = true ↔ t.Same true o) ∧
        (t.isConcrete = true → o.isConcrete = true →
          (t.fullName = o.fullName ↔ t.equal o = true))) ∧
    (∀ c c' : CallRef, c.type.Named → c'.type.Named →
      c.type.isPresent = true → c'.type.isPresent = true →
      (c.equal c' = true ↔ c.type.Same true c'.type ∧ c.entry = c'.entry)) ∧
    (∀ ts : List TypeRef, (∀ t ∈ ts, t.Named) →
      TypeRef.Distinct (Pool.ofList ts).types ∧
        ∀ t ∈ ts, t.isConcrete = true → ∃ u ∈ (Pool.ofList ts).types, u.Same true t) ∧
    ∀ (e : Engine) (calls : List CallRef) (cancelled : Bool) (out : Resolution),
      e.resolve calls cancelled = .ok out →
      (∀ c ∈ calls, ∀ ts, e.Resolves c ts → ∀ t ∈ ts, t.Named) →
      TypeRef.Distinct out.types ∧
        ∀ c ∈ calls, ∃ ts, e.Resolves c ts ∧ ∀ t ∈ ts, ∃ u ∈ out.types, u.Same true t := by
  refine ⟨?_, ?_, fun ts hnamed => Pool.ofList_faithful hnamed, ?_⟩
  · intro t o ht ho
    refine ⟨ht.equal_iff ho, fun hct hco => ?_⟩
    rw [ht.fullName_eq_iff ho hct hco, ht.equal_iff ho]
  · intro c c' hc hc' hp hp'
    rw [CallRef.equal, Bool.and_eq_true, beq_iff_eq, beq_iff_eq, hc.key_eq_iff hc' hp hp']
  · intro e calls cancelled out hout hnamed
    have houtcome := Engine.resolve_outcome hout
    have hresolved : ∀ u ∈ out.types, u.Named ∧ u.isConcrete = true := by
      intro u hu
      obtain ⟨c, hc, ts, hres, hts⟩ := houtcome.origin u hu
      obtain ⟨_, _, hconc, _⟩ := hres.derives hts
      exact ⟨hnamed c hc ts hres u hts, hconc⟩
    have hnames : ∀ u ∈ out.types, u.Named := fun u hu => (hresolved u hu).1
    have hconcs : ∀ u ∈ out.types, u.isConcrete = true := fun u hu => (hresolved u hu).2
    refine ⟨TypeRef.distinct_of_nodup hnames hconcs houtcome.nodup, ?_⟩
    intro c hc
    obtain ⟨ts, hres, hin⟩ := houtcome.named c hc
    refine ⟨ts, hres, fun t ht => ?_⟩
    obtain ⟨_, _, hconc, _⟩ := hres.derives ht
    exact (hnamed c hc ts hres t ht).exists_same hconc hnames hconcs (hin t ht)

namespace Sample

/-- A pair of the parameter of `owner` and of a box of that of its method. -/
def pairIn (owner declared : Text) : TypeRef :=
  .applied "App.Pair`2" [.typeParam declared 0 owner,
    .applied "App.Box`1" [.methodParam declared 0 (owner ++ "::Run")]]

end Sample

open Sample in
/-- Declared names make no difference and owners do; a box comes twice, once with a field set that
its kind does not use; and a resolution from the pool. -/
theorem key_faithful_box :
    let t := pairIn "App.Outer`1" "T"
    let u := pairIn "App.Outer`1" "U"
    let v := pairIn "App.Inner`1" "T"
    let boxed := TypeRef.applied "App.Box`1" [foo]
    let again := TypeRef.node .inst "App.Box`1" [foo] 7 ⟨0⟩ []
    let ts := [boxed, .applied "App.Box`1" [boxed], again, t]
    let e := Engine.ofModules [some Sample.pool.module] 64
    let calls := CallRef.collect e.registry ["App.Box`1"]
    (t.Named ∧ u.Named ∧ v.Named) ∧ t.equal u = true ∧ t.equal v = false ∧
      (boxed.Named ∧ again.Named ∧ boxed.fullName = again.fullName) ∧
      ((Pool.ofList ts).types.length = 2 ∧ TypeRef.Distinct (Pool.ofList ts).types) ∧
      ∃ out, e.resolve calls false = .ok out ∧ out.types.length = 2 ∧
        TypeRef.Distinct out.types := by
  intro t u v boxed again ts e calls
  obtain ⟨hequal, _, hpool, hresolve⟩ := key_faithful
  have ht : t.Named := by decide +kernel
  have hu : u.Named := by decide +kernel
  have hv : v.Named := by decide +kernel
  have hboxed : boxed.Named := by decide +kernel
  have hagain : again.Named := by decide +kernel
  have hts : ∀ t ∈ ts, t.Named := by decide +kernel
  refine ⟨⟨ht, hu, hv⟩, (hequal t u ht hu).1.mpr (by decide), ?_, ⟨hboxed, hagain, ?_⟩,
    ⟨rfl, (hpool ts hts).1⟩, ?_⟩
  · exact Bool.eq_false_iff.mpr fun h => absurd ((hequal t v ht hv).1.mp h) (by decide)
  · exact ((hequal boxed again hboxed hagain).2 rfl rfl).mpr
      ((hequal boxed again hboxed hagain).1.mpr (by decide))
  · have hcalls : calls = [{ type := Sample.pool.seed, entry := some ⟨3, 1⟩ }] := rfl
    have hseed : ∀ types, e.Resolves { type := Sample.pool.seed, entry := some ⟨3, 1⟩ } types →
        types = [.applied "App.Box`1" [bar], .applied "App.Box`1" [foo]] := by
      rintro types ⟨p, stats, hp, hresolved⟩
      cases hp
      have hrun : e.resolveSeed { type := Sample.pool.seed, entry := ⟨3, 1⟩ }
        = .ok ([.applied "App.Box`1" [bar], .applied "App.Box`1" [foo]], _) := rfl
      exact (Prod.mk.inj (Except.ok.inj (hresolved.symm.trans hrun))).1
    have hrun : ∃ out, e.resolve calls false = .ok out ∧ out.types.length = 2 := ⟨_, rfl, rfl⟩
    obtain ⟨out, hout, hlength⟩ := hrun
    refine ⟨out, hout, hlength, (hresolve e calls false out hout ?_).1⟩
    rw [hcalls]
    intro c hc types hres
    rw [List.mem_singleton.mp hc] at hres
    rw [hseed types hres]
    decide +kernel

end Monomorph
