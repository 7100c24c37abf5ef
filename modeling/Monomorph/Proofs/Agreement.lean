import Monomorph.Proofs.Emission
import Monomorph.Proofs.Inheritance
import Monomorph.Proofs.Key

/-!
# Two substitutions, one result

A chain of calls substitutes all or nothing and shares what it does not change; a chain of base
types fills in what it can, leaves other parameters where they are, and builds every instance anew.
Both are replacements (`Bindings.apply_eq`, `TypeRef.fillIn_tree`), by the argument of a parameter
that has one. So the two make one tree of a reference in which every parameter has an argument, and a
parameter without one is still there when the base type has been filled in.
-/

namespace Monomorph

namespace TypeRef

/-! ## Filling in is replacement -/

/-- What filling in puts in the place of a parameter: the argument at its position, or the parameter
itself where no type argument stands. -/
def filledBy (args : List TypeRef) (x : TypeRef) : TypeRef :=
  if x.paramKind = .type ∧ 0 ≤ x.position ∧ x.position < args.length then argumentAt args x else x

/-- Filling in replaces every parameter, up to the fields that no kind of reference uses. -/
theorem fillIn_tree (args : List TypeRef) (t : TypeRef) :
    (t.fillIn args).tree = (t.replace (filledBy args)).tree := by
  induction t using TypeRef.induction with
  | absent => rfl
  | node kind name inner position param owner ih =>
      by_cases hp : kind = .parameter
      · subst hp
        rw [replace_parameter, fillIn, if_pos rfl]
        rfl
      by_cases hi : kind = .inst
      · subst hi
        rw [fillIn, if_neg hp, if_pos rfl, fillInEach_eq_map, replace_inst]
        have hinner : (inner.map (fillIn args)).map tree
            = (inner.map (replace (filledBy args))).map tree := by
          rw [List.map_map, List.map_map]
          exact List.map_congr_left ih
        split
        · rw [applied, applied, tree_inst, tree_inst, hinner]
        -- An instance without parameters is built anew from arguments that do not change.
        · rename_i hnone
          have hsame : inner.map (replace (filledBy args)) = inner := by
            rw [anyParameter_eq_any, List.any_eq_true] at hnone
            refine (List.map_congr_left fun a ha => replace_eq_self ?_).trans (List.map_id _)
            exact Bool.eq_false_iff.mpr fun ha' => hnone ⟨a, ha, ha'⟩
          rw [applied, tree_inst, tree_inst, hinner, hsame]
      · rw [fillIn, if_neg hp, if_neg hi, replace_eq_self (hasParameter_other hp hi ..)]

/-- A reference that substitution gives a result for has no empty place. -/
theorem filled_of_apply {b : Bindings} (t : TypeRef) :
    ∀ {r : TypeRef}, b.apply t = .ok r → t.Obeys .filled := by
  induction t using TypeRef.induction with
  | absent => exact fun h => nomatch h
  | node kind name inner position param owner ih =>
      intro r hr
      by_cases hi : kind = .inst
      · subst hi
        rw [Bindings.apply_inst] at hr
        cases heach : b.applyEach inner with
        | error f => rw [heach] at hr; cases hr
        | ok inner' =>
            refine .inst trivial fun a ha => ?_
            have hall := Bindings.applyEach_ok heach
            obtain ⟨i, hi, rfl⟩ := List.getElem_of_mem ha
            exact ih _ ha (hall.get hi (hall.length_eq ▸ hi))
      · exact .leaf hi trivial

theorem Obeys.whole_of_filled {t : TypeRef} (h : t.Obeys .placed) (h' : t.Obeys .filled) :
    t.Obeys .whole := by
  refine (h.and h').imp (fun _ _ _ => trivial) ?_ ?_
  · rintro kind name position param owner ⟨hplaced, -⟩ hp
    have hpos := hplaced hp
    simpa [fitsPosition] using hpos
  · exact fun hhole => hhole.2

theorem hasParameter_of_isParameter {t : TypeRef} (h : t.isParameter = true) :
    t.hasParameter = true := by
  cases t with
  | absent => cases h
  | node kind name args position param owner =>
      have hk : kind = .parameter := by simpa [isParameter] using h
      subst hk
      exact hasParameter_parameter ..

theorem not_isConcrete_of_hasParameter {t : TypeRef} (h : t.hasParameter = true) :
    t.isConcrete = false := by
  cases t with
  | absent => rfl
  | node => simp [isConcrete, h]

/-- The position of a parameter that occurs fits its encoded width. -/
theorem Obeys.position_nonneg {t x : TypeRef} (h : t.Obeys .placed) (hx : x ∈ t.parameters) :
    0 ≤ x.position := by
  obtain ⟨hobeys, hparam⟩ := h.parameters x hx
  cases hobeys with
  | hole => cases hparam
  | inst => cases hparam
  | leaf hk hleaf => exact (hleaf (by simpa [isParameter] using hparam)).1

variable {args : List TypeRef}

/-- What filling in puts in the place of a parameter is what the arguments give it, if they do. -/
theorem filledBy_eq (hargs : args.length < 2 ^ 60) {x : TypeRef} (hpos : 0 ≤ x.position) :
    filledBy args x
      = if (Bindings.ofTypeArgs args).Binds x then (Bindings.ofTypeArgs args).argument x
        else x := by
  by_cases htype : x.paramKind = .type
  · have hbinds := Bindings.binds_type_iff hargs htype
    rw [filledBy, Bindings.argument_type htype]
    exact if_congr (by rw [hbinds]; simp [htype, hpos]) rfl rfl
  · have hunbound : ¬ (Bindings.ofTypeArgs args).Binds x := by
      intro hbinds
      rcases hbinds with ⟨hkind, -⟩ | ⟨hkind, hlt⟩
      · exact htype hkind
      · exact Bindings.not_binds_method hargs hkind hpos (Or.inr ⟨hkind, hlt⟩)
    rw [filledBy, if_neg fun h => htype h.1, if_neg hunbound]

/-! ## Agreement -/

/-- Where every parameter has an argument, both routines make one tree. -/
theorem fillIn_tree_of_apply {t r : TypeRef} (ht : t.Obeys .placed) (hargs : args.length < 2 ^ 60)
    (h : (Bindings.ofTypeArgs args).apply t = .ok r) : (t.fillIn args).tree = r.tree := by
  have hwhole := ht.whole_of_filled (filled_of_apply t h)
  rw [Bindings.apply_eq (Bindings.framed_ofTypeArgs hargs) hwhole] at h
  split at h
  · rename_i hbound
    cases h
    rw [fillIn_tree]
    refine congrArg tree (replace_congr t fun x hx => ?_)
    rw [filledBy_eq hargs (ht.position_nonneg hx), if_pos (hbound x hx)]
  · cases h

/-- A parameter without an argument stays where it is. -/
theorem hasParameter_fillIn {t : TypeRef} (ht : t.Obeys .placed) (hargs : args.length < 2 ^ 60)
    (h : ∃ x ∈ t.parameters, ¬ (Bindings.ofTypeArgs args).Binds x) :
    (t.fillIn args).hasParameter = true := by
  obtain ⟨x, hx, hunbound⟩ := h
  obtain ⟨-, hparam⟩ := ht.parameters x hx
  rw [← hasParameter_tree, fillIn_tree, hasParameter_tree, hasParameter_replace]
  refine ⟨x, hx, ?_⟩
  rw [filledBy_eq hargs (ht.position_nonneg hx), if_neg hunbound]
  exact hasParameter_of_isParameter hparam

end TypeRef

theorem Registry.baseType?_eq {g : Registry} {u : TypeRef} {d : Definition}
    (hu : u.isInstance = true) (hd : g.resolveType? u = some d)
    (hbase : d.head.base.isPresent = true) (hplaced : d.head.base.Obeys .placed) :
    g.baseType? u = .ok (some (d.head.base.fillIn u.args)) := by
  rw [baseType?, hd]
  dsimp only
  rw [if_neg (by simp [hbase]), if_neg (by simp [hu]),
    if_neg (by simp [TypeRef.reachesBefore_of_placed hplaced])]

/-- **The two substitutions agree.** Take a reference whose parameter positions fit their encoded
width, and a row of arguments that memory can hold.

* If substituting the row gives a result, filling the row in gives a reference of the same key.
* If it gives none, although no place in the reference is empty, then a parameter is left when the
  row has been filled in, so that the reference is not taken for a concrete one.
* Filling in is what a chain of base types does, and it does not fault: the reference as the base
  type of a definition, seen from an instance with these arguments, is the reference with the row
  filled in. -/
theorem TypeRef.fillIn_agrees (t : TypeRef) (ht : t.Obeys .placed) (args : List TypeRef)
    (hargs : args.length < 2 ^ 60) :
    (∀ r, (Bindings.ofTypeArgs args).apply t = .ok r → (t.fillIn args).key = r.key) ∧
      (t.Obeys .filled → ∀ f, (Bindings.ofTypeArgs args).apply t = .error f →
        (t.fillIn args).hasParameter = true ∧ (t.fillIn args).isConcrete = false) ∧
      ∀ (g : Registry) (u : TypeRef) (d : Definition), u.isInstance = true → u.args = args →
        g.resolveType? u = some d → d.head.base = t → t.isPresent = true →
        g.baseType? u = .ok (some (t.fillIn args)) := by
  refine ⟨?_, ?_, ?_⟩
  · intro r hr
    rw [← key_tree, fillIn_tree_of_apply ht hargs hr, key_tree]
  · intro hfilled f hf
    have happly := Bindings.apply_eq (Bindings.framed_ofTypeArgs hargs) (ht.whole_of_filled hfilled)
    have hunbound : ∃ x ∈ t.parameters, ¬ (Bindings.ofTypeArgs args).Binds x := by
      by_contra! hbound
      rw [happly, if_pos hbound] at hf
      cases hf
    have hparam := hasParameter_fillIn ht hargs hunbound
    exact ⟨hparam, not_isConcrete_of_hasParameter hparam⟩
  · rintro g u d hu rfl hd rfl hpresent
    exact Registry.baseType?_eq hu hd hpresent ht

open Sample in
/-- The base type of `Sub<T>`, with an argument for `T` and without one. -/
theorem TypeRef.fillIn_agrees_base :
    let base := TypeRef.applied "App.Wrapper`1"
      [.applied "App.Box`1" [.typeParam "T" 0 "App.Sub`1"]]
    let sub := TypeRef.applied "App.Sub`1" [foo]
    base.Obeys .placed ∧ base.Obeys .filled ∧ [foo].length < 2 ^ 60 ∧
      (∃ d, (Registry.ofModules [some derived]).resolveType? sub = some d ∧ d.head.base = base) ∧
      (∃ r, (Bindings.ofTypeArgs [foo]).apply base = .ok r ∧ (base.fillIn [foo]).key = r.key) ∧
      (Registry.ofModules [some derived]).baseType? sub = .ok (some (base.fillIn [foo])) ∧
      (Bindings.ofTypeArgs []).apply base = .error .unbound ∧
      (base.fillIn []).isConcrete = false := by
  intro base sub
  have hparam : ∀ {R : Rules}, R.leaf .parameter "T" 0 .type "App.Sub`1" →
      (∀ name n, R.inst name n) → base.Obeys R := by
    intro R hleaf hinst
    refine .inst (hinst _ _) ?_
    rw [List.forall_mem_singleton]
    refine .inst (hinst _ _) ?_
    rw [List.forall_mem_singleton]
    exact .leaf (by decide) hleaf
  have hplaced : base.Obeys .placed := hparam (fun _ => by decide) fun _ _ => trivial
  have hfilled : base.Obeys .filled := hparam trivial fun _ _ => trivial
  obtain ⟨hkey, -, hbase⟩ := fillIn_agrees base hplaced [foo] (by decide)
  obtain ⟨-, hleft, -⟩ := fillIn_agrees base hplaced [] (by decide)
  have happly : ∃ r, (Bindings.ofTypeArgs [foo]).apply base = .ok r := ⟨_, rfl⟩
  obtain ⟨r, hr⟩ := happly
  have hunbound : (Bindings.ofTypeArgs []).apply base = .error .unbound := rfl
  have hd : ∃ d, (Registry.ofModules [some derived]).resolveType? sub = some d ∧
      d.head.base = base := ⟨_, rfl, rfl⟩
  refine ⟨hplaced, hfilled, by decide, hd, ⟨r, hr, hkey r hr⟩, ?_, hunbound, ?_⟩
  · obtain ⟨d, hresolves, hdbase⟩ := hd
    exact hbase _ sub d rfl rfl hresolves hdbase rfl
  · exact (hleft hfilled _ hunbound).2

end Monomorph
