import Monomorph.Proofs.Agreement
import Monomorph.Proofs.Composition

/-!
# Bindings of a call site

A reference to a method on its type, applied to arguments of the type and of the method, supplies
one row: the arguments of the type, then those of the method (`Bindings.ofSite_instantiate`). The
parameters of the type are looked up in the first part and those of the method in the second, so
each is bound to its own argument, and the type as it sees itself becomes the type that the call
names.

The offset of the second part is added as a machine word. A position so far out that the sum leaves
the word reaches in front of the row instead of past its end.
-/

namespace Monomorph

/-! ## A row of arguments -/

theorem TypeRef.equal_self (t : TypeRef) : t.equal t = true := by
  cases t with
  | absent => rfl
  | node => simp [equal]

theorem forall₂_mapIdx {α β γ : Type} {R : β → γ → Prop} {f : Nat → α → β} {as : List α}
    {cs : List γ} (hlen : cs.length = as.length)
    (h : ∀ i a, ∀ hi : i < cs.length, R (f i a) cs[i]) : List.Forall₂ R (as.mapIdx f) cs := by
  refine List.forall₂_iff_get.mpr ⟨by simp [hlen], fun i _ hi => ?_⟩
  simpa using h i _ hi

namespace Owner

theorem params_eq_nil_iff {o : Owner} : o.params = [] ↔ o.generic = [] := by simp [params]

theorem isParameter_of_mem_params {o : Owner} {x : TypeRef} (h : x ∈ o.params) :
    x.isParameter = true := by
  obtain ⟨i, hi, rfl⟩ := List.mem_mapIdx.mp h
  rfl

theorem anyParameter_params {o : Owner} (h : o.generic ≠ []) :
    TypeRef.anyParameter o.params = true := by
  obtain ⟨x, hx⟩ := List.exists_mem_of_ne_nil _ (mt params_eq_nil_iff.mp h)
  rw [TypeRef.anyParameter_eq_any, List.any_eq_true]
  exact ⟨x, hx, TypeRef.hasParameter_of_isParameter (isParameter_of_mem_params hx)⟩

/-- An owner takes as many arguments as it has parameters; a plain one stands for itself. -/
theorem instantiate_eq {o : Owner} {args : List TypeRef} (h : args.length = o.generic.length) :
    o.instantiate args
      = .ok (if o.generic = [] then .define o.fullName else .applied o.fullName args) := by
  have hempty : args.isEmpty = true ↔ o.generic = [] := by
    rw [List.isEmpty_iff, ← List.length_eq_zero_iff, h, List.length_eq_zero_iff]
  rw [instantiate, if_neg (by simp [h])]
  by_cases hplain : o.generic = []
  · rw [if_pos (hempty.mpr hplain), if_pos hplain]
  · rw [if_neg (mt hempty.mp hplain), if_neg hplain]

theorem length_of_instantiate {o : Owner} {args : List TypeRef} {t : TypeRef}
    (h : o.instantiate args = .ok t) : args.length = o.generic.length := by
  unfold instantiate at h
  split at h
  · cases h
  · rename_i hlen
    exact (not_not.mp hlen).symm

end Owner

namespace Bindings

/-- The row of a call: the arguments of the type, then those of the method. -/
def row (args own : List TypeRef) : Bindings :=
  { args := args ++ own, typeArity := Int64.ofNat args.length }

/-- A call of a method on its type, applied to arguments, supplies their row. -/
theorem ofSite_instantiate {o : Owner} {args : List TypeRef} {t : TypeRef}
    (h : o.instantiate args = .ok t) (m : Member) (own : List TypeRef) :
    ofSite { m.refOn t with typeArgs := own } = row args own := by
  unfold Owner.instantiate at h
  split at h
  · cases h
  · split at h
    -- A plain type has no arguments, so the row starts with those of the method.
    · rename_i hempty
      cases h
      rw [List.isEmpty_iff.mp hempty]
      rfl
    · cases h
      rfl

/-! ## Looking parameters up -/

variable {b : Bindings} {x : TypeRef}

theorem apply_of_isParameter (hx : x.isParameter = true) : b.apply x = b.lookup x := by
  cases x with
  | absent => cases hx
  | node kind name args position param owner =>
      obtain rfl : kind = .parameter := by simpa [TypeRef.isParameter] using hx
      exact apply_parameter ..

theorem not_lt_zero {position : Int64} (h : 0 ≤ position.toInt) : ¬ position < 0 := by
  rw [Int64.lt_iff_toInt_lt]
  simpa using h

theorem lookup_type (hx : x.isParameter = true) (hkind : x.paramKind = .type)
    (hpos : 0 ≤ x.position) :
    b.lookup x = if b.typeArity.toInt ≤ x.position then .error .unbound else b.get x.position := by
  cases x with
  | absent => cases hx
  | node kind name args position param owner =>
      obtain rfl : kind = .parameter := by simpa [TypeRef.isParameter] using hx
      obtain rfl : param = .type := hkind
      rw [lookup, if_neg (by simp [not_lt_zero hpos]), if_pos rfl]
      exact if_congr Int64.le_iff_toInt_le rfl rfl

/-- The sum of offset and position has to fit the machine word that it is made in. -/
theorem lookup_method (hx : x.isParameter = true) (hkind : x.paramKind = .method)
    (hpos : 0 ≤ x.position) (harity : 0 ≤ b.typeArity.toInt)
    (hsum : b.typeArity.toInt + x.position < 2 ^ 63) :
    b.lookup x = b.get (b.typeArity.toInt + x.position) := by
  cases x with
  | absent => cases hx
  | node kind name args position param owner =>
      obtain rfl : kind = .parameter := by simpa [TypeRef.isParameter] using hx
      obtain rfl : param = .method := hkind
      have hpos' : 0 ≤ position.toInt := hpos
      have hsum' : b.typeArity.toInt + position.toInt < 2 ^ 63 := hsum
      have hword : (b.typeArity + position).toInt = b.typeArity.toInt + position.toInt := by
        rw [Int64.toInt_add, Int.bmod_eq_of_le (by omega) (by omega)]
      rw [lookup, if_neg (by simp [not_lt_zero hpos]),
        if_neg (Ne.symm ParamKind.type_ne_method), if_pos rfl, hword]
      rfl

section Row

variable {args own : List TypeRef} (hshort : (args ++ own).length < 2 ^ 63)

include hshort

theorem typeArity_row : (row args own).typeArity.toInt = args.length := by
  rw [List.length_append] at hshort
  exact Int64.toInt_ofNat_of_lt (by omega)

/-- A type parameter is looked up in the first part of the row. -/
theorem lookup_row_type (hx : x.isParameter = true) (hkind : x.paramKind = .type)
    (hpos : 0 ≤ x.position) :
    (row args own).lookup x = (args[x.position.toNat]?).elim (.error .unbound) .ok := by
  rw [lookup_type hx hkind hpos, typeArity_row hshort]
  by_cases hle : (args.length : Int) ≤ x.position
  · rw [if_pos hle, List.getElem?_eq_none (by omega)]
    rfl
  · have hlt : x.position.toNat < args.length := by omega
    rw [if_neg hle, get_eq_ok hpos (by simp only [row, List.length_append]; omega), row,
      List.getD_append _ _ _ _ hlt, List.getElem?_eq_getElem hlt, List.getD_eq_getElem _ _ hlt]
    rfl

/-- A method parameter is looked up in the second part of the row. -/
theorem lookup_row_method (hx : x.isParameter = true) (hkind : x.paramKind = .method)
    (hpos : 0 ≤ x.position) (hsum : args.length + x.position < 2 ^ 63) :
    (row args own).lookup x = (own[x.position.toNat]?).elim (.error .unbound) .ok := by
  have harity := typeArity_row hshort
  rw [lookup_method hx hkind hpos (by omega) (by omega), harity]
  by_cases hle : (own.length : Int) ≤ x.position
  · rw [get_eq_unbound (by simp only [row, List.length_append]; omega),
      List.getElem?_eq_none (by omega)]
    rfl
  · have hlt : x.position.toNat < own.length := by omega
    have hindex : (args.length + x.position).toNat = args.length + x.position.toNat := by omega
    rw [get_eq_ok (by omega) (by simp only [row, List.length_append]; omega), hindex, row,
      List.getD_append_right _ _ _ _ (by omega), Nat.add_sub_cancel_left,
      List.getElem?_eq_getElem hlt, List.getD_eq_getElem _ _ hlt]
    rfl

/-! ## The parameters of a type and of its method -/

/-- What the members of a type know as its parameters is bound to the arguments of the type. -/
theorem lookup_params {o : Owner} (hlen : args.length = o.generic.length) :
    List.Forall₂ (fun x a => (row args own).lookup x = .ok a) o.params args := by
  refine forall₂_mapIdx hlen fun i name hi => ?_
  rw [List.length_append] at hshort
  have hword : (Int64.ofNat i).toInt = i := Int64.toInt_ofNat_of_lt (by omega)
  have hpos : (TypeRef.typeParam name (Int64.ofNat i) o.fullName).position = i := hword
  rw [lookup_row_type (by rwa [List.length_append]) rfl rfl (by omega), hpos, Int.toNat_natCast,
    List.getElem?_eq_getElem hi]
  rfl

/-- What a method knows as its own parameters is bound to the arguments of the method. -/
theorem lookup_own_params {m : Member} (hlen : own.length = m.method.generic.length) :
    List.Forall₂ (fun x a => (row args own).lookup x = .ok a) m.params own := by
  refine forall₂_mapIdx hlen fun j name hj => ?_
  rw [List.length_append] at hshort
  have hword : (Int64.ofNat j).toInt = j := Int64.toInt_ofNat_of_lt (by omega)
  have hpos : (TypeRef.methodParam name (Int64.ofNat j) m.ownerName).position = j := hword
  rw [lookup_row_method (by rwa [List.length_append]) rfl rfl (by omega) (by omega), hpos,
    Int.toNat_natCast, List.getElem?_eq_getElem hj]
  rfl

/-- The type as it sees itself becomes the type that the call names. -/
theorem apply_selfRef {o : Owner} {t : TypeRef} (ht : o.instantiate args = .ok t) :
    (row args own).apply o.selfRef = .ok t := by
  have hlen := o.length_of_instantiate ht
  rw [Owner.instantiate_eq hlen] at ht
  obtain rfl := Except.ok.inj ht
  by_cases hplain : o.generic = []
  · rw [if_pos hplain, Owner.selfRef, if_pos (List.isEmpty_iff.mpr hplain), TypeRef.define,
      apply_other _ (by decide) (by decide)]
  · have heach : (row args own).applyEach o.params = .ok args := by
      have hboth := (List.forall₂_and_left _ _).mpr
        ⟨fun x hx => o.isParameter_of_mem_params hx, lookup_params hshort hlen⟩
      exact applyEach_eq_ok_iff.mpr (hboth.imp fun x a h => (apply_of_isParameter h.1).trans h.2)
    rw [if_neg hplain, Owner.selfRef, if_neg (mt List.isEmpty_iff.mp hplain), TypeRef.applied,
      apply_inst, heach, Owner.anyParameter_params hplain]
    rfl

end Row

/-- **A call site binds what it was built for.** Take a method of a type, as many arguments as the
type has parameters, and as many as the method has, in a row whose length fits a machine word. The
method on the type applied to the former, called with the latter, supplies bindings

* under which every parameter of the type is looked up as its argument, and so is every parameter of
  the method;
* under which a type parameter beyond those of the type is unbound, and so is a method parameter
  beyond those of the method as long as its place in the row is a machine word;
* that turn the type as it sees itself into the type applied to its arguments. -/
theorem ofSite_exact (d : Definition) (m : Member) (hm : m.owner = some d.owner)
    (args own : List TypeRef) (hargs : args.length = d.head.generic.length)
    (hown : own.length = m.method.generic.length) (hshort : (args ++ own).length < 2 ^ 63) :
    ∃ ref t, m.instantiate args = .ok ref ∧ d.owner.instantiate args = .ok t ∧
      let b := ofSite { ref with typeArgs := own }
      List.Forall₂ (fun x a => b.lookup x = .ok a) d.owner.params args ∧
        List.Forall₂ (fun x a => b.lookup x = .ok a) m.params own ∧
        (∀ x : TypeRef, x.isParameter = true → x.paramKind = .type →
          d.head.generic.length ≤ x.position → b.lookup x = .error .unbound) ∧
        (∀ x : TypeRef, x.isParameter = true → x.paramKind = .method →
          m.method.generic.length ≤ x.position → d.head.generic.length + x.position < 2 ^ 63 →
            b.lookup x = .error .unbound) ∧
        ∃ r, b.apply d.owner.selfRef = .ok r ∧ r.equal t = true := by
  have ht := Owner.instantiate_eq (o := d.owner) hargs
  refine ⟨_, _, by rw [Member.instantiate, hm]; exact congrArg (Except.map m.refOn) ht, ht, ?_⟩
  rw [ofSite_instantiate ht m own]
  refine ⟨lookup_params hshort hargs, lookup_own_params hshort hown, ?_, ?_, ?_⟩
  · intro x hx hkind hpos
    rw [lookup_row_type hshort hx hkind (by omega), List.getElem?_eq_none (by omega)]
    rfl
  · intro x hx hkind hpos hsum
    rw [lookup_row_method hshort hx hkind (by omega) (by omega),
      List.getElem?_eq_none (by omega)]
    rfl
  · exact ⟨_, apply_selfRef hshort ht, TypeRef.equal_self _⟩

end Bindings

open Sample in
/-- `Container<Foo>.Method<Bar>`: each of the two parameters finds its own argument, a second type
parameter does not reach over to that of the method, and there is no second method parameter. -/
theorem Bindings.ofSite_exact_container :
    ∃ d m, offset.module.definitions[3]? = some d ∧ d.members[0]? = some m ∧
      m.owner = some d.owner ∧ [foo].length = d.head.generic.length ∧
      [bar].length = m.method.generic.length ∧ ([foo] ++ [bar]).length < 2 ^ 63 ∧
      ∃ ref, m.instantiate [foo] = .ok ref ∧
        let b := ofSite { ref with typeArgs := [bar] }
        List.Forall₂ (fun x a => b.lookup x = .ok a) d.owner.params [foo] ∧
          List.Forall₂ (fun x a => b.lookup x = .ok a) m.params [bar] ∧
          b.lookup (.typeParam "V" 1 "App.Container`1") = .error .unbound ∧
          b.lookup (.methodParam "V" 1 "App.Container`1::Method") = .error .unbound ∧
          ∃ r, b.apply d.owner.selfRef = .ok r ∧
            r.equal (.applied "App.Container`1" [foo]) = true := by
  have hfound : ∃ d m, offset.module.definitions[3]? = some d ∧ d.members[0]? = some m :=
    ⟨_, _, rfl, rfl⟩
  obtain ⟨d, m, hd, hm⟩ := hfound
  have howner : m.owner = some d.owner := by
    cases hd
    cases hm
    rfl
  have hargs : [foo].length = d.head.generic.length := by
    cases hd
    rfl
  have hown : [bar].length = m.method.generic.length := by
    cases hd
    cases hm
    rfl
  obtain ⟨ref, t, href, ht, htypes, hmethods, htype, hmethod, happly⟩ :=
    ofSite_exact d m howner [foo] [bar] hargs hown (by decide)
  have hname : t = .applied "App.Container`1" [foo] := by
    cases hd
    exact (Except.ok.inj ht).symm
  refine ⟨d, m, hd, hm, howner, hargs, hown, by decide, ref, href, htypes, hmethods, ?_, ?_, ?_⟩
  · exact htype _ rfl rfl (by rw [← hargs]; decide)
  · exact hmethod _ rfl rfl (by rw [← hown]; decide) (by rw [← hargs]; decide)
  · exact hname ▸ happly

open Sample in
/-- The last position of all is beyond the parameters of `Container<Foo>.Method<Bar>`, but behind the
argument of the type it is no machine word: looking it up reaches in front of the row. -/
theorem Bindings.last_position_overruns :
    ∃ d m, offset.module.definitions[3]? = some d ∧ d.members[0]? = some m ∧
      m.owner = some d.owner ∧ [foo].length = d.head.generic.length ∧
      [bar].length = m.method.generic.length ∧
      ∃ ref, m.instantiate [foo] = .ok ref ∧
        let b := ofSite { ref with typeArgs := [bar] }
        let x := TypeRef.methodParam "U" Int64.maxValue m.ownerName
        x.isParameter = true ∧ x.paramKind = .method ∧ m.method.generic.length ≤ x.position ∧
          b.lookup x = .error .outOfRange ∧ b.lookup x ≠ .error .unbound := by
  refine ⟨_, _, rfl, rfl, rfl, rfl, rfl, _, rfl, rfl, rfl, ?_, ?_, ?_⟩
  · decide
  · decide
  · decide

end Monomorph
