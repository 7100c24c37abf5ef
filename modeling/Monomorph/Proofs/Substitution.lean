import Mathlib.Data.List.Forall2
import Mathlib.Data.List.GetD
import Monomorph.Resolve.Bindings
import Monomorph.TypeRef.Instantiate

/-!
# What substitution keeps

Two routines replace the parameters of a reference: `Bindings.apply` at a call site, and
`TypeRef.fillIn` for a base type. Both keep every rule that looks at the nodes of a reference one
by one, as long as the arguments obey the rule too. `TypeRef.Obeys` states such rules once, and the
rules of the file format, of narrow argument lists and of readable names are instances of it.

The second half says what `Bindings.apply` does to each kind of reference, and when it cannot reach
in front of its arguments.
-/

namespace Monomorph

/-- Rules for the nodes of a reference: for the name and the number of arguments of an instance, for
the fields of any other node, and whether a place may be empty. -/
structure Rules where
  inst : Text → Nat → Prop := fun _ _ => True
  leaf : TypeKind → Text → Int64 → ParamKind → Text → Prop := fun _ _ _ _ _ => True
  hole : Prop := True

namespace TypeRef

/-- What holds of an empty place, and of a node whose arguments it holds of, holds everywhere. -/
@[elab_as_elim]
theorem induction {P : TypeRef → Prop} (absent : P .absent)
    (node : ∀ kind name args position param owner, (∀ a ∈ args, P a) →
      P (.node kind name args position param owner)) : ∀ t, P t
  | .absent => absent
  | .node kind name args position param owner =>
    node kind name args position param owner fun a _ => induction absent node a

theorem isPresent_of_isInstance {t : TypeRef} (h : t.isInstance = true) : t.isPresent = true := by
  cases t with
  | absent => cases h
  | node => rfl

/-- Every node of the reference obeys the rules. The arguments of a node that is no instance do not
count: nothing looks at them. -/
inductive Obeys (R : Rules) : TypeRef → Prop where
  | hole (h : R.hole) : Obeys R .absent
  | inst {name : Text} {args : List TypeRef} {position : Int64} {param : ParamKind} {owner : Text}
      (h : R.inst name args.length) (hargs : ∀ a ∈ args, Obeys R a) :
      Obeys R (.node .inst name args position param owner)
  | leaf {kind : TypeKind} {name : Text} {args : List TypeRef} {position : Int64}
      {param : ParamKind} {owner : Text}
      (hk : kind ≠ .inst) (h : R.leaf kind name position param owner) :
      Obeys R (.node kind name args position param owner)

theorem Obeys.args {R : Rules} {t : TypeRef} (h : t.Obeys R) (ht : t.isInstance = true) :
    ∀ a ∈ t.args, a.Obeys R := by
  cases h with
  | hole h => simp [isInstance] at ht
  | inst h hargs => exact hargs
  | leaf hk h => simp [isInstance, hk] at ht

theorem Obeys.inst_rule {R : Rules} {t : TypeRef} (h : t.Obeys R) (ht : t.isInstance = true) :
    R.inst t.name t.args.length := by
  cases h with
  | hole h => simp [isInstance] at ht
  | inst h hargs => exact h
  | leaf hk h => simp [isInstance, hk] at ht

section Decidable

variable {R : Rules} [Decidable R.hole] [∀ name n, Decidable (R.inst name n)]
  [∀ kind name position param owner, Decidable (R.leaf kind name position param owner)]

mutual
/-- Rules that can be checked node by node can be checked of a reference. -/
def decObeys : (t : TypeRef) → Decidable (t.Obeys R)
  | .absent => decidable_of_iff R.hole ⟨.hole, fun h => by cases h; assumption⟩
  | .node kind name args position param owner =>
    if hk : kind = .inst then
      have := decObeysEach args
      decidable_of_iff (R.inst name args.length ∧ ∀ a ∈ args, a.Obeys R)
        ⟨fun h => hk ▸ .inst h.1 h.2, fun h => by
          subst hk
          exact ⟨h.inst_rule rfl, h.args rfl⟩⟩
    else
      decidable_of_iff (R.leaf kind name position param owner)
        ⟨.leaf hk, fun h => by
          cases h with
          | inst => exact absurd rfl hk
          | leaf _ h => exact h⟩

/-- The same of references in a row. -/
def decObeysEach : (ts : List TypeRef) → Decidable (∀ t ∈ ts, t.Obeys R)
  | [] => .isTrue (by simp)
  | t :: ts =>
    have := decObeys t
    have := decObeysEach ts
    decidable_of_iff (t.Obeys R ∧ ∀ u ∈ ts, u.Obeys R) List.forall_mem_cons.symm
end

instance (t : TypeRef) : Decidable (t.Obeys R) := decObeys t

end Decidable

/-- Weaker rules ask for less. -/
theorem Obeys.imp {R S : Rules} (hinst : ∀ name n, R.inst name n → S.inst name n)
    (hleaf : ∀ kind name position param owner,
      R.leaf kind name position param owner → S.leaf kind name position param owner)
    (hhole : R.hole → S.hole) {t : TypeRef} (h : t.Obeys R) : t.Obeys S := by
  induction h with
  | hole h => exact .hole (hhole h)
  | inst h _ ih => exact .inst (hinst _ _ h) ih
  | leaf hk h => exact .leaf hk (hleaf _ _ _ _ _ h)

theorem Obeys.and {R S : Rules} {t : TypeRef} (h : t.Obeys R) (h' : t.Obeys S) :
    t.Obeys { inst := fun name n => R.inst name n ∧ S.inst name n,
              leaf := fun kind name position param owner =>
                R.leaf kind name position param owner ∧ S.leaf kind name position param owner,
              hole := R.hole ∧ S.hole } := by
  induction h with
  | hole h =>
      cases h' with
      | hole h' => exact .hole ⟨h, h'⟩
  | inst h _ ih =>
      cases h' with
      | inst h' hargs' => exact .inst ⟨h, h'⟩ fun a ha => ih a ha (hargs' a ha)
      | leaf hk _ => exact absurd rfl hk
  | leaf hk h =>
      cases h' with
      | inst _ _ => exact absurd rfl hk
      | leaf _ h' => exact .leaf hk ⟨h, h'⟩

/-- Filling in arguments that obey the rules keeps the rules. -/
theorem Obeys.fillIn {R : Rules} {args : List TypeRef} (hargs : ∀ a ∈ args, a.Obeys R)
    {t : TypeRef} (h : t.Obeys R) : (t.fillIn args).Obeys R := by
  induction h with
  | hole h => exact .hole h
  | @inst name inner position param owner h _ ih =>
      rw [TypeRef.fillIn, if_neg (by decide), if_pos rfl, fillInEach_eq_map]
      refine .inst (by simpa using h) ?_
      intro a ha
      obtain ⟨u, hu, rfl⟩ := List.mem_map.mp ha
      exact ih u hu
  | @leaf kind name inner position param owner hk h =>
      rw [TypeRef.fillIn]
      split
      · split
        · rename_i hin
          have hlt : position.toInt.toNat < args.length := by omega
          rw [List.getD_eq_getElem _ _ hlt]
          exact hargs _ (List.getElem_mem hlt)
        · exact .leaf hk h
      · exact .leaf hk h

end TypeRef

namespace Bindings

/-! ## Looking an argument up -/

theorem get_mem {b : Bindings} {index : Int} {r : TypeRef} (h : b.get index = .ok r) :
    r ∈ b.args := by
  unfold get at h
  split at h
  · cases h
  · split at h
    · cases h
    · have hlt : index.toNat < b.args.length := by omega
      rw [List.getD_eq_getElem _ _ hlt] at h
      cases h
      exact List.getElem_mem hlt

/-- What a parameter is bound to is one of the arguments. -/
theorem lookup_mem {b : Bindings} {t r : TypeRef} (h : b.lookup t = .ok r) : r ∈ b.args := by
  cases t with
  | absent => cases h
  | node kind name args position param owner =>
      rw [lookup] at h
      split at h
      · cases h
      · split at h
        · split at h
          · cases h
          · exact get_mem h
        · split at h
          · exact get_mem h
          · cases h

/-! ## What substitution does to each kind of reference -/

theorem applyEach_ok {b : Bindings} : ∀ {ts rs : List TypeRef}, b.applyEach ts = .ok rs →
    List.Forall₂ (fun t r => b.apply t = .ok r) ts rs
  | [], rs, h => by
      rw [applyEach] at h
      cases h
      exact .nil
  | t :: ts, rs, h => by
      rw [applyEach] at h
      cases ht : b.apply t with
      | error f => rw [ht] at h; cases h
      | ok r =>
          rw [ht] at h
          cases hts : b.applyEach ts with
          | error f => rw [hts] at h; cases h
          | ok rs' =>
              rw [hts] at h
              cases h
              exact .cons ht (applyEach_ok hts)

theorem exists_of_mem_applyEach {b : Bindings} {ts rs : List TypeRef}
    (h : b.applyEach ts = .ok rs) : ∀ r ∈ rs, ∃ t ∈ ts, b.apply t = .ok r := by
  have hall := applyEach_ok h
  clear h
  induction hall with
  | nil => simp
  | @cons t r ts rs ht _ ih =>
      intro r' hr'
      rcases List.mem_cons.mp hr' with rfl | hr'
      · exact ⟨t, List.mem_cons_self .., ht⟩
      · obtain ⟨t', ht', h'⟩ := ih r' hr'
        exact ⟨t', List.mem_cons_of_mem _ ht', h'⟩

theorem apply_parameter (b : Bindings) (name : Text) (args : List TypeRef) (position : Int64)
    (param : ParamKind) (owner : Text) :
    b.apply (.node .parameter name args position param owner)
      = b.lookup (.node .parameter name args position param owner) := by
  rw [apply, if_pos rfl]

theorem apply_inst (b : Bindings) (name : Text) (args : List TypeRef) (position : Int64)
    (param : ParamKind) (owner : Text) :
    b.apply (.node .inst name args position param owner)
      = (b.applyEach args).map fun args' =>
          if TypeRef.anyParameter args then .applied name args'
          else .node .inst name args position param owner := by
  rw [apply, if_neg (by decide), if_pos rfl]
  cases b.applyEach args with
  | error f => rfl
  | ok args' =>
      by_cases h : TypeRef.anyParameter args = true <;> simp [h, Except.map]

theorem apply_other (b : Bindings) {kind : TypeKind} (hp : kind ≠ .parameter) (hi : kind ≠ .inst)
    (name : Text) (args : List TypeRef) (position : Int64) (param : ParamKind) (owner : Text) :
    b.apply (.node kind name args position param owner)
      = .ok (.node kind name args position param owner) := by
  rw [apply, if_neg hp, if_neg hi]

/-- An instance stays an instance of the same definition with as many arguments. -/
theorem apply_inst_ok {b : Bindings} {t r : TypeRef} (ht : t.isInstance = true)
    (h : b.apply t = .ok r) :
    r.isInstance = true ∧ r.name = t.name ∧
      List.Forall₂ (fun a a' => b.apply a = .ok a') t.args r.args ∨ r = t := by
  cases t with
  | absent => simp [TypeRef.isInstance] at ht
  | node kind name args position param owner =>
      have hk : kind = .inst := by simpa [TypeRef.isInstance] using ht
      subst hk
      rw [apply_inst] at h
      cases hargs : b.applyEach args with
      | error f => rw [hargs] at h; cases h
      | ok args' =>
          rw [hargs] at h
          by_cases hany : TypeRef.anyParameter args = true
          · have hr : r = .applied name args' := by simpa [Except.map, hany] using h.symm
            subst hr
            exact Or.inl ⟨rfl, rfl, applyEach_ok hargs⟩
          · right
            simpa [Except.map, hany] using h.symm

theorem apply_keeps_instance {b : Bindings} {t r : TypeRef} (ht : t.isInstance = true)
    (h : b.apply t = .ok r) :
    r.isInstance = true ∧ r.name = t.name ∧ r.args.length = t.args.length := by
  rcases apply_inst_ok ht h with ⟨hi, hn, hargs⟩ | rfl
  · exact ⟨hi, hn, hargs.length_eq.symm⟩
  · exact ⟨ht, rfl, rfl⟩

/-- Substituting arguments that obey the rules keeps the rules. -/
theorem apply_obeys {R : Rules} {b : Bindings} (hb : ∀ a ∈ b.args, a.Obeys R) {t : TypeRef}
    (ht : t.Obeys R) : ∀ {r : TypeRef}, b.apply t = .ok r → r.Obeys R := by
  induction ht with
  | hole h => intro r hr; cases hr
  | @inst name args position param owner h hargs ih =>
      intro r hr
      rw [apply_inst] at hr
      cases heach : b.applyEach args with
      | error f => rw [heach] at hr; cases hr
      | ok args' =>
          rw [heach] at hr
          by_cases hany : TypeRef.anyParameter args = true
          · have hr' : r = .applied name args' := by simpa [Except.map, hany] using hr.symm
            subst hr'
            refine .inst (by rwa [← (applyEach_ok heach).length_eq]) ?_
            intro a' ha'
            obtain ⟨a, ha, haa⟩ := exists_of_mem_applyEach heach a' ha'
            exact ih a ha haa
          · have hr' : r = .node .inst name args position param owner := by
              simpa [Except.map, hany] using hr.symm
            subst hr'
            exact .inst h hargs
  | @leaf kind name args position param owner hk h =>
      intro r hr
      by_cases hp : kind = .parameter
      · subst hp
        rw [apply_parameter] at hr
        exact hb r (lookup_mem hr)
      · rw [apply_other b hp hk] at hr
        cases hr
        exact .leaf hk h

/-- The arguments of a call site obey the rules that its declaring type and its type arguments
obey. -/
theorem ofSite_obeys {R : Rules} {ref : MethodRef} (hdecl : ref.declaring.Obeys R)
    (hargs : ∀ a ∈ ref.typeArgs, a.Obeys R) : ∀ a ∈ (ofSite ref).args, a.Obeys R := by
  unfold ofSite
  split
  · rename_i hinst
    exact List.forall_mem_append.mpr ⟨hdecl.args hinst, hargs⟩
  · exact hargs

end Bindings

/-! ## Reaching in front of the arguments -/

/-- Every position of a parameter fits its encoded width. -/
def Rules.placed : Rules where
  leaf kind _ position _ _ := kind = .parameter → 0 ≤ position.toInt ∧ position.toInt < 65536

theorem TypeRef.reachesBefore_of_placed {t : TypeRef} (h : t.Obeys .placed) :
    t.reachesBefore = false := by
  induction h with
  | hole h => rfl
  | @inst name args position param owner h hargs ih =>
      rw [reachesBefore, if_neg (by decide), if_pos rfl]
      clear hargs h
      induction args with
      | nil => rfl
      | cons a args iha =>
          rw [anyReachesBefore, ih a (List.mem_cons_self ..), Bool.false_or]
          exact iha fun b hb => ih b (List.mem_cons_of_mem a hb)
  | @leaf kind name args position param owner hk h =>
      rw [reachesBefore]
      by_cases hp : kind = .parameter
      · have hpos := (h hp).1
        rw [if_pos hp]
        simp [Int.not_lt.mpr hpos]
      · rw [if_neg hp, if_neg hk]

/-- No instance has more arguments than a list on the wire can hold. -/
def Rules.narrow : Rules where
  inst _ n := n < 4294967296

namespace Bindings

/-- The declaring type has no more arguments than a list on the wire can hold. -/
def Narrow (b : Bindings) : Prop := 0 ≤ b.typeArity.toInt ∧ b.typeArity.toInt < 4294967296

theorem toInt_ofNat_of_lt {n : Nat} (h : n < 4294967296) : (Int64.ofNat n).toInt = n := by
  rw [Int64.toInt_ofNat_of_lt]
  omega

theorem narrow_ofTypeArgs {args : List TypeRef} (h : args.length < 4294967296) :
    (ofTypeArgs args).Narrow := by
  have := toInt_ofNat_of_lt h
  constructor <;> simp only [ofTypeArgs] <;> omega

theorem narrow_ofSite {ref : MethodRef} (h : ref.declaring.Obeys .narrow) :
    (ofSite ref).Narrow := by
  unfold ofSite
  split
  · rename_i hi
    have hlt : ref.declaring.args.length < 4294967296 := h.inst_rule hi
    have := toInt_ofNat_of_lt hlt
    constructor <;> dsimp only <;> omega
  · exact ⟨by simp, by simp⟩

theorem get_ne_outOfRange {b : Bindings} {index : Int} (h : 0 ≤ index) :
    b.get index ≠ .error .outOfRange := by
  unfold get
  split
  · simp
  · rw [if_neg (by omega)]
    simp

theorem lookup_ne_outOfRange {b : Bindings} (hb : b.Narrow) {kind : TypeKind} {name : Text}
    {args : List TypeRef} {position : Int64} {param : ParamKind} {owner : Text}
    (hp : 0 ≤ position.toInt ∧ position.toInt < 65536) :
    b.lookup (.node kind name args position param owner) ≠ .error .outOfRange := by
  obtain ⟨h0, h1⟩ := hb
  rw [lookup]
  split
  · simp
  · split
    · split
      · simp
      · exact get_ne_outOfRange hp.1
    · split
      · refine get_ne_outOfRange ?_
        -- The offset and the position are small, so the sum of the two words does not wrap.
        rw [Int64.toInt_add, Int.bmod_eq_of_le (by omega) (by omega)]
        omega
      · simp

theorem applyEach_ne_outOfRange {b : Bindings} {args : List TypeRef}
    (h : ∀ a ∈ args, b.apply a ≠ .error .outOfRange) :
    b.applyEach args ≠ .error .outOfRange := by
  induction args with
  | nil => simp [applyEach]
  | cons a args ih =>
      obtain ⟨ha, hargs⟩ := List.forall_mem_cons.mp h
      have hrest := ih hargs
      rw [applyEach]
      cases h1 : b.apply a with
      | error f => simpa [h1] using ha
      | ok r =>
          cases h2 : b.applyEach args with
          | error f => simpa [h2] using hrest
          | ok rs => simp

/-- Narrow bindings never reach in front of their arguments. -/
theorem apply_ne_outOfRange {b : Bindings} (hb : b.Narrow) {t : TypeRef} (ht : t.Obeys .placed) :
    b.apply t ≠ .error .outOfRange := by
  induction ht with
  | hole h => simp [apply]
  | @inst name args position param owner h hargs ih =>
      have heach := applyEach_ne_outOfRange ih
      rw [apply_inst]
      cases h1 : b.applyEach args with
      | error f => simpa [h1, Except.map] using heach
      | ok args' => simp [Except.map]
  | @leaf kind name args position param owner hk h =>
      by_cases hp : kind = .parameter
      · subst hp
        rw [apply_parameter]
        exact lookup_ne_outOfRange hb (h rfl)
      · rw [apply_other b hp hk]
        simp

end Bindings

end Monomorph
