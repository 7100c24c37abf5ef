import Mathlib.Algebra.Group.Nat.Defs
import Monomorph.Proofs.Accepted
import Monomorph.Sample

/-!
# Substitution replaces parameters

`Bindings.apply` goes through a reference, gives up at the first parameter without an argument, and
builds only those instances anew in which something changes. Beside it stands what it is for:
`TypeRef.parameters` lists the parameters that occur, and `TypeRef.replace` puts something in the
place of each. With bindings as a call site or a base type supplies them, substitution is
replacement by the bound arguments when every parameter has one, and nothing otherwise
(`Bindings.apply_eq`).

Places are followed through a replacement by `TypeRef.at?`.
-/

namespace Monomorph

theorem ParamKind.type_ne_method : type ≠ method := by decide

namespace TypeRef

/-! ## The parameters of a reference -/

mutual
/-- The parameters that occur in a reference, at any depth of arguments, from left to right. -/
def parameters : TypeRef → List TypeRef
  | .absent => []
  | .node kind name args position param owner =>
    if kind = .parameter then [.node kind name args position param owner]
    else if kind = .inst then parametersOf args
    else []

/-- The parameters that occur in the references. -/
def parametersOf : List TypeRef → List TypeRef
  | [] => []
  | t :: ts => t.parameters ++ parametersOf ts
end

theorem parametersOf_eq_flatMap (ts : List TypeRef) : parametersOf ts = ts.flatMap parameters := by
  induction ts with
  | nil => rfl
  | cons t ts ih => rw [parametersOf, ih, List.flatMap_cons]

theorem parameters_parameter (name : Text) (args : List TypeRef) (position : Int64)
    (param : ParamKind) (owner : Text) :
    parameters (.node .parameter name args position param owner)
      = [.node .parameter name args position param owner] := by
  rw [parameters, if_pos rfl]

theorem parameters_inst (name : Text) (args : List TypeRef) (position : Int64) (param : ParamKind)
    (owner : Text) :
    parameters (.node .inst name args position param owner) = args.flatMap parameters := by
  rw [parameters, if_neg (by decide), if_pos rfl, parametersOf_eq_flatMap]

theorem parameters_other {kind : TypeKind} (hp : kind ≠ .parameter) (hi : kind ≠ .inst)
    (name : Text) (args : List TypeRef) (position : Int64) (param : ParamKind) (owner : Text) :
    parameters (.node kind name args position param owner) = [] := by
  rw [parameters, if_neg hp, if_neg hi]

theorem hasParameter_parameter (name : Text) (args : List TypeRef) (position : Int64)
    (param : ParamKind) (owner : Text) :
    hasParameter (.node .parameter name args position param owner) = true := by
  rw [hasParameter, if_pos rfl]

theorem hasParameter_inst (name : Text) (args : List TypeRef) (position : Int64) (param : ParamKind)
    (owner : Text) :
    hasParameter (.node .inst name args position param owner) = args.any hasParameter := by
  rw [hasParameter, if_neg (by decide), if_pos rfl, anyParameter_eq_any]

theorem hasParameter_other {kind : TypeKind} (hp : kind ≠ .parameter) (hi : kind ≠ .inst)
    (name : Text) (args : List TypeRef) (position : Int64) (param : ParamKind) (owner : Text) :
    hasParameter (.node kind name args position param owner) = false := by
  rw [hasParameter, if_neg hp, if_neg hi]

/-- A rule for parameters holds of each of them that occurs. -/
theorem Obeys.parameters {R : Rules} {t : TypeRef} (h : t.Obeys R) :
    ∀ x ∈ t.parameters, x.Obeys R ∧ x.isParameter = true := by
  induction h with
  | hole h => simp [TypeRef.parameters]
  | @inst name args position param owner _ _ ih =>
      intro x hx
      rw [parameters_inst] at hx
      obtain ⟨a, ha, hx⟩ := List.mem_flatMap.mp hx
      exact ih a ha x hx
  | @leaf kind name args position param owner hk h =>
      intro x hx
      by_cases hp : kind = .parameter
      · subst hp
        rw [parameters_parameter, List.mem_singleton] at hx
        subst hx
        exact ⟨.leaf hk h, by simp [isParameter]⟩
      · rw [parameters_other hp hk] at hx
        cases hx

/-! ## Replacing them -/

mutual
/-- The reference with `f` in the place of every parameter. An instance in which a parameter occurs
is written anew, from its name and its arguments; what holds none stays as it is. -/
def replace (f : TypeRef → TypeRef) : TypeRef → TypeRef
  | .absent => .absent
  | .node kind name args position param owner =>
    if kind = .parameter then f (.node kind name args position param owner)
    else if kind = .inst ∧ anyParameter args = true then .applied name (replaceEach f args)
    else .node kind name args position param owner

/-- The references with `f` in the place of every parameter. -/
def replaceEach (f : TypeRef → TypeRef) : List TypeRef → List TypeRef
  | [] => []
  | t :: ts => t.replace f :: replaceEach f ts
end

theorem replaceEach_eq_map (f : TypeRef → TypeRef) (ts : List TypeRef) :
    replaceEach f ts = ts.map (replace f) := by
  induction ts with
  | nil => rfl
  | cons t ts ih => rw [replaceEach, ih, List.map_cons]

variable {f : TypeRef → TypeRef}

theorem replace_parameter (name : Text) (args : List TypeRef) (position : Int64)
    (param : ParamKind) (owner : Text) :
    replace f (.node .parameter name args position param owner)
      = f (.node .parameter name args position param owner) := by
  rw [replace, if_pos rfl]

theorem replace_inst (name : Text) (args : List TypeRef) (position : Int64) (param : ParamKind)
    (owner : Text) :
    replace f (.node .inst name args position param owner)
      = if anyParameter args = true then .applied name (args.map (replace f))
        else .node .inst name args position param owner := by
  rw [replace, if_neg (by decide), replaceEach_eq_map]
  simp

theorem replace_eq_self {t : TypeRef} (h : t.hasParameter = false) : t.replace f = t := by
  cases t with
  | absent => rfl
  | node kind name args position param owner =>
      by_cases hp : kind = .parameter
      · subst hp
        rw [hasParameter_parameter] at h
        cases h
      · by_cases hi : kind = .inst
        · subst hi
          rw [hasParameter_inst, ← anyParameter_eq_any] at h
          rw [replace_inst, h, if_neg Bool.false_ne_true]
        · rw [replace, if_neg hp, if_neg fun hin => hi hin.1]

/-- Only what stands for the parameters that occur matters. -/
theorem replace_congr {g : TypeRef → TypeRef} (t : TypeRef) :
    (∀ x ∈ t.parameters, f x = g x) → t.replace f = t.replace g := by
  induction t using induction with
  | absent => exact fun _ => rfl
  | node kind name args position param owner ih =>
      intro h
      by_cases hp : kind = .parameter
      · subst hp
        rw [parameters_parameter, List.forall_mem_singleton] at h
        rw [replace_parameter, replace_parameter, h]
      by_cases hi : kind = .inst
      · subst hi
        rw [parameters_inst, List.forall_mem_flatMap] at h
        have hargs : args.map (replace f) = args.map (replace g) :=
          List.map_congr_left fun a ha => ih a ha (h a ha)
        rw [replace_inst, replace_inst, hargs]
      · have hclosed := hasParameter_other hp hi name args position param owner
        rw [replace_eq_self hclosed, replace_eq_self hclosed]

/-- What replaces a parameter brings the parameters of the result. -/
theorem hasParameter_replace (t : TypeRef) :
    (t.replace f).hasParameter = true ↔ ∃ x ∈ t.parameters, (f x).hasParameter = true := by
  induction t using induction with
  | absent => simp [replace, hasParameter, parameters]
  | node kind name args position param owner ih =>
      by_cases hp : kind = .parameter
      · subst hp
        rw [replace_parameter, parameters_parameter]
        simp
      by_cases hi : kind = .inst
      · subst hi
        have hparts : (∃ x ∈ args.flatMap parameters, (f x).hasParameter = true) ↔
            ∃ a ∈ args, (a.replace f).hasParameter = true := by
          constructor
          · rintro ⟨x, hx, hfx⟩
            obtain ⟨a, ha, hx⟩ := List.mem_flatMap.mp hx
            exact ⟨a, ha, (ih a ha).mpr ⟨x, hx, hfx⟩⟩
          · rintro ⟨a, ha, hreplaced⟩
            obtain ⟨x, hx, hfx⟩ := (ih a ha).mp hreplaced
            exact ⟨x, List.mem_flatMap.mpr ⟨a, ha, hx⟩, hfx⟩
        rw [parameters_inst, hparts]
        cases hany : anyParameter args with
        | true =>
            rw [replace_inst, if_pos hany, applied, hasParameter_inst, List.any_map]
            simp [List.any_eq_true]
        | false =>
            have hnone : ∀ a ∈ args, a.hasParameter = false := by
              simpa [anyParameter_eq_any] using hany
            rw [replace_inst, if_neg (by simp [hany]), hasParameter_inst, ← anyParameter_eq_any,
              hany]
            refine ⟨fun h => absurd h Bool.false_ne_true, ?_⟩
            rintro ⟨a, ha, hreplaced⟩
            rw [replace_eq_self (hnone a ha), hnone a ha] at hreplaced
            cases hreplaced
      · rw [replace_eq_self (hasParameter_other hp hi ..), parameters_other hp hi,
          hasParameter_other hp hi]
        simp

/-! ## Places -/

/-- What stands at the end of a path of argument indices. -/
def at? : List Nat → TypeRef → Option TypeRef
  | [], t => some t
  | i :: path, t => if t.isInstance then t.args[i]?.bind (at? path) else none

/-- Replacing keeps every place: what stood there stands there, with its own parameters replaced. -/
theorem at?_replace (path : List Nat) : ∀ {t u : TypeRef}, t.at? path = some u →
    (t.replace f).at? path = some (u.replace f) := by
  induction path with
  | nil =>
      intro t u h
      cases h
      rfl
  | cons i path ih =>
      intro t u h
      rw [at?] at h
      split at h
      · rename_i hinst
        obtain ⟨a, ha, hu⟩ := Option.bind_eq_some_iff.mp h
        cases t with
        | absent => cases hinst
        | node kind name args position param owner =>
            have hk : kind = .inst := by simpa [isInstance] using hinst
            subst hk
            have ha' : args[i]? = some a := ha
            rw [replace_inst]
            split
            · rw [at?, if_pos (by simp [isInstance, applied]), applied, TypeRef.args,
                List.getElem?_map, ha']
              exact ih hu
            -- Nothing in the instance is replaced, and so nothing in the argument is.
            · rename_i hany
              have hnone : a.hasParameter = false := by
                simp only [anyParameter_eq_any, List.any_eq_true, not_exists, not_and] at hany
                simpa using hany a (List.mem_of_getElem? ha')
              rw [at?, if_pos hinst, ha, Option.bind_some]
              have hsame := ih hu
              rwa [replace_eq_self hnone] at hsame
      · cases h

/-- An instance stays an instance of the same definition with as many arguments. -/
theorem replace_instance {t : TypeRef} (h : t.isInstance = true) :
    (t.replace f).isInstance = true ∧ (t.replace f).name = t.name ∧
      (t.replace f).args.length = t.args.length := by
  cases t with
  | absent => cases h
  | node kind name args position param owner =>
      have hk : kind = .inst := by simpa [isInstance] using h
      subst hk
      rw [replace_inst]
      split
      · exact ⟨rfl, rfl, List.length_map ..⟩
      · exact ⟨rfl, rfl, rfl⟩

theorem replace_of_isParameter {t : TypeRef} (h : t.isParameter = true) : t.replace f = f t := by
  cases t with
  | absent => cases h
  | node kind name args position param owner =>
      have hk : kind = .parameter := by simpa [isParameter] using h
      subst hk
      exact replace_parameter ..

/-! ## The fields of a parameter -/

/-- What declares the parameter. -/
def paramKind : TypeRef → ParamKind
  | .absent => ⟨0⟩
  | .node _ _ _ _ param _ => param

/-- Where the parameter stands among those of its owner. -/
def position : TypeRef → Int
  | .absent => 0
  | .node _ _ _ position _ _ => position.toInt

end TypeRef

/-- No place in the reference is empty, and the positions of its parameters fit their encoded
width. -/
def Rules.whole : Rules where
  leaf kind _ position _ _ := kind = .parameter → TypeRef.fitsPosition position = true
  hole := False

instance : Decidable Rules.whole.hole := inferInstanceAs (Decidable False)

instance (name : Text) (n : Nat) : Decidable (Rules.whole.inst name n) :=
  inferInstanceAs (Decidable True)

instance (kind : TypeKind) (name : Text) (position : Int64) (param : ParamKind) (owner : Text) :
    Decidable (Rules.whole.leaf kind name position param owner) :=
  inferInstanceAs (Decidable (kind = .parameter → TypeRef.fitsPosition position = true))

namespace Bindings

/-- The bindings that a call site or the arguments of a base type supply. -/
def Supplied (b : Bindings) : Prop := (∃ ref, b = ofSite ref) ∨ ∃ args, b = ofTypeArgs args

/-- The parameter has an argument: a type parameter among those of the declaring type, a method
parameter behind them. -/
def Binds (b : Bindings) (x : TypeRef) : Prop :=
  x.paramKind = .type ∧ x.position < b.typeArity.toInt ∨
    x.paramKind = .method ∧ b.typeArity.toInt + x.position < b.args.length

instance (b : Bindings) (x : TypeRef) : Decidable (b.Binds x) :=
  inferInstanceAs (Decidable (_ ∧ _ ∨ _ ∧ _))

/-- The argument that stands for a parameter. -/
def argument (b : Bindings) (x : TypeRef) : TypeRef :=
  b.args.getD (if x.paramKind = .type then x.position else b.typeArity.toInt + x.position).toNat
    .absent

/-- The arguments of the declaring type are the first of the row, and the row is no longer than a
row of references in memory can be. -/
structure Framed (b : Bindings) : Prop where
  nonneg : 0 ≤ b.typeArity.toInt
  le : b.typeArity.toInt ≤ b.args.length
  short : b.args.length < 2 ^ 60

theorem Supplied.framed {b : Bindings} (h : b.Supplied) (hshort : b.args.length < 2 ^ 60) :
    b.Framed := by
  have hword : ∀ n : Nat, n < 2 ^ 60 → (Int64.ofNat n).toInt = n := by
    intro n hn
    exact Int64.toInt_ofNat_of_lt (by omega)
  rcases h with ⟨ref, rfl⟩ | ⟨args, rfl⟩
  · unfold ofSite at hshort ⊢
    split at hshort
    · rename_i hinst
      rw [if_pos hinst]
      dsimp only at hshort
      rw [List.length_append] at hshort
      have harity := hword ref.declaring.args.length (by omega)
      refine ⟨?_, ?_, ?_⟩
      · dsimp only
        omega
      · dsimp only
        rw [List.length_append]
        omega
      · rwa [List.length_append]
    · rename_i hinst
      rw [if_neg hinst]
      exact ⟨by simp, by simp, hshort⟩
  · have harity := hword args.length hshort
    refine ⟨?_, ?_, hshort⟩
    · dsimp only [ofTypeArgs]
      omega
    · dsimp only [ofTypeArgs]
      omega

/-! ## Looking a parameter up -/

theorem get_eq_ok {b : Bindings} {i : Int} (h0 : 0 ≤ i) (hi : i < b.args.length) :
    b.get i = .ok (b.args.getD i.toNat .absent) := by
  rw [get, if_neg (by omega), if_neg (by omega)]

theorem get_eq_unbound {b : Bindings} {i : Int} (hi : b.args.length ≤ i) :
    b.get i = .error .unbound := if_pos hi

/-- Looking a parameter up gives its argument, or nothing when it has none. -/
theorem lookup_eq {b : Bindings} (hb : b.Framed) {name : Text} {args : List TypeRef}
    {position : Int64} {param : ParamKind} {owner : Text}
    (hp : TypeRef.fitsPosition position = true) :
    let x := TypeRef.node .parameter name args position param owner
    b.lookup x = if b.Binds x then .ok (b.argument x) else .error .unbound := by
  intro x
  obtain ⟨h0, hle, hshort⟩ := hb
  have hpos : 0 ≤ position.toInt ∧ position.toInt < 65536 := by
    simpa [TypeRef.fitsPosition] using hp
  have hneg : ¬ position < 0 := by
    rw [Int64.lt_iff_toInt_lt]
    simpa using hpos.1
  rw [lookup, if_neg (by simp [hneg])]
  by_cases ht : param = .type
  · subst ht
    rw [if_pos rfl]
    by_cases hlt : position.toInt < b.typeArity.toInt
    · have hbinds : b.Binds x := Or.inl ⟨rfl, hlt⟩
      have hle' : ¬ b.typeArity ≤ position := by
        rw [Int64.le_iff_toInt_le]
        omega
      rw [if_neg hle', if_pos hbinds, get_eq_ok hpos.1 (by omega), argument, if_pos (by rfl)]
      rfl
    · have hbinds : ¬ b.Binds x := by
        rintro (⟨-, h⟩ | ⟨h, -⟩)
        · exact hlt h
        · exact ParamKind.type_ne_method h
      rw [if_pos (Int64.le_iff_toInt_le.mpr (by omega)), if_neg hbinds]
  by_cases hm : param = .method
  · subst hm
    -- The offset and the position are small, so the sum of the two words does not wrap.
    have hsum : (b.typeArity + position).toInt = b.typeArity.toInt + position.toInt := by
      rw [Int64.toInt_add, Int.bmod_eq_of_le (by omega) (by omega)]
    rw [if_neg ht, if_pos rfl]
    by_cases hlt : b.typeArity.toInt + position.toInt < b.args.length
    · have hbinds : b.Binds x := Or.inr ⟨rfl, hlt⟩
      rw [if_pos hbinds, get_eq_ok (by omega) (by omega), hsum, argument, if_neg (by exact ht)]
      rfl
    · have hbinds : ¬ b.Binds x := by
        rintro (⟨h, -⟩ | ⟨-, h⟩)
        · exact ht h
        · exact hlt h
      rw [if_neg hbinds, get_eq_unbound (by omega)]
  · have hbinds : ¬ b.Binds x := by
      rintro (⟨h, -⟩ | ⟨h, -⟩)
      · exact ht h
      · exact hm h
    rw [if_neg ht, if_neg hm, if_neg hbinds]

/-! ## Substitution is replacement -/

theorem applyEach_eq {b : Bindings} {P : TypeRef → Prop} [DecidablePred P]
    {g : TypeRef → TypeRef} {ts : List TypeRef}
    (h : ∀ t ∈ ts, b.apply t = if P t then .ok (g t) else .error .unbound) :
    b.applyEach ts = if ∀ t ∈ ts, P t then .ok (ts.map g) else .error .unbound := by
  induction ts with
  | nil => simp [applyEach]
  | cons t ts ih =>
      obtain ⟨ht, hts⟩ := List.forall_mem_cons.mp h
      rw [applyEach, ht, ih hts]
      by_cases hP : P t
      · by_cases hPs : ∀ u ∈ ts, P u
        · rw [if_pos hP, if_pos hPs, if_pos (List.forall_mem_cons.mpr ⟨hP, hPs⟩)]
          rfl
        · rw [if_pos hP, if_neg hPs, if_neg fun hall => hPs (List.forall_mem_cons.mp hall).2]
      · rw [if_neg hP, if_neg fun hall => hP (List.forall_mem_cons.mp hall).1]

/-- Substitution replaces every parameter by its argument, or gives nothing. -/
theorem apply_eq {b : Bindings} (hb : b.Framed) {t : TypeRef} (ht : t.Obeys .whole) :
    b.apply t
      = if ∀ x ∈ t.parameters, b.Binds x then .ok (t.replace b.argument)
        else .error .unbound := by
  induction ht with
  | hole h => exact h.elim
  | @inst name args position param owner _ _ ih =>
      have hparts : (∀ x ∈ args.flatMap TypeRef.parameters, b.Binds x) ↔
          ∀ a ∈ args, ∀ x ∈ a.parameters, b.Binds x := List.forall_mem_flatMap
      rw [apply_inst, applyEach_eq ih, TypeRef.parameters_inst, TypeRef.replace_inst]
      simp only [hparts]
      by_cases hall : ∀ a ∈ args, ∀ x ∈ a.parameters, b.Binds x
      · rw [if_pos hall, if_pos hall]
        rfl
      · rw [if_neg hall, if_neg hall]
        rfl
  | @leaf kind name args position param owner hk h =>
      by_cases hp : kind = .parameter
      · subst hp
        rw [apply_parameter, lookup_eq hb (h rfl), TypeRef.parameters_parameter,
          TypeRef.replace_parameter]
        simp only [List.forall_mem_singleton]
      · rw [apply_other b hp hk, TypeRef.parameters_other hp hk,
          TypeRef.replace_eq_self (TypeRef.hasParameter_other hp hk ..)]
        simp

/-- A reference without parameters is its own substitution, whatever the bindings. -/
theorem apply_closed (b : Bindings) {R : Rules} (hR : ¬ R.hole) {t : TypeRef} (ht : t.Obeys R)
    (hc : t.hasParameter = false) : b.apply t = .ok t := by
  induction ht with
  | hole h => exact absurd h hR
  | @inst name args position param owner _ _ ih =>
      rw [TypeRef.hasParameter_inst] at hc
      have hnone : ∀ a ∈ args, a.hasParameter = false := by simpa using hc
      have heach := applyEach_eq (b := b) (P := fun _ => True) (g := id) fun a ha => by
        rw [ih a ha (hnone a ha), if_pos trivial, id]
      rw [apply_inst, heach, if_pos fun _ _ => trivial, TypeRef.anyParameter_eq_any, hc]
      rfl
  | @leaf kind name args position param owner hk h =>
      by_cases hp : kind = .parameter
      · subst hp
        rw [TypeRef.hasParameter_parameter] at hc
        cases hc
      · exact apply_other b hp hk ..

/-- **Substitution is exact and all-or-nothing.** Take bindings that a call site or the arguments of
a base type supply, in a row that memory can hold, and a reference without empty places whose
parameter positions fit their encoded width.

* When every parameter that occurs, at any depth, has an argument, substitution succeeds; else it
  finds a parameter unbound.
* A result is the reference with every parameter replaced by its argument. Followed place by place:
  where a parameter stood, its argument stands; an instance is still an instance of the same
  definition with as many arguments; and what holds no parameter stands as it did.
* The result holds a parameter exactly if the argument of one that occurs does.
* A reference without parameters is its own result, and so keeps its key, whatever the bindings. -/
theorem apply_exact (b : Bindings) (hb : b.Supplied) (hshort : b.args.length < 2 ^ 60)
    (t : TypeRef) (ht : t.Obeys .whole) :
    ((∃ r, b.apply t = .ok r) ↔ ∀ x ∈ t.parameters, b.Binds x) ∧
      ((∃ x ∈ t.parameters, ¬ b.Binds x) → b.apply t = .error .unbound) ∧
      (∀ r, b.apply t = .ok r →
        r = t.replace b.argument ∧
        (∀ path u, t.at? path = some u → ∃ v, r.at? path = some v ∧
          (u.isParameter = true → v = b.argument u) ∧
          (u.isInstance = true →
            v.isInstance = true ∧ v.name = u.name ∧ v.args.length = u.args.length) ∧
          (u.hasParameter = false → v = u)) ∧
        (r.hasParameter = true ↔ ∃ x ∈ t.parameters, (b.argument x).hasParameter = true)) ∧
      (t.hasParameter = false → ∀ b' : Bindings, b'.apply t = .ok t) := by
  have happly := apply_eq (hb.framed hshort) ht
  refine ⟨?_, ?_, ?_, ?_⟩
  · rw [happly]
    constructor
    · rintro ⟨r, hr⟩
      by_contra hall
      rw [if_neg hall] at hr
      cases hr
    · intro hall
      exact ⟨_, if_pos hall⟩
  · rintro ⟨x, hx, hunbound⟩
    rw [happly, if_neg fun hall => hunbound (hall x hx)]
  · intro r hr
    rw [happly] at hr
    split at hr
    · cases hr
      refine ⟨rfl, ?_, TypeRef.hasParameter_replace t⟩
      intro path u hu
      refine ⟨_, TypeRef.at?_replace path hu, ?_, ?_, ?_⟩
      · exact TypeRef.replace_of_isParameter
      · exact TypeRef.replace_instance
      · exact TypeRef.replace_eq_self
    · cases hr
  · intro hc b'
    exact apply_closed b' (R := .whole) id ht hc

end Bindings

namespace Sample

/-- A call of `Container<Foo>.Method<Bar>`. -/
def methodCall : MethodRef :=
  callTo (.applied "App.Container`1" [foo]) "Method" 1 false [] [bar]

/-- `Pair<Box<T>, U>` as it stands in the body of that method. -/
def boxPair : TypeRef :=
  .applied "App.Pair`2"
    [.applied "App.Box`1" [.typeParam "T" 0 "App.Container`1"],
      .methodParam "U" 0 "App.Container`1::Method"]

end Sample

open Sample in
/-- The type parameter takes the first argument of the row and the method parameter the second; a
second type parameter would not reach over to it. -/
theorem Bindings.apply_exact_pair :
    (ofSite methodCall).Supplied ∧ (ofSite methodCall).args.length < 2 ^ 60 ∧
      boxPair.Obeys .whole ∧ (TypeRef.typeParam "V" 1 "App.Container`1").Obeys .whole ∧
      ∃ r, (ofSite methodCall).apply boxPair = .ok r ∧ r.at? [0, 0] = some foo ∧
        r.at? [1] = some bar ∧ r.hasParameter = false ∧
        r.fullName = ("App.Pair`2<App.Box`1<App.Foo>,App.Bar>" : Text) ∧
        (ofSite methodCall).apply (.typeParam "V" 1 "App.Container`1") = .error .unbound := by
  have hsupplied : (ofSite methodCall).Supplied := Or.inl ⟨methodCall, rfl⟩
  have hshort : (ofSite methodCall).args.length < 2 ^ 60 := by decide
  have hpair : boxPair.Obeys .whole := by decide
  have hsecond : (TypeRef.typeParam "V" 1 "App.Container`1").Obeys .whole := by decide
  obtain ⟨hbound, -, hresult, -⟩ := apply_exact _ hsupplied hshort boxPair hpair
  obtain ⟨r, hr⟩ := hbound.mpr (by decide)
  obtain ⟨hreplaced, hplaces, hopen⟩ := hresult r hr
  obtain ⟨v, hv, htype, -⟩ := hplaces [0, 0] _ rfl
  obtain ⟨w, hw, hmethod, -⟩ := hplaces [1] _ rfl
  obtain ⟨-, hunbound, -⟩ := apply_exact _ hsupplied hshort _ hsecond
  refine ⟨hsupplied, hshort, hpair, hsecond, r, hr, ?_, ?_, ?_, ?_, hunbound (by decide)⟩
  · rw [hv, htype rfl]
    rfl
  · rw [hw, hmethod rfl]
    rfl
  · rw [← Bool.not_eq_true, hopen]
    decide
  · rw [hreplaced]
    rfl

end Monomorph
