import Mathlib.Data.List.Basic
import Monomorph.Proofs.Substitution

/-!
# Keys name trees

Walks and seeds tell references apart by `TypeRef.key`, a text. When no name or owner holds one of
the bytes that structure a key, and no name of a declared type starts like a parameter, the key can
be read back: two references with one key are one tree, where `TypeRef.tree` blanks the fields that
their kinds do not use. Substitution, concreteness and full names only see the tree, so they agree
on references with one key.
-/

namespace Monomorph

namespace Text

/-- The bytes `<`, `>` and comma, which structure a key. -/
def IsMark (b : UInt8) : Prop := b = 60 ∨ b = 62 ∨ b = 44

/-- No byte of the text structures a key. -/
def Plain (t : Text) : Prop := ∀ b ∈ t, ¬ IsMark b

/-- Two texts agree up to the first byte of a class if what stands in front of it lies outside the
class. -/
theorem append_inj_of_stop {P : UInt8 → Prop} (l₁ l₂ : Text) {x₁ x₂ : Text} (h₁ : ∀ b ∈ l₁, ¬ P b)
    (h₂ : ∀ b ∈ l₂, ¬ P b) (hx₁ : ∀ b ∈ x₁.head?, P b) (hx₂ : ∀ b ∈ x₂.head?, P b)
    (h : l₁ ++ x₁ = l₂ ++ x₂) : l₁ = l₂ ∧ x₁ = x₂ := by
  induction l₁ generalizing l₂ with
  | nil =>
      cases l₂ with
      | nil => exact ⟨rfl, h⟩
      | cons b l₂ =>
          rw [List.nil_append] at h
          subst h
          exact absurd (hx₁ b rfl) (h₂ b (List.mem_cons_self ..))
  | cons b l₁ ih =>
      cases l₂ with
      | nil =>
          rw [List.nil_append] at h
          subst h
          exact absurd (hx₂ b rfl) (h₁ b (List.mem_cons_self ..))
      | cons c l₂ =>
          rw [List.cons_append, List.cons_append, List.cons.injEq] at h
          obtain ⟨rfl, h⟩ := h
          obtain ⟨rfl, hx⟩ := ih l₂ (fun d hd => h₁ d (List.mem_cons_of_mem b hd))
            (fun d hd => h₂ d (List.mem_cons_of_mem b hd)) h
          exact ⟨rfl, hx⟩

/-! ## Digits -/

theorem ofString_inj {s t : String} (h : ofString s = ofString t) : s = t := by
  apply String.toByteArray_inj.mp
  apply ByteArray.ext
  exact Array.toList_inj.mp h

theorem ofNat_inj {m n : Nat} (h : ofNat m = ofNat n) : m = n := by
  have hrepr : Nat.repr m = Nat.repr n := ofString_inj h
  have hdigits : Nat.toDigits 10 m = Nat.toDigits 10 n := String.ofList_injective hrepr
  have hread : ∀ k, Nat.ofDigitChars 10 (Nat.toDigits 10 k) 0 = k := fun k =>
    Nat.ofDigitChars_toDigits (by decide) (by decide)
  rw [← hread m, hdigits, hread n]

theorem mem_ofNat {n : Nat} {b : UInt8} (h : b ∈ ofNat n) : 48 ≤ b.toNat ∧ b.toNat ≤ 57 := by
  have hbytes : ofNat n = (Nat.toDigits 10 n).flatMap String.utf8EncodeChar := by
    simp [ofNat, ofString, Nat.repr, List.utf8Encode]
  rw [hbytes, List.mem_flatMap] at h
  obtain ⟨c, hc, hb⟩ := h
  have hdigit := Nat.isDigit_of_mem_toDigits (by decide) (by decide) hc
  simp only [Char.isDigit, Bool.and_eq_true, decide_eq_true_eq] at hdigit
  have h48 : 48 ≤ c.val.toNat := UInt32.le_iff_toNat_le.mp hdigit.1
  have h57 : c.val.toNat ≤ 57 := UInt32.le_iff_toNat_le.mp hdigit.2
  have hchar : String.utf8EncodeChar c = [UInt8.ofNat c.val.toNat] := if_pos (by omega)
  rw [hchar, List.mem_singleton] at hb
  rw [hb, UInt8.toNat_ofNat']
  omega

end Text

namespace TypeRef

/-! ## The tree of a reference -/

mutual
/-- The reference with the fields blanked that its kind does not use. -/
def tree : TypeRef → TypeRef
  | .absent => .absent
  | .node kind name args position param owner =>
    if kind = .parameter then .node kind [] [] position param owner
    else if kind = .inst then .applied name (treeEach args)
    else .node kind name [] 0 ⟨0⟩ []

/-- The trees of the references, in order. -/
def treeEach : List TypeRef → List TypeRef
  | [] => []
  | t :: ts => t.tree :: treeEach ts
end

theorem treeEach_eq_map (ts : List TypeRef) : treeEach ts = ts.map tree := by
  induction ts with
  | nil => rfl
  | cons t ts ih => simp [treeEach, ih]

theorem tree_inst (name : Text) (args : List TypeRef) (position : Int64) (param : ParamKind)
    (owner : Text) :
    tree (.node .inst name args position param owner) = .applied name (args.map tree) := by
  rw [tree, if_neg (by decide), if_pos rfl, treeEach_eq_map]

theorem tree_parameter (name : Text) (args : List TypeRef) (position : Int64) (param : ParamKind)
    (owner : Text) :
    tree (.node .parameter name args position param owner)
      = .node .parameter [] [] position param owner := by
  rw [tree, if_pos rfl]

theorem tree_other {kind : TypeKind} (hp : kind ≠ .parameter) (hi : kind ≠ .inst) (name : Text)
    (args : List TypeRef) (position : Int64) (param : ParamKind) (owner : Text) :
    tree (.node kind name args position param owner) = .node kind name [] 0 ⟨0⟩ [] := by
  rw [tree, if_neg hp, if_neg hi]

/-! ## What sees only the tree -/

theorem tree_tree (t : TypeRef) : t.tree.tree = t.tree := by
  induction t using induction with
  | absent => rfl
  | node kind name args position param owner ih =>
      by_cases hp : kind = .parameter
      · subst hp
        rw [tree_parameter, tree_parameter]
      · by_cases hi : kind = .inst
        · subst hi
          have hargs : (args.map tree).map tree = args.map tree := by
            rw [List.map_map]
            exact List.map_congr_left ih
          rw [tree_inst]
          exact (tree_inst ..).trans (congrArg (applied name) hargs)
        · rw [tree_other hp hi, tree_other hp hi]

theorem anyParameter_map {f : TypeRef → TypeRef} : ∀ {ts : List TypeRef},
    (∀ t ∈ ts, (f t).hasParameter = t.hasParameter) → anyParameter (ts.map f) = anyParameter ts
  | [], _ => rfl
  | t :: ts, h => by
      rw [List.map_cons, anyParameter, anyParameter, h t (List.mem_cons_self ..),
        anyParameter_map fun u hu => h u (List.mem_cons_of_mem t hu)]

theorem hasParameter_tree (t : TypeRef) : t.tree.hasParameter = t.hasParameter := by
  induction t using induction with
  | absent => rfl
  | node kind name args position param owner ih =>
      by_cases hp : kind = .parameter
      · subst hp
        rw [tree_parameter, hasParameter, hasParameter, if_pos rfl, if_pos rfl]
      · by_cases hi : kind = .inst
        · subst hi
          rw [tree_inst, applied, hasParameter, hasParameter, if_neg (by decide), if_pos rfl,
            if_neg (by decide), if_pos rfl]
          exact anyParameter_map ih
        · rw [tree_other hp hi, hasParameter, hasParameter, if_neg hp, if_neg hi, if_neg hp,
            if_neg hi]

/-- References with one tree are concrete together. -/
theorem isConcrete_eq_of_tree_eq {t o : TypeRef} (h : t.tree = o.tree) :
    t.isConcrete = o.isConcrete := by
  have htree : ∀ u : TypeRef, u.tree.isConcrete = u.isConcrete := by
    intro u
    have hparam := hasParameter_tree u
    cases u with
    | absent => rfl
    | node kind name args position param owner =>
        by_cases hp : kind = .parameter
        · subst hp
          rw [tree_parameter] at hparam ⊢
          rw [isConcrete, isConcrete, hparam]
        · by_cases hi : kind = .inst
          · subst hi
            rw [tree_inst] at hparam ⊢
            rw [applied, isConcrete, isConcrete, ← applied, hparam]
          · rw [tree_other hp hi] at hparam ⊢
            rw [isConcrete, isConcrete, hparam]
  rw [← htree t, h, htree o]

/-! ## Reading a key back -/

theorem key_inst (name : Text) (args : List TypeRef) (position : Int64) (param : ParamKind)
    (owner : Text) :
    key (.node .inst name args position param owner)
      = name ++ 60 :: (Text.join [44] (args.map key) ++ [62]) := by
  have hlt : Text.ofString "<" = [60] := by decide
  have hgt : Text.ofString ">" = [62] := by decide
  have hcomma : Text.ofString "," = [44] := by decide
  have hkeys : args.map (render true) = args.map key := rfl
  rw [key, render, if_neg (by decide), if_pos rfl, renderEach_eq_map, hlt, hgt, hcomma, hkeys]
  simp

theorem key_tree (t : TypeRef) : t.tree.key = t.key := by
  induction t using induction with
  | absent => rfl
  | node kind name args position param owner ih =>
      by_cases hp : kind = .parameter
      · subst hp
        rw [tree_parameter, key, key, render, render, if_pos rfl, if_pos rfl]
        rfl
      · by_cases hi : kind = .inst
        · subst hi
          have hargs : (args.map tree).map key = args.map key := by
            rw [List.map_map]
            exact List.map_congr_left ih
          rw [tree_inst, applied, key_inst, key_inst, hargs]
        · rw [tree_other hp hi, key, key, render, render, if_neg hp, if_neg hi, if_neg hp,
            if_neg hi]

/-- Without parameters the full name is the key. -/
theorem fullName_eq_key (t : TypeRef) (h : t.hasParameter = false) : t.fullName = t.key := by
  induction t using induction with
  | absent => rfl
  | node kind name args position param owner ih =>
      by_cases hp : kind = .parameter
      · rw [hasParameter, if_pos hp] at h
        cases h
      · rw [fullName, key, render, render, if_neg hp, if_neg hp]
        by_cases hi : kind = .inst
        · rw [hasParameter, if_neg hp, if_pos hi, anyParameter_eq_any, List.any_eq_false] at h
          have hargs : args.map (render false) = args.map (render true) :=
            List.map_congr_left fun a ha => ih a ha (by simpa using h a ha)
          rw [if_pos hi, if_pos hi, renderEach_eq_map, renderEach_eq_map, hargs]
        · rw [if_neg hi, if_neg hi]

theorem fullName_eq_key_of_isConcrete {t : TypeRef} (h : t.isConcrete = true) :
    t.fullName = t.key := by
  refine fullName_eq_key t ?_
  cases t with
  | absent => rfl
  | node kind name args position param owner =>
      rw [isConcrete, Bool.and_eq_true] at h
      simpa using h.2

/-- Concrete references with one tree have one full name. -/
theorem fullName_eq_of_tree_eq {t o : TypeRef} (h : t.tree = o.tree) (ht : t.isConcrete = true) :
    t.fullName = o.fullName := by
  have ho : o.isConcrete = true := by rw [← isConcrete_eq_of_tree_eq h, ht]
  rw [fullName_eq_key_of_isConcrete ht, fullName_eq_key_of_isConcrete ho, ← key_tree t, h,
    key_tree o]

/-- What the tree of a reference tells: whether it is an instance, what definition it names, and the
name and the trees of the arguments of an instance. -/
theorem shape_eq_of_tree_eq {t o : TypeRef} (h : t.tree = o.tree) :
    t.isInstance = o.isInstance ∧ t.definitionName = o.definitionName ∧
      (t.isInstance = true → t.name = o.name ∧ t.args.map tree = o.args.map tree) := by
  have hshape : ∀ u : TypeRef, u.tree.isInstance = u.isInstance ∧
      u.tree.definitionName = u.definitionName ∧
      (u.isInstance = true → u.tree.name = u.name ∧ u.tree.args = u.args.map tree) := by
    intro u
    cases u with
    | absent => exact ⟨rfl, rfl, nofun⟩
    | node kind name args position param owner =>
        by_cases hp : kind = .parameter
        · subst hp
          rw [tree_parameter]
          exact ⟨rfl, rfl, nofun⟩
        · by_cases hi : kind = .inst
          · subst hi
            rw [tree_inst]
            exact ⟨rfl, rfl, fun _ => ⟨rfl, rfl⟩⟩
          · rw [tree_other hp hi]
            refine ⟨rfl, rfl, ?_⟩
            intro hinst
            exact absurd (of_decide_eq_true hinst) hi
  obtain ⟨hinst, hname, hargs⟩ := hshape t
  obtain ⟨hinst', hname', hargs'⟩ := hshape o
  have hsame : t.isInstance = o.isInstance := by rw [← hinst, h, hinst']
  refine ⟨hsame, by rw [← hname, h, hname'], ?_⟩
  intro ht
  obtain ⟨hn, ha⟩ := hargs ht
  obtain ⟨hn', ha'⟩ := hargs' (hsame ▸ ht)
  rw [← hn, ← ha, h]
  exact ⟨hn', ha'⟩

/-- What a key starts with, before its arguments. -/
def stem : TypeRef → Text
  | .absent => []
  | .node kind name _ position param owner =>
    if kind = .parameter then
      (if param = .method then [33, 33] else [33]) ++ Text.ofInt position.toInt ++ 64 :: owner
    else name

theorem key_leaf {kind : TypeKind} (hk : kind ≠ .inst) (name : Text) (args : List TypeRef)
    (position : Int64) (param : ParamKind) (owner : Text) :
    key (.node kind name args position param owner)
      = stem (.node kind name args position param owner) := by
  have hone : Text.ofString "!" = [33] := by decide
  have htwo : Text.ofString "!!" = [33, 33] := by decide
  have hat : Text.ofString "@" = [64] := by decide
  rw [key, render, stem]
  by_cases hp : kind = .parameter
  · rw [if_pos hp, if_pos hp, if_pos rfl, hat]
    by_cases hm : param = .method
    · rw [if_pos hm, if_pos hm, htwo]
      simp
    · rw [if_neg hm, if_neg hm, hone]
      simp
  · rw [if_neg hp, if_neg hp, if_neg hk]

end TypeRef

/-- The rules under which keys can be read back: known kinds, arguments for every instance, names
and owners without the bytes that structure a key, and no declared type whose name starts like a
parameter. Where places may be empty, no declared type has the empty name, because the key of an
empty place starts with a mark. -/
def Rules.readable (holes : Prop) : Rules where
  inst name n := Text.Plain name ∧ name.head? ≠ some 33 ∧ (holes → name ≠ []) ∧ n ≠ 0
  leaf kind name position param owner :=
    kind = .definition ∧ Text.Plain name ∧ name.head? ≠ some 33 ∧ (holes → name ≠ []) ∨
      kind = .parameter ∧ (param = .type ∨ param = .method) ∧ 0 ≤ position.toInt ∧
        Text.Plain owner
  hole := holes

namespace TypeRef

/-- What stands behind the marks of a parameter's key. -/
theorem stem_parameter (name : Text) (args : List TypeRef) {position : Int64} {n : Nat}
    (hn : position.toInt = n) (param : ParamKind) (owner : Text) :
    stem (.node .parameter name args position param owner)
      = (if param = .method then [33, 33] else [33]) ++ (Text.ofNat n ++ 64 :: owner) := by
  have hdigits : Text.ofInt position.toInt = Text.ofNat n := by rw [hn]; rfl
  rw [stem, if_pos rfl, hdigits, List.append_assoc]

theorem stem_plain {holes : Prop} {kind : TypeKind} {name : Text} (args : List TypeRef)
    {position : Int64} {param : ParamKind} {owner : Text}
    (h : (Rules.readable holes).leaf kind name position param owner) :
    Text.Plain (stem (.node kind name args position param owner)) := by
  rcases h with ⟨rfl, hplain, -, -⟩ | ⟨rfl, -, hpos, howner⟩
  · exact hplain
  · obtain ⟨n, hn⟩ := Int.eq_ofNat_of_zero_le hpos
    intro b hb
    rw [stem_parameter name args hn, List.mem_append, List.mem_append, List.mem_cons] at hb
    rcases hb with hb | hb | rfl | hb
    · have hbang : b = 33 := by
        split at hb <;> simpa using hb
      subst hbang
      unfold Text.IsMark
      decide
    · have hrange := Text.mem_ofNat hb
      rintro (rfl | rfl | rfl) <;> revert hrange <;> decide
    · unfold Text.IsMark
      decide
    · exact howner b hb

theorem head_digits_ne {n : Nat} {owner : Text} :
    (Text.ofNat n ++ 64 :: owner).head? ≠ some 33 := by
  cases hd : Text.ofNat n with
  | nil => simp
  | cons b bs =>
      have hrange := Text.mem_ofNat (n := n) (b := b) (by simp [hd])
      rintro hb
      rw [List.cons_append, List.head?_cons, Option.some.injEq] at hb
      subst hb
      revert hrange
      decide

/-- Nodes without arguments are told apart by their stems. -/
theorem tree_eq_of_stem_eq {holes : Prop} {kind kind' : TypeKind} {name name' : Text}
    {args args' : List TypeRef} {position position' : Int64} {param param' : ParamKind}
    {owner owner' : Text} (h : (Rules.readable holes).leaf kind name position param owner)
    (h' : (Rules.readable holes).leaf kind' name' position' param' owner')
    (hstem : stem (.node kind name args position param owner)
      = stem (.node kind' name' args' position' param' owner')) :
    tree (.node kind name args position param owner)
      = tree (.node kind' name' args' position' param' owner') := by
  have hdef : ∀ {n : Text} {as : List TypeRef} {p : Int64} {m : ParamKind} {o : Text},
      stem (.node .definition n as p m o) = n := rfl
  have hbang : ∀ {n : Text} {as : List TypeRef} {p : Int64} {m : ParamKind} {o : Text},
      (stem (.node .parameter n as p m o)).head? = some 33 := by
    intro n as p m o
    rw [stem, if_pos rfl]
    split <;> rfl
  rcases h with ⟨rfl, -, hhead, -⟩ | ⟨rfl, hparam, hpos, -⟩
  · rcases h' with ⟨rfl, -, -, -⟩ | ⟨rfl, -, -, -⟩
    · rw [hdef, hdef] at hstem
      rw [tree_other (by decide) (by decide), tree_other (by decide) (by decide), hstem]
    · rw [hdef] at hstem
      exact absurd (hstem ▸ hbang) hhead
  · rcases h' with ⟨rfl, -, hhead, -⟩ | ⟨rfl, hparam', hpos', -⟩
    · rw [hdef] at hstem
      exact absurd (hstem ▸ hbang) hhead
    · obtain ⟨m, hm⟩ := Int.eq_ofNat_of_zero_le hpos
      obtain ⟨n, hn⟩ := Int.eq_ofNat_of_zero_le hpos'
      rw [stem_parameter name args hm, stem_parameter name' args' hn] at hstem
      -- The number of marks tells the kinds of parameter apart, since a digit or `@` follows.
      have hsame : param = param' ∧ Text.ofNat m ++ 64 :: owner = Text.ofNat n ++ 64 :: owner' := by
        rcases hparam with rfl | rfl <;> rcases hparam' with rfl | rfl
        · exact ⟨rfl, by simpa using hstem⟩
        · have hhead := congrArg (fun t => t.tail.head?) hstem
          exact absurd hhead head_digits_ne
        · have hhead := congrArg (fun t => t.tail.head?) hstem
          exact absurd hhead.symm head_digits_ne
        · exact ⟨rfl, by simpa using hstem⟩
      obtain ⟨rfl, hrest⟩ := hsame
      have hat : ∀ k, ∀ b ∈ Text.ofNat k, ¬ b = 64 := by
        rintro k b hb rfl
        exact absurd (Text.mem_ofNat hb).2 (by decide)
      obtain ⟨hdigits, howner⟩ := Text.append_inj_of_stop (P := fun b => b = 64) _ _ (hat m) (hat n)
        (by simp) (by simp) hrest
      have hposition : position = position' := by
        rw [← Int64.toInt_inj, hm, hn, Text.ofNat_inj hdigits]
      rw [tree_parameter, tree_parameter, hposition, (List.cons.inj howner).2]

/-- What may follow a key inside another one: nothing, the next argument, or the end of the
arguments. -/
def Closes (r : Text) : Prop := ∀ b ∈ r.head?, b = 62 ∨ b = 44

theorem Closes.mark {r : Text} (h : Closes r) : ∀ b ∈ r.head?, Text.IsMark b :=
  fun b hb => Or.inr (h b hb)

theorem closes_nil : Closes [] := by simp [Closes]

/-- What follows the key of the first of some arguments. -/
def afterFirst (rest : List TypeRef) (r : Text) : Text :=
  if rest = [] then 62 :: r else 44 :: (Text.join [44] (rest.map key) ++ 62 :: r)

theorem join_keys_cons (a : TypeRef) (rest : List TypeRef) (r : Text) :
    Text.join [44] ((a :: rest).map key) ++ 62 :: r = a.key ++ afterFirst rest r := by
  cases rest with
  | nil => simp [Text.join, afterFirst]
  | cons b rest => simp [Text.join, afterFirst]

theorem closes_afterFirst (rest : List TypeRef) (r : Text) : Closes (afterFirst rest r) := by
  unfold afterFirst
  split <;> simp [Closes]

/-- Keys in a row are told apart if each of them is. -/
theorem trees_eq_of_join_eq {R : Rules} : ∀ {args args' : List TypeRef} {r r' : Text},
    (∀ a ∈ args, ∀ {o : TypeRef} {r r' : Text}, o.Obeys R → Closes r → Closes r' →
      a.key ++ r = o.key ++ r' → a.tree = o.tree ∧ r = r') →
    args ≠ [] → args' ≠ [] → (∀ a ∈ args', a.Obeys R) →
    Text.join [44] (args.map key) ++ 62 :: r = Text.join [44] (args'.map key) ++ 62 :: r' →
    args.map tree = args'.map tree ∧ r = r'
  | [], _, _, _, _, h, _, _, _ => absurd rfl h
  | _ :: _, [], _, _, _, _, h, _, _ => absurd rfl h
  | a :: rest, a' :: rest', r, r', hargs, _, _, hobeys, h => by
      rw [join_keys_cons, join_keys_cons] at h
      obtain ⟨htree, hafter⟩ := hargs a (List.mem_cons_self ..) (hobeys a' (List.mem_cons_self ..))
        (closes_afterFirst rest r) (closes_afterFirst rest' r') h
      rw [List.map_cons, List.map_cons, htree]
      -- A comma follows the first key or the closing mark does, and the two are told apart.
      unfold afterFirst at hafter
      by_cases hr : rest = [] <;> by_cases hr' : rest' = []
      · rw [if_pos hr, if_pos hr', List.cons.injEq] at hafter
        exact ⟨by rw [hr, hr'], hafter.2⟩
      · rw [if_pos hr, if_neg hr', List.cons.injEq] at hafter
        exact absurd hafter.1 (by decide)
      · rw [if_neg hr, if_pos hr', List.cons.injEq] at hafter
        exact absurd hafter.1 (by decide)
      · rw [if_neg hr, if_neg hr', List.cons.injEq] at hafter
        obtain ⟨htrees, hrest⟩ := trees_eq_of_join_eq
          (fun b hb => hargs b (List.mem_cons_of_mem a hb)) hr hr'
          (fun b hb => hobeys b (List.mem_cons_of_mem a' hb)) hafter.2
        exact ⟨by rw [htrees], hrest⟩

theorem key_absent : key .absent = [60, 110, 105, 108, 62] := by decide

end TypeRef

/-- Rules under which a key can be split at its marks: none stands in front of the arguments of an
instance or in the stem of another node, every instance has arguments, where places may be empty it
has a name too, and nodes without arguments are told apart by their stems. -/
structure Rules.Separable (R : Rules) : Prop where
  inst : ∀ {name : Text} {n : Nat}, R.inst name n →
    Text.Plain name ∧ (R.hole → name ≠ []) ∧ n ≠ 0
  plain : ∀ {kind : TypeKind} {name : Text} (args : List TypeRef) {position : Int64}
    {param : ParamKind} {owner : Text}, R.leaf kind name position param owner →
    Text.Plain (TypeRef.stem (.node kind name args position param owner))
  leaf : ∀ {kind kind' : TypeKind} {name name' : Text} {args args' : List TypeRef}
    {position position' : Int64} {param param' : ParamKind} {owner owner' : Text},
    R.leaf kind name position param owner → R.leaf kind' name' position' param' owner' →
    TypeRef.stem (.node kind name args position param owner)
      = TypeRef.stem (.node kind' name' args' position' param' owner') →
    TypeRef.tree (.node kind name args position param owner)
      = TypeRef.tree (.node kind' name' args' position' param' owner')

theorem Rules.separable_readable (holes : Prop) : (Rules.readable holes).Separable where
  inst h := ⟨h.1, h.2.2⟩
  plain args _ _ _ h := TypeRef.stem_plain args h
  leaf h h' hstem := TypeRef.tree_eq_of_stem_eq h h' hstem

namespace TypeRef

/-- A key in front of a text that can follow it determines its tree and that text. -/
theorem tree_eq_of_key_append {R : Rules} (hR : R.Separable) {t : TypeRef} (ht : t.Obeys R) :
    ∀ {o : TypeRef} {r r' : Text}, o.Obeys R → Closes r → Closes r' →
      t.key ++ r = o.key ++ r' → t.tree = o.tree ∧ r = r' := by
  -- Up to the first mark a key is the name of an instance, the stem of another node, or nothing for
  -- an empty place. A mark that opens arguments cannot be one that closes them.
  have hopen : ∀ {r x : Text}, Closes r → 60 :: x ≠ r := by
    rintro r x hr rfl
    exact absurd (hr 60 rfl) (by decide)
  have hmark : ∀ x : Text, ∀ b ∈ (60 :: x).head?, Text.IsMark b := by
    intro x b hb
    exact Or.inl (Option.some.inj hb).symm
  have hnil : Text.Plain [] := by simp [Text.Plain]
  induction ht with
  | hole h =>
      intro o r r' ho hr hr' heq
      rw [key_absent] at heq
      cases ho with
      | hole h' =>
          rw [key_absent] at heq
          exact ⟨rfl, List.append_cancel_left heq⟩
      | inst h' _ =>
          rw [key_inst, List.append_assoc] at heq
          obtain ⟨hplain', hne', -⟩ := hR.inst h'
          obtain ⟨hname, -⟩ := Text.append_inj_of_stop [] _ hnil hplain' (hmark _) (hmark _) heq
          exact absurd hname.symm (hne' h)
      | leaf hk h' =>
          rw [key_leaf hk] at heq
          obtain ⟨-, hrest⟩ := Text.append_inj_of_stop [] _ hnil (hR.plain _ h') (hmark _)
            hr'.mark heq
          exact absurd hrest (hopen hr')
  | @inst name args position param owner h hargs ih =>
      intro o r r' ho hr hr' heq
      obtain ⟨hplain, hne, hn⟩ := hR.inst h
      rw [key_inst, List.append_assoc] at heq
      cases ho with
      | hole h' =>
          rw [key_absent] at heq
          obtain ⟨hname, -⟩ := Text.append_inj_of_stop _ [] hplain hnil (hmark _) (hmark _) heq
          exact absurd hname (hne h')
      | @inst name' args' position' param' owner' h' hargs' =>
          obtain ⟨hplain', -, hn'⟩ := hR.inst h'
          rw [key_inst, List.append_assoc] at heq
          obtain ⟨hname, hrest⟩ :=
            Text.append_inj_of_stop _ _ hplain hplain' (hmark _) (hmark _) heq
          have hjoin : Text.join [44] (args.map key) ++ 62 :: r
              = Text.join [44] (args'.map key) ++ 62 :: r' := by simpa using hrest
          obtain ⟨htrees, hrr⟩ := trees_eq_of_join_eq ih (by simpa using hn) (by simpa using hn')
            hargs' hjoin
          rw [tree_inst, tree_inst, hname, htrees]
          exact ⟨rfl, hrr⟩
      | leaf hk h' =>
          rw [key_leaf hk] at heq
          obtain ⟨-, hrest⟩ := Text.append_inj_of_stop _ _ hplain (hR.plain _ h') (hmark _) hr'.mark
            heq
          exact absurd hrest (hopen hr')
  | @leaf kind name args position param owner hk h =>
      intro o r r' ho hr hr' heq
      rw [key_leaf hk] at heq
      cases ho with
      | hole h' =>
          rw [key_absent] at heq
          obtain ⟨-, hrest⟩ := Text.append_inj_of_stop _ [] (hR.plain _ h) hnil hr.mark
            (hmark _) heq
          exact absurd hrest.symm (hopen hr)
      | inst h' _ =>
          rw [key_inst, List.append_assoc] at heq
          obtain ⟨-, hrest⟩ := Text.append_inj_of_stop _ _ (hR.plain _ h) (hR.inst h').1 hr.mark
            (hmark _) heq
          exact absurd hrest.symm (hopen hr)
      | leaf hk' h' =>
          rw [key_leaf hk'] at heq
          obtain ⟨hstem, hrr⟩ := Text.append_inj_of_stop _ _ (hR.plain _ h) (hR.plain _ h')
            hr.mark hr'.mark heq
          exact ⟨hR.leaf h h' hstem, hrr⟩

/-- References that can be read back and have one key are one tree. -/
theorem tree_eq_of_key_eq {holes : Prop} {t o : TypeRef} (ht : t.Obeys (.readable holes))
    (ho : o.Obeys (.readable holes)) (h : t.key = o.key) : t.tree = o.tree :=
  (tree_eq_of_key_append (Rules.separable_readable holes) ht ho closes_nil closes_nil (by rw [h])).1

end TypeRef

/-! ## Substitution sees only the tree -/

namespace Bindings

theorem applyEach_tree {b : Bindings} : ∀ {ts : List TypeRef},
    (∀ t ∈ ts, (b.apply t.tree).map TypeRef.tree = (b.apply t).map TypeRef.tree) →
      (b.applyEach (ts.map TypeRef.tree)).map (List.map TypeRef.tree)
        = (b.applyEach ts).map (List.map TypeRef.tree)
  | [], _ => rfl
  | t :: ts, h => by
      have ht := h t (List.mem_cons_self ..)
      have hts := applyEach_tree fun u hu => h u (List.mem_cons_of_mem t hu)
      rw [List.map_cons, applyEach, applyEach]
      revert ht hts
      cases b.apply t.tree <;> cases b.apply t <;>
        cases b.applyEach (ts.map TypeRef.tree) <;> cases b.applyEach ts <;>
        simp_all [Except.map]

theorem apply_tree (b : Bindings) (t : TypeRef) :
    (b.apply t.tree).map TypeRef.tree = (b.apply t).map TypeRef.tree := by
  induction t using TypeRef.induction with
  | absent => rfl
  | node kind name args position param owner ih =>
      by_cases hp : kind = .parameter
      · subst hp
        rw [TypeRef.tree_parameter, apply_parameter, apply_parameter, lookup, lookup]
      · by_cases hi : kind = .inst
        · subst hi
          have heach := applyEach_tree ih
          have hany := TypeRef.anyParameter_map fun a (_ : a ∈ args) => TypeRef.hasParameter_tree a
          have hsame := TypeRef.tree_tree (.node .inst name args position param owner)
          rw [TypeRef.tree_inst] at hsame ⊢
          rw [TypeRef.applied, apply_inst, apply_inst, hany]
          revert heach
          cases b.applyEach (args.map TypeRef.tree) with
          | error f =>
              cases b.applyEach args with
              | error g => intro heach; cases heach; rfl
              | ok rs => intro heach; cases heach
          | ok rs =>
              cases b.applyEach args with
              | error g => intro heach; cases heach
              | ok rs' =>
                  intro heach
                  have hrs : rs.map TypeRef.tree = rs'.map TypeRef.tree := Except.ok.inj heach
                  by_cases hp : TypeRef.anyParameter args = true
                  · simp only [Except.map, hp, if_true, TypeRef.applied, TypeRef.tree_inst, hrs]
                  · have hnode : (TypeRef.node .inst name args position param owner).tree
                        = .applied name (args.map TypeRef.tree) := TypeRef.tree_inst ..
                    simp only [Except.map, if_neg hp, hnode]
                    exact congrArg Except.ok hsame
        · rw [TypeRef.tree_other hp hi, apply_other b hp hi, apply_other b hp hi]
          simp [Except.map, TypeRef.tree_other hp hi]

/-- The bindings with the trees of their arguments. -/
def tree (b : Bindings) : Bindings := { b with args := b.args.map TypeRef.tree }

theorem lookup_tree_args (b : Bindings) (t : TypeRef) :
    b.tree.lookup t = (b.lookup t).map TypeRef.tree := by
  have hget : ∀ i, b.tree.get i = (b.get i).map TypeRef.tree := by
    intro i
    have hgetD : (b.args.map TypeRef.tree).getD i.toNat .absent
        = (b.args.getD i.toNat .absent).tree := List.getD_map b.args .absent TypeRef.tree
    simp only [get, tree, List.length_map, hgetD]
    split_ifs <;> rfl
  cases t with
  | absent => rfl
  | node kind name args position param owner =>
      have harity : b.tree.typeArity = b.typeArity := rfl
      rw [lookup, lookup, hget, hget, harity]
      by_cases hk : kind ≠ .parameter ∨ position < 0
      · rw [if_pos hk, if_pos hk]
        rfl
      · rw [if_neg hk, if_neg hk]
        split
        · split <;> rfl
        · split <;> rfl

theorem applyEach_tree_args {b : Bindings} : ∀ {ts : List TypeRef},
    (∀ t ∈ ts, (b.tree.apply t).map TypeRef.tree = (b.apply t).map TypeRef.tree) →
      (b.tree.applyEach ts).map (List.map TypeRef.tree)
        = (b.applyEach ts).map (List.map TypeRef.tree)
  | [], _ => rfl
  | t :: ts, h => by
      have ht := h t (List.mem_cons_self ..)
      have hts := applyEach_tree_args fun u hu => h u (List.mem_cons_of_mem t hu)
      rw [applyEach, applyEach]
      revert ht hts
      cases b.tree.apply t <;> cases b.apply t <;>
        cases b.tree.applyEach ts <;> cases b.applyEach ts <;>
        simp_all [Except.map]

/-- The trees of the arguments decide the tree of the result. -/
theorem apply_tree_args (b : Bindings) (t : TypeRef) :
    (b.tree.apply t).map TypeRef.tree = (b.apply t).map TypeRef.tree := by
  induction t using TypeRef.induction with
  | absent => rfl
  | node kind name args position param owner ih =>
      by_cases hp : kind = .parameter
      · subst hp
        rw [apply_parameter, apply_parameter, lookup_tree_args]
        cases b.lookup (.node .parameter name args position param owner) with
        | error f => rfl
        | ok r => exact congrArg Except.ok r.tree_tree
      · by_cases hi : kind = .inst
        · subst hi
          have heach := applyEach_tree_args ih
          rw [apply_inst, apply_inst]
          revert heach
          cases b.tree.applyEach args with
          | error f =>
              cases b.applyEach args with
              | error g => intro heach; cases heach; rfl
              | ok rs => intro heach; cases heach
          | ok rs =>
              cases b.applyEach args with
              | error g => intro heach; cases heach
              | ok rs' =>
                  intro heach
                  have hrs : rs.map TypeRef.tree = rs'.map TypeRef.tree := Except.ok.inj heach
                  simp only [Except.map]
                  split
                  · rw [TypeRef.applied, TypeRef.applied, TypeRef.tree_inst, TypeRef.tree_inst, hrs]
                  · rfl
        · rw [apply_other _ hp hi, apply_other _ hp hi]

/-- Bindings with one tree carry references with one tree to references with one tree, or bind
neither. -/
theorem apply_trees_eq {b b' : Bindings} {t o r : TypeRef} (hb : b.tree = b'.tree)
    (h : t.tree = o.tree) (ht : b.apply t = .ok r) :
    ∃ r', b'.apply o = .ok r' ∧ r.tree = r'.tree := by
  have hmap : (b'.apply o).map TypeRef.tree = .ok r.tree := by
    rw [← apply_tree b' o, ← h, ← apply_tree_args, ← hb, apply_tree_args, apply_tree b t, ht]
    rfl
  cases ho : b'.apply o with
  | error f => rw [ho] at hmap; cases hmap
  | ok r' =>
      rw [ho] at hmap
      exact ⟨r', rfl, (Except.ok.inj hmap).symm⟩

theorem apply_tree_eq {b : Bindings} {t o r : TypeRef} (h : t.tree = o.tree)
    (ht : b.apply t = .ok r) : ∃ r', b.apply o = .ok r' ∧ r.tree = r'.tree :=
  apply_trees_eq rfl h ht

end Bindings

/-! ## Filling in sees only the tree -/

theorem TypeRef.fillIn_tree_eq {args args' : List TypeRef}
    (h : args.map tree = args'.map tree) (t : TypeRef) :
    (t.fillIn args).tree = (t.fillIn args').tree := by
  have hlen : args.length = args'.length := by simpa using congrArg List.length h
  have hgetD : ∀ i, (args.getD i .absent).tree = (args'.getD i .absent).tree := by
    intro i
    have hmap : ∀ l : List TypeRef, (l.getD i .absent).tree = (l.map tree).getD i .absent :=
      fun l => (List.getD_map l .absent tree).symm
    rw [hmap, hmap, h]
  induction t using TypeRef.induction with
  | absent => rfl
  | node kind name inner position param owner ih =>
      rw [fillIn, fillIn, hlen]
      split
      · split
        · exact hgetD _
        · rfl
      · split
        · rw [fillInEach_eq_map, fillInEach_eq_map, applied, applied, tree_inst, tree_inst,
            List.map_map, List.map_map]
          exact congrArg (applied name) (List.map_congr_left ih)
        · rfl

end Monomorph
