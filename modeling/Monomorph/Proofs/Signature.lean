import Monomorph.Proofs.Faithful
import Monomorph.Registry

/-!
# Signatures can be read back

A call site finds a method by the text of its signature: name, arity, and the types of the
parameters with the owners of generic parameters left out. When the name holds no opening
parenthesis and the names in the types can be read, two signatures have one text exactly if they
agree in name and arity and the types of the parameters are pairwise the same up to owners
(`Signature.text_eq_iff`).

The text of a type is the key of a reference in which every node without arguments is replaced by a
declared type called by its text (`TypeRef.labelled`), so what is known of keys carries over.
-/

namespace Monomorph

namespace Text

theorem mem_ofInt {n : Int} {b : UInt8} (h : b ∈ ofInt n) :
    b = 45 ∨ 48 ≤ b.toNat ∧ b.toNat ≤ 57 := by
  cases n with
  | ofNat n => exact Or.inr (mem_ofNat h)
  | negSucc n =>
      have hminus : ofString "-" = [45] := by decide
      rw [ofInt, hminus, List.singleton_append, List.mem_cons] at h
      exact h.imp_right mem_ofNat

theorem ofInt_inj {m n : Int} (h : ofInt m = ofInt n) : m = n := by
  have hminus : ofString "-" = [45] := by decide
  -- A minus sign is no digit.
  have hsign : ∀ {k l : Nat}, ofNat k = 45 :: ofNat l → False := by
    intro k l heq
    have hmem : (45 : UInt8) ∈ ofNat k := heq ▸ List.mem_cons_self ..
    exact absurd (mem_ofNat hmem).1 (by decide)
  cases m with
  | ofNat m =>
      cases n with
      | ofNat n => exact congrArg Int.ofNat (ofNat_inj h)
      | negSucc n =>
          rw [ofInt, ofInt, hminus] at h
          exact (hsign h).elim
  | negSucc m =>
      cases n with
      | ofNat n =>
          rw [ofInt, ofInt, hminus] at h
          exact (hsign h.symm).elim
      | negSucc n =>
          rw [ofInt, ofInt, hminus] at h
          have hsucc := ofNat_inj (List.cons.inj h).2
          rw [Nat.succ.inj hsucc]

end Text

/-! ## The text of a type -/

/-- The rules under which the text of a type can be read back: known kinds, arguments for every
instance, and legible names of declared types. -/
def Rules.spelled : Rules where
  inst name n := name.Legible ∧ n ≠ 0
  leaf kind name position param _ :=
    kind = .definition ∧ name.Legible ∨
      kind = .parameter ∧ (param = .type ∨ param = .method) ∧ 0 ≤ position.toInt
  hole := False

/-- The rule for the names in a reference under which its text in a signature can be read back. -/
def Rules.legibleTypes : Rules where
  inst name _ := name.Legible
  leaf kind name _ _ _ := kind ≠ .parameter → name.Legible
  hole := True

/-- The rules that references obey after their nodes without arguments were labelled. -/
def Rules.labelled : Rules where
  inst name n := Text.Plain name ∧ n ≠ 0
  leaf kind name _ _ _ := kind = .definition ∧ Text.Plain name
  hole := False

theorem Rules.separable_labelled : Rules.labelled.Separable where
  inst h := ⟨h.1, False.elim, h.2⟩
  plain := by
    rintro kind name args position param owner ⟨rfl, hplain⟩
    exact hplain
  leaf := by
    rintro kind kind' name name' args args' position position' param param' owner owner'
      ⟨rfl, -⟩ ⟨rfl, -⟩ (rfl : name = name')
    rfl

namespace TypeRef

mutual
/-- The reference with every node without arguments replaced by a declared type that is called by
its text in a signature. -/
def labelled : TypeRef → TypeRef
  | .absent => .absent
  | .node kind name args position param owner =>
    if kind = .inst then .applied name (labelledEach args)
    else .define (signatureText (.node kind name args position param owner))

/-- The same of references in a row. -/
def labelledEach : List TypeRef → List TypeRef
  | [] => []
  | t :: ts => t.labelled :: labelledEach ts
end

theorem labelledEach_eq_map (ts : List TypeRef) : labelledEach ts = ts.map labelled := by
  induction ts with
  | nil => rfl
  | cons t ts ih => simp [labelledEach, ih]

theorem labelled_inst (name : Text) (args : List TypeRef) (position : Int64) (param : ParamKind)
    (owner : Text) :
    labelled (.node .inst name args position param owner) = .applied name (args.map labelled) := by
  rw [labelled, if_pos rfl, labelledEach_eq_map]

theorem labelled_leaf {kind : TypeKind} (hk : kind ≠ .inst) (name : Text) (args : List TypeRef)
    (position : Int64) (param : ParamKind) (owner : Text) :
    labelled (.node kind name args position param owner)
      = .define (signatureText (.node kind name args position param owner)) := by
  rw [labelled, if_neg hk]

theorem signatureText_inst (name : Text) (args : List TypeRef) (position : Int64)
    (param : ParamKind) (owner : Text) :
    signatureText (.node .inst name args position param owner)
      = name ++ 60 :: (Text.join [44] (args.map signatureText) ++ [62]) := by
  have hlt : Text.ofString "<" = [60] := by decide
  have hgt : Text.ofString ">" = [62] := by decide
  have hcomma : Text.ofString "," = [44] := by decide
  rw [signatureText, if_neg (by decide), if_pos rfl, signatureTexts_eq_map, hlt, hgt, hcomma]
  simp

theorem signatureText_definition (name : Text) (args : List TypeRef) (position : Int64)
    (param : ParamKind) (owner : Text) :
    signatureText (.node .definition name args position param owner) = name := by
  rw [signatureText, if_neg (by decide), if_neg (by decide)]

theorem signatureText_parameter (name : Text) (args : List TypeRef) (position : Int64)
    (param : ParamKind) (owner : Text) :
    signatureText (.node .parameter name args position param owner)
      = (if param = .method then [33, 33] else [33]) ++ Text.ofInt position.toInt := by
  have hone : Text.ofString "!" = [33] := by decide
  have htwo : Text.ofString "!!" = [33, 33] := by decide
  rw [signatureText, if_pos rfl]
  split
  · rw [htwo]
  · rw [hone]

/-- In front of the owner, the stem of a parameter is its text in a signature. -/
theorem stem_parameter_eq (name : Text) (args : List TypeRef) (position : Int64)
    (param : ParamKind) (owner : Text) :
    stem (.node .parameter name args position param owner)
      = signatureText (.node .parameter name args position param owner) ++ 64 :: owner := by
  rw [signatureText_parameter, stem, if_pos rfl]

/-- Without an owner a parameter has a readable key. -/
theorem readable_parameter (name : Text) {position : Int64} {param : ParamKind}
    (hparam : param = .type ∨ param = .method) (hpos : 0 ≤ position.toInt) :
    (Rules.readable False).leaf .parameter name position param [] :=
  Or.inr ⟨rfl, hparam, hpos, by simp [Text.Plain]⟩

theorem signatureText_plain {kind : TypeKind} {name : Text} (args : List TypeRef)
    {position : Int64} {param : ParamKind} (owner : Text)
    (h : Rules.spelled.leaf kind name position param owner) :
    Text.Plain (signatureText (.node kind name args position param owner)) := by
  rcases h with ⟨rfl, -, hplain, -⟩ | ⟨rfl, hparam, hpos⟩
  · rw [signatureText_definition]
    exact hplain
  · have hleaf := readable_parameter name hparam hpos
    intro b hb
    refine stem_plain args hleaf b ?_
    rw [stem_parameter_eq]
    exact List.mem_append_left _ hb

/-- The key of a labelled reference is the text of the reference in a signature. -/
theorem key_labelled {t : TypeRef} (h : t.Obeys .spelled) : t.labelled.key = t.signatureText := by
  induction h with
  | hole h => exact h.elim
  | @inst name args position param owner h hargs ih =>
      have hargs : args.map (key ∘ labelled) = args.map signatureText := List.map_congr_left ih
      rw [labelled_inst, applied, key_inst, signatureText_inst, List.map_map, hargs]
  | @leaf kind name args position param owner hk h =>
      rw [labelled_leaf hk, define, key_leaf (by decide), stem, if_neg (by decide)]

theorem labelled_obeys {t : TypeRef} (h : t.Obeys .spelled) : t.labelled.Obeys .labelled := by
  induction h with
  | hole h => exact h.elim
  | @inst name args position param owner h hargs ih =>
      rw [labelled_inst]
      refine .inst ⟨h.1.2.1, by simpa using h.2⟩ ?_
      intro a ha
      obtain ⟨b, hb, rfl⟩ := List.mem_map.mp ha
      exact ih b hb
  | @leaf kind name args position param owner hk h =>
      rw [labelled_leaf hk]
      exact .leaf (by decide) ⟨rfl, signatureText_plain args owner h⟩

theorem tree_labelled (t : TypeRef) : t.labelled.tree = t.labelled := by
  induction t using induction with
  | absent => rfl
  | node kind name args position param owner ih =>
      by_cases hi : kind = .inst
      · subst hi
        have hargs : (args.map labelled).map tree = args.map labelled := by
          rw [List.map_map]
          exact List.map_congr_left ih
        rw [labelled_inst]
        exact (tree_inst ..).trans (congrArg (applied name) hargs)
      · rw [labelled_leaf hi]
        exact tree_other (by decide) (by decide) ..

/-- Nodes without arguments are told apart by their texts in a signature, up to owners. -/
theorem same_of_leaf {kind kind' : TypeKind} {name name' : Text} {args args' : List TypeRef}
    {position position' : Int64} {param param' : ParamKind} {owner owner' : Text}
    (h : Rules.spelled.leaf kind name position param owner)
    (h' : Rules.spelled.leaf kind' name' position' param' owner')
    (htext : signatureText (.node kind name args position param owner)
      = signatureText (.node kind' name' args' position' param' owner')) :
    Same false (.node kind name args position param owner)
      (.node kind' name' args' position' param' owner') := by
  -- No legible name starts like a parameter.
  have hhead : ∀ {name : Text} {param : ParamKind} {rest : Text}, name.Legible →
      name ≠ (if param = .method then [33, 33] else [33]) ++ rest := by
    rintro name param rest ⟨-, -, hname⟩ rfl
    split at hname <;> exact hname rfl
  rcases h with ⟨rfl, hname⟩ | ⟨rfl, hparam, hpos⟩ <;>
    rcases h' with ⟨rfl, hname'⟩ | ⟨rfl, hparam', hpos'⟩
  · rw [signatureText_definition, signatureText_definition] at htext
    exact (same_other_iff (by decide) (by decide)).mpr htext
  · rw [signatureText_definition, signatureText_parameter] at htext
    exact absurd htext (hhead hname)
  · rw [signatureText_definition, signatureText_parameter] at htext
    exact absurd htext.symm (hhead hname')
  · -- With no owners at all, the stems agree as well.
    have hstem : stem (.node .parameter name args position param [])
        = stem (.node .parameter name' args' position' param' []) := by
      rw [signatureText_parameter, signatureText_parameter] at htext
      rw [stem_parameter_eq, stem_parameter_eq, signatureText_parameter, signatureText_parameter,
        htext]
    have htree := tree_eq_of_stem_eq (readable_parameter name hparam hpos)
      (readable_parameter name' hparam' hpos') hstem
    rw [tree_parameter, tree_parameter] at htree
    injection htree with _ _ _ hposition hkind
    exact same_parameter_iff.mpr ⟨hposition, hkind, nofun⟩

/-- References with one labelled tree are the same up to owners. -/
theorem same_of_labelled_eq {t : TypeRef} (ht : t.Obeys .spelled) :
    ∀ {o : TypeRef}, o.Obeys .spelled → t.labelled = o.labelled → t.Same false o := by
  induction ht with
  | hole h => exact h.elim
  | @inst name args position param owner h hargs ih =>
      intro o ho heq
      rw [labelled_inst] at heq
      cases ho with
      | hole h' => exact h'.elim
      | @inst name' args' position' param' owner' h' hargs' =>
          rw [labelled_inst] at heq
          injection heq with _ hname heach
          refine same_inst_iff.mpr ⟨hname, forall₂_of_map_eq heach ?_⟩
          intro a ha a' ha'
          exact ih a ha (hargs' a' ha')
      | leaf hk h' =>
          rw [labelled_leaf hk] at heq
          injection heq with hkind
          exact absurd hkind (by decide)
  | @leaf kind name args position param owner hk h =>
      intro o ho heq
      rw [labelled_leaf hk] at heq
      cases ho with
      | hole h' => exact h'.elim
      | inst h' _ =>
          rw [labelled_inst] at heq
          injection heq with hkind
          exact absurd hkind (by decide)
      | leaf hk' h' =>
          rw [labelled_leaf hk'] at heq
          injection heq with _ htext
          exact same_of_leaf h h' htext

/-- Owners do not show in the text of a type. -/
theorem signatureText_eq_of_same (t : TypeRef) : ∀ o : TypeRef, t.Same false o →
    t.signatureText = o.signatureText := by
  induction t using induction with
  | absent =>
      intro o h
      cases o with
      | absent => rfl
      | node => cases h.kind_eq
  | node kind name args position param owner ih =>
      intro o h
      cases o with
      | absent => cases h.kind_eq
      | node kind' name' args' position' param' owner' =>
          obtain rfl : kind = kind' := Option.some.inj h.kind_eq
          by_cases hp : kind = .parameter
          · subst hp
            obtain ⟨rfl, rfl, -⟩ := same_parameter_iff.mp h
            rw [signatureText_parameter, signatureText_parameter]
          by_cases hi : kind = .inst
          · subst hi
            obtain ⟨rfl, hargs⟩ := same_inst_iff.mp h
            rw [signatureText_inst, signatureText_inst, map_eq_of_forall₂ hargs ih]
          · obtain rfl := (same_other_iff hp hi).mp h
            rw [signatureText, signatureText, if_neg hp, if_neg hi, if_neg hp, if_neg hi]

theorem signatureText_ne_nil {t : TypeRef} (h : t.Obeys .spelled) : t.signatureText ≠ [] := by
  cases h with
  | hole h => exact h.elim
  | inst => simp [signatureText_inst]
  | @leaf kind name args position param owner hk h =>
      rcases h with ⟨rfl, hname, -⟩ | ⟨rfl, -, -⟩
      · rwa [signatureText_definition]
      · rw [signatureText_parameter]
        split <;> simp

/-- The texts of types in a row, with commas between them, say what the types are up to owners. -/
theorem join_signatureTexts_eq_iff {ts os : List TypeRef} (hts : ∀ t ∈ ts, t.Obeys .spelled)
    (hos : ∀ o ∈ os, o.Obeys .spelled) :
    Text.join [44] (ts.map signatureText) = Text.join [44] (os.map signatureText) ↔
      List.Forall₂ (Same false) ts os := by
  have hnil : ∀ {ts : List TypeRef}, (∀ t ∈ ts, t.Obeys .spelled) →
      Text.join [44] (ts.map signatureText) = [] → ts = [] := by
    intro ts hts hjoin
    match ts with
    | [] => rfl
    | [t] => exact absurd hjoin (signatureText_ne_nil (hts t (List.mem_cons_self ..)))
    | t :: u :: rest => simp [Text.join] at hjoin
  constructor
  · intro hjoin
    by_cases hts' : ts = []
    · subst hts'
      rw [hnil hos hjoin.symm]
      exact .nil
    by_cases hos' : os = []
    · subst hos'
      exact absurd (hnil hts hjoin) hts'
    have hkeys : ∀ {ts : List TypeRef}, (∀ t ∈ ts, t.Obeys .spelled) →
        (ts.map labelled).map key = ts.map signatureText := by
      intro ts hts
      rw [List.map_map]
      exact List.map_congr_left fun t ht => key_labelled (hts t ht)
    have hobeys : ∀ {ts : List TypeRef}, (∀ t ∈ ts, t.Obeys .spelled) →
        ∀ a ∈ ts.map labelled, a.Obeys .labelled := by
      intro ts hts a ha
      obtain ⟨t, ht, rfl⟩ := List.mem_map.mp ha
      exact labelled_obeys (hts t ht)
    have hkeyed : Text.join [44] ((ts.map labelled).map key) ++ 62 :: []
        = Text.join [44] ((os.map labelled).map key) ++ 62 :: [] := by
      rw [hkeys hts, hkeys hos, hjoin]
    have htrees := (trees_eq_of_join_eq
      (fun a ha _ _ _ => tree_eq_of_key_append Rules.separable_labelled (hobeys hts a ha))
      (by simpa using hts') (by simpa using hos') (hobeys hos) hkeyed).1
    simp only [List.map_map, Function.comp_def, tree_labelled] at htrees
    exact forall₂_of_map_eq htrees fun t ht o ho => same_of_labelled_eq (hts t ht) (hos o ho)
  · intro hsame
    rw [map_eq_of_forall₂ hsame fun t _ o => signatureText_eq_of_same t o]

/-- A type as it may stand in the signature of a method: present, within the rules of the format,
and with legible names of declared types. -/
def Spelled (t : TypeRef) : Prop :=
  t.isPresent = true ∧ t.fault? = none ∧ t.Obeys .legibleTypes

instance : Decidable Rules.legibleTypes.hole := inferInstanceAs (Decidable True)

instance (name : Text) (n : Nat) : Decidable (Rules.legibleTypes.inst name n) :=
  inferInstanceAs (Decidable name.Legible)

instance (kind : TypeKind) (name : Text) (position : Int64) (param : ParamKind) (owner : Text) :
    Decidable (Rules.legibleTypes.leaf kind name position param owner) :=
  inferInstanceAs (Decidable (kind ≠ .parameter → name.Legible))

instance (t : TypeRef) : Decidable t.Spelled :=
  inferInstanceAs (Decidable (t.isPresent = true ∧ t.fault? = none ∧ t.Obeys .legibleTypes))

theorem Spelled.obeys {t : TypeRef} (h : t.Spelled) : t.Obeys .spelled := by
  obtain ⟨hpresent, hfault, hnames⟩ := h
  have hformat := ((fault?_eq_none_iff t).mp hfault).obeys_of_present hpresent
  refine (hformat.and hnames).imp ?_ ?_ fun hhole : False ∧ True => hhole.1
  · rintro name n ⟨hn, hname⟩
    exact ⟨hname, hn⟩
  · rintro kind name position param owner ⟨hkind, hname⟩
    rcases hkind with rfl | ⟨rfl, hparam, hfits⟩
    · exact Or.inl ⟨rfl, hname (by decide)⟩
    · have hpos : 0 ≤ position.toInt ∧ position.toInt < 65536 := by
        simpa [fitsPosition] using hfits
      exact Or.inr ⟨rfl, hparam, hpos.1⟩

end TypeRef

/-! ## The text of a signature -/

/-- What a call site and a method must agree on. -/
structure Signature where
  name : Text
  arity : Int
  params : List TypeRef

namespace Signature

/-- The text that signatures are compared by. -/
def text (s : Signature) : Text := MethodDef.signature s.name s.arity s.params

/-- No opening parenthesis in the name, and types that can be read back. -/
structure Spelled (s : Signature) : Prop where
  name : (40 : UInt8) ∉ s.name
  params : ∀ t ∈ s.params, t.Spelled

instance (s : Signature) : Decidable s.Spelled :=
  decidable_of_iff ((40 : UInt8) ∉ s.name ∧ ∀ t ∈ s.params, t.Spelled)
    ⟨fun h => ⟨h.1, h.2⟩, fun h => ⟨h.name, h.params⟩⟩

/-- One name, one arity, and as many parameters of the same types up to owners. -/
structure Agrees (s s' : Signature) : Prop where
  name : s.name = s'.name
  arity : s.arity = s'.arity
  params : List.Forall₂ (TypeRef.Same false) s.params s'.params

theorem text_eq (s : Signature) :
    s.text = (s.name ++ 96 :: Text.ofInt s.arity)
      ++ 40 :: (Text.join [44] (s.params.map TypeRef.signatureText) ++ [41]) := by
  have htick : Text.ofString "`" = [96] := by decide
  have hopen : Text.ofString "(" = [40] := by decide
  have hclose : Text.ofString ")" = [41] := by decide
  have hcomma : Text.ofString "," = [44] := by decide
  rw [text, MethodDef.signature, htick, hopen, hclose, hcomma]
  simp

/-- The last tick of a text with a number behind it is the one in front of the number. -/
theorem split_arity {name name' : Text} {m n : Int}
    (h : name ++ 96 :: Text.ofInt m = name' ++ 96 :: Text.ofInt n) : name = name' ∧ m = n := by
  have hdigit : ∀ k : Int, ∀ b ∈ (Text.ofInt k).reverse, ¬ b = 96 := by
    rintro k b hb rfl
    rcases Text.mem_ofInt (List.mem_reverse.mp hb) with h | h
    · exact absurd h (by decide)
    · exact absurd h.2 (by decide)
  have hreverse := congrArg List.reverse h
  rw [List.reverse_append, List.reverse_append, List.reverse_cons, List.reverse_cons,
    List.append_assoc, List.append_assoc] at hreverse
  obtain ⟨hnumber, hname⟩ := Text.append_inj_of_stop (P := fun b => b = 96) _ _ (hdigit m)
    (hdigit n) (by simp) (by simp) hreverse
  exact ⟨by simpa using hname, Text.ofInt_inj (List.reverse_injective hnumber)⟩

/-- Signatures have one text exactly if they agree. -/
theorem text_eq_iff {s s' : Signature} (hs : s.Spelled) (hs' : s'.Spelled) :
    s.text = s'.text ↔ s.Agrees s' := by
  have hparams := TypeRef.join_signatureTexts_eq_iff (fun t ht => (hs.params t ht).obeys)
    fun t ht => (hs'.params t ht).obeys
  constructor
  · intro h
    -- The first opening parenthesis ends the arity.
    have hstop : ∀ {s : Signature}, s.Spelled →
        ∀ b ∈ s.name ++ 96 :: Text.ofInt s.arity, ¬ b = 40 := by
      rintro s hs b hb rfl
      rcases List.mem_append.mp hb with hb | hb
      · exact hs.name hb
      rcases List.mem_cons.mp hb with hb | hb
      · exact absurd hb (by decide)
      rcases Text.mem_ofInt hb with hb | hb
      · exact absurd hb (by decide)
      · exact absurd hb.1 (by decide)
    rw [text_eq, text_eq] at h
    obtain ⟨hhead, hrest⟩ := Text.append_inj_of_stop (P := fun b => b = 40) _ _ (hstop hs)
      (hstop hs') (by simp) (by simp) h
    obtain ⟨hname, harity⟩ := split_arity hhead
    exact ⟨hname, harity, hparams.mp (List.append_cancel_right (List.cons.inj hrest).2)⟩
  · rintro ⟨hname, harity, hsame⟩
    rw [text_eq, text_eq, hname, harity, hparams.mpr hsame]

end Signature

end Monomorph
