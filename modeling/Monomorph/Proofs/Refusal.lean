import Monomorph.Proofs.RoundTrip

/-!
# Every answer to the bytes of a file

Reading has two good ends: a module that breaks no rule, or one of four reasons to refuse the
bytes. What the bytes of a file are is said here without the reader (`Module.Holds`,
`Module.Refused`), and the reader is shown to answer accordingly. It has a third end, a crash: the
report of an empty place for a method asks that place for a name.

Validation goes through a module in order and stops at the first rule that is broken, so an empty
place only matters if everything in front of it is sound. `TypeDef.places` lays the order out as a
list, and `Module.MeetsGap` says what is sound in front of the gap.
-/

namespace Monomorph

/-- The reasons to refuse bytes. -/
inductive Refusal where
  | mark
  | schema
  | document
  | malformed
deriving DecidableEq

/-- The reason that an error gives; an empty place for a method crashes the report instead. -/
def DecodeError.refusal? : DecodeError → Option Refusal
  | .badMark => some .mark
  | .truncatedHeader => some .mark
  | .schema _ => some .schema
  | .undecodable => some .document
  | .malformed .emptyMethod => none
  | .malformed _ => some .malformed

/-! ## The order of validation -/

namespace TypeDef

mutual
/-- The places for types in the order of validation: a type stands in front of the types nested
in it. -/
def places : TypeDef → List (Option TypeHead)
  | .absent => [none]
  | .node head nested => some head :: placesOf nested

/-- The places for types in a row. -/
def placesOf : List TypeDef → List (Option TypeHead)
  | [] => []
  | t :: ts => t.places ++ placesOf ts
end

end TypeDef

/-- The first broken rule at a place for a type. -/
def TypeHead.placeFault? (module : Text) : Option TypeHead → Option FormatFault
  | none => some (.unnamedType module)
  | some head => head.formatFault? module

namespace TypeDef

mutual
theorem formatFault?_eq_findSome? (module : Text) : ∀ t : TypeDef,
    t.formatFault? module = t.places.findSome? (TypeHead.placeFault? module)
  | .absent => rfl
  | .node head nested => by
      rw [formatFault?, places, List.findSome?_cons, TypeHead.placeFault?]
      cases head.formatFault? module with
      | some f => rfl
      | none => exact formatFaultIn?_eq_findSome? module nested

/-- Validation reports the first fault among the places. -/
theorem formatFaultIn?_eq_findSome? (module : Text) : ∀ ts : List TypeDef,
    formatFaultIn? module ts = (placesOf ts).findSome? (TypeHead.placeFault? module)
  | [] => rfl
  | t :: ts => by
      rw [formatFaultIn?, placesOf, List.findSome?_append, formatFault?_eq_findSome? module t,
        formatFaultIn?_eq_findSome? module ts]
      cases t.places.findSome? (TypeHead.placeFault? module) with
      | some f => rfl
      | none => rfl
end

end TypeDef

/-- A method that is there and valid. -/
def MethodDef.Sound (o : Option MethodDef) : Prop := ∃ m, o = some m ∧ m.Valid

/-- A type that is there and valid. -/
def TypeHead.Sound (o : Option TypeHead) : Prop := ∃ t, o = some t ∧ t.Valid

theorem MethodDef.placeFault?_eq_none_iff {type : Text} {o : Option MethodDef} :
    placeFault? type o = none ↔ Sound o := by
  cases o with
  | none => simp [placeFault?, Sound]
  | some m => simp [placeFault?, Sound, formatFault?_eq_none_iff]

theorem TypeHead.placeFault?_eq_none_iff {module : Text} {o : Option TypeHead} :
    placeFault? module o = none ↔ Sound o := by
  cases o with
  | none => simp [placeFault?, Sound]
  | some t => simp [placeFault?, Sound, formatFault?_eq_none_iff]

theorem MethodDef.placeFault?_eq_emptyMethod_iff {type : Text} {o : Option MethodDef} :
    placeFault? type o = some .emptyMethod ↔ o = none := by
  cases o with
  | none => simp [placeFault?]
  | some m => simp [placeFault?]

/-- The type is sound up to an empty place for a method, and so are the methods in front of it. -/
structure TypeHead.Gapped (t : TypeHead) : Prop where
  named : t.name ≠ []
  generic : t.generic.length ≤ 65535
  base : t.base.Valid
  methods : ∃ before after, t.methods = before ++ none :: after ∧
    ∀ o ∈ before, MethodDef.Sound o

theorem TypeHead.formatFault?_eq_emptyMethod_iff {module : Text} {t : TypeHead} :
    t.formatFault? module = some .emptyMethod ↔ t.Gapped := by
  have hmethods : t.methods.findSome? (MethodDef.placeFault? t.name) = some .emptyMethod ↔
      ∃ before after, t.methods = before ++ none :: after ∧
        ∀ o ∈ before, MethodDef.Sound o := by
    rw [List.findSome?_eq_some_iff]
    constructor
    · rintro ⟨before, o, after, hsplit, ho, hbefore⟩
      rw [MethodDef.placeFault?_eq_emptyMethod_iff] at ho
      subst ho
      exact ⟨before, after, hsplit,
        fun o ho => MethodDef.placeFault?_eq_none_iff.mp (hbefore o ho)⟩
    · rintro ⟨before, after, hsplit, hbefore⟩
      exact ⟨before, none, after, hsplit, rfl,
        fun o ho => MethodDef.placeFault?_eq_none_iff.mpr (hbefore o ho)⟩
  unfold formatFault?
  constructor
  · intro h
    split at h
    · cases h
    · rename_i hname
      split at h
      · cases h
      · rename_i hgeneric
        split at h
        · cases h
        · rename_i hbase
          exact ⟨hname, Nat.le_of_not_lt hgeneric, (TypeRef.fault?_eq_none_iff _).mp hbase,
            hmethods.mp h⟩
  · intro h
    rw [if_neg h.named, if_neg (Nat.not_lt.mpr h.generic),
      (TypeRef.fault?_eq_none_iff _).mpr h.base]
    exact hmethods.mpr h.methods

theorem TypeHead.placeFault?_eq_emptyMethod_iff {module : Text} {o : Option TypeHead} :
    placeFault? module o = some .emptyMethod ↔ ∃ t, o = some t ∧ t.Gapped := by
  cases o with
  | none => simp [placeFault?]
  | some t => simp [placeFault?, formatFault?_eq_emptyMethod_iff]

namespace Module

/-- The module has a name and all its types are there and valid. -/
structure Valid (m : Module) : Prop where
  named : m.name ≠ []
  types : ∀ o ∈ TypeDef.placesOf m.types, TypeHead.Sound o

theorem formatFault?_eq_none_iff {m : Module} : m.formatFault? = none ↔ m.Valid := by
  have htypes : TypeDef.formatFaultIn? m.name m.types = none ↔
      ∀ o ∈ TypeDef.placesOf m.types, TypeHead.Sound o := by
    rw [TypeDef.formatFaultIn?_eq_findSome?, List.findSome?_eq_none_iff]
    simp only [TypeHead.placeFault?_eq_none_iff]
  unfold formatFault?
  constructor
  · intro h
    split at h
    · cases h
    · rename_i hname
      exact ⟨hname, htypes.mp h⟩
  · intro h
    rw [if_neg h.named]
    exact htypes.mpr h.types

/-- In the order of validation, the first thing that is not sound is an empty place for a method. -/
structure MeetsGap (m : Module) : Prop where
  named : m.name ≠ []
  types : ∃ before head after, TypeDef.placesOf m.types = before ++ some head :: after ∧
    (∀ o ∈ before, TypeHead.Sound o) ∧ head.Gapped

theorem formatFault?_eq_emptyMethod_iff {m : Module} :
    m.formatFault? = some .emptyMethod ↔ m.MeetsGap := by
  have htypes : TypeDef.formatFaultIn? m.name m.types = some .emptyMethod ↔
      ∃ before head after, TypeDef.placesOf m.types = before ++ some head :: after ∧
        (∀ o ∈ before, TypeHead.Sound o) ∧ head.Gapped := by
    rw [TypeDef.formatFaultIn?_eq_findSome?, List.findSome?_eq_some_iff]
    constructor
    · rintro ⟨before, o, after, hsplit, ho, hbefore⟩
      obtain ⟨head, rfl, hgapped⟩ := TypeHead.placeFault?_eq_emptyMethod_iff.mp ho
      exact ⟨before, head, after, hsplit,
        fun o ho => TypeHead.placeFault?_eq_none_iff.mp (hbefore o ho), hgapped⟩
    · rintro ⟨before, head, after, hsplit, hbefore, hgapped⟩
      exact ⟨before, some head, after, hsplit,
        TypeHead.placeFault?_eq_emptyMethod_iff.mpr ⟨head, rfl, hgapped⟩,
        fun o ho => TypeHead.placeFault?_eq_none_iff.mpr (hbefore o ho)⟩
  unfold formatFault?
  constructor
  · intro h
    split at h
    · cases h
    · rename_i hname
      exact ⟨hname, htypes.mp h⟩
  · intro h
    rw [if_neg h.named]
    exact htypes.mpr h.types

/-! ## What the bytes of a file are -/

/-- The document reads as a value, whatever follows it, and the value as the module. -/
def Documents (doc : List UInt8) (m : Module) : Prop :=
  ∃ v rest, Binary.Value.parse doc = some (v, rest) ∧ readValue v = some m

/-- The bytes are a file of the current schema with the module in its document. -/
def Holds (bytes : List UInt8) (m : Module) : Prop :=
  ∃ doc, bytes = mark ++ [1, 0] ++ doc ∧ Documents doc m

/-- What is wrong with bytes that are refused for a reason. -/
def Refused (bytes : List UInt8) : Refusal → Prop
  | .mark => ¬ ∃ lo hi doc, bytes = mark ++ lo :: hi :: doc
  | .schema => ∃ lo hi doc, bytes = mark ++ lo :: hi :: doc ∧ lo.toNat + 256 * hi.toNat ≠ schema
  | .document => ∃ doc, bytes = mark ++ [1, 0] ++ doc ∧ ∀ m, ¬ Documents doc m
  | .malformed => ∃ m, Holds bytes m ∧ ¬ m.Valid

/-- The bytes have the mark in front of a schema number and a document, or they lack it. -/
theorem header_cases (bytes : List UInt8) :
    (∃ lo hi doc, bytes = mark ++ lo :: hi :: doc ∧ decode bytes = decodeBody (lo :: hi :: doc)) ∨
      (¬ ∃ lo hi doc, bytes = mark ++ lo :: hi :: doc) ∧
        (decode bytes = .error .badMark ∨ decode bytes = .error .truncatedHeader) := by
  by_cases hmark : bytes.take 4 = mark
  · have hsplit : bytes = mark ++ bytes.drop 4 := by
      rw [← hmark, List.take_append_drop]
    have hdecode : decode bytes = decodeBody (bytes.drop 4) := by
      rw [decode, if_pos hmark]
    rcases hrest : bytes.drop 4 with _ | ⟨lo, _ | ⟨hi, doc⟩⟩
    -- Fewer than two bytes behind the mark are a header that breaks off.
    · refine Or.inr ⟨?_, Or.inr (by rw [hdecode, hrest, decodeBody]; simp)⟩
      rintro ⟨lo, hi, doc, rfl⟩
      simp [mark] at hrest
    · refine Or.inr ⟨?_, Or.inr (by rw [hdecode, hrest, decodeBody]; simp)⟩
      rintro ⟨lo, hi, doc, rfl⟩
      simp [mark] at hrest
    · exact Or.inl ⟨lo, hi, doc, by rw [hsplit, hrest], by rw [hdecode, hrest]⟩
  · refine Or.inr ⟨?_, Or.inl (by rw [decode, if_neg hmark])⟩
    rintro ⟨lo, hi, doc, rfl⟩
    exact hmark rfl

theorem current_schema {lo hi : UInt8} (h : lo.toNat + 256 * hi.toNat = schema) :
    lo = 1 ∧ hi = 0 := by
  have hlo := lo.toNat_lt
  have hhi := hi.toNat_lt
  rw [schema] at h
  constructor
  · apply UInt8.toNat_inj.mp
    show lo.toNat = 1
    omega
  · apply UInt8.toNat_inj.mp
    show hi.toNat = 0
    omega

theorem bind_readValue_eq_some_iff {doc : List UInt8} {m : Module} :
    ((Binary.Value.parse doc).bind fun (v, _) => readValue v) = some m ↔ Documents doc m := by
  rw [Option.bind_eq_some_iff]
  constructor
  · rintro ⟨⟨v, rest⟩, hparse, hread⟩
    exact ⟨v, rest, hparse, hread⟩
  · rintro ⟨v, rest, hparse, hread⟩
    exact ⟨(v, rest), hparse, hread⟩

theorem Documents.unique {doc : List UInt8} {m n : Module} (hm : Documents doc m)
    (hn : Documents doc n) : m = n := by
  rw [← bind_readValue_eq_some_iff] at hm hn
  rw [hm] at hn
  exact Option.some.inj hn

theorem Holds.unique {bytes : List UInt8} {m n : Module} (hm : Holds bytes m)
    (hn : Holds bytes n) : m = n := by
  obtain ⟨doc, rfl, hm⟩ := hm
  obtain ⟨doc', hdoc, hn⟩ := hn
  rw [List.append_cancel_left hdoc] at hm
  exact hm.unique hn

/-- Behind the mark and the current schema, the document alone decides. -/
theorem decodeBody_current (doc : List UInt8) :
    (decodeBody (1 :: 0 :: doc) = .error .undecodable ∧ ∀ m, ¬ Documents doc m) ∨
      ∃ m, Documents doc m ∧ decodeBody (1 :: 0 :: doc) =
        match m.formatFault? with
        | some f => .error (.malformed f)
        | none => .ok m := by
  have hcurrent : ¬ ((1 : UInt8).toNat + 256 * (0 : UInt8).toNat ≠ schema) := by decide
  rw [decodeBody]
  dsimp only
  rw [if_neg hcurrent]
  cases hread : (Binary.Value.parse doc).bind fun (v, _) => readValue v with
  | none =>
      refine Or.inl ⟨rfl, ?_⟩
      intro m hm
      rw [← bind_readValue_eq_some_iff, hread] at hm
      cases hm
  | some m => exact Or.inr ⟨m, bind_readValue_eq_some_iff.mp hread, rfl⟩

/-- Every end of reading: a reason to refuse the bytes in front of the module, or the answer of
validation to the module that they hold. -/
theorem decode_cases (bytes : List UInt8) :
    (∃ e r, decode bytes = .error e ∧ e.refusal? = some r ∧ Refused bytes r ∧
      ∀ m, ¬ Holds bytes m) ∨
      ∃ m, Holds bytes m ∧ decode bytes =
        match m.formatFault? with
        | some f => .error (.malformed f)
        | none => .ok m := by
  rcases header_cases bytes with ⟨lo, hi, doc, hbytes, hdecode⟩ | ⟨hlacks, hdecode⟩
  · by_cases hschema : lo.toNat + 256 * hi.toNat = schema
    · obtain ⟨rfl, rfl⟩ := current_schema hschema
      rcases decodeBody_current doc with ⟨hbody, hnone⟩ | ⟨m, hm, hbody⟩
      · refine Or.inl ⟨_, .document, hdecode.trans hbody, rfl, ⟨doc, hbytes, hnone⟩, ?_⟩
        rintro m ⟨doc', hdoc', hm⟩
        have hsame : 1 :: 0 :: doc = 1 :: 0 :: doc' :=
          List.append_cancel_left (hbytes.symm.trans (hdoc'.trans (List.append_assoc _ _ _)))
        cases hsame
        exact hnone m hm
      · exact Or.inr ⟨m, ⟨doc, hbytes, hm⟩, hdecode.trans hbody⟩
    · refine Or.inl ⟨.schema (lo.toNat + 256 * hi.toNat), .schema, ?_, rfl,
        ⟨lo, hi, doc, hbytes, hschema⟩, ?_⟩
      · rw [hdecode, decodeBody]
        dsimp only
        rw [if_pos hschema]
      · rintro m ⟨doc', hdoc', -⟩
        have hsame : lo :: hi :: doc = 1 :: 0 :: doc' :=
          List.append_cancel_left (hbytes.symm.trans (hdoc'.trans (List.append_assoc _ _ _)))
        cases hsame
        exact hschema rfl
  · refine Or.inl ?_
    have hholds : ∀ m, ¬ Holds bytes m := by
      rintro m ⟨doc, hdoc, -⟩
      exact hlacks ⟨1, 0, doc, hdoc.trans (List.append_assoc _ _ _)⟩
    rcases hdecode with hdecode | hdecode
    · exact ⟨_, .mark, hdecode, rfl, hlacks, hholds⟩
    · exact ⟨_, .mark, hdecode, rfl, hlacks, hholds⟩

theorem refusal?_malformed {f : FormatFault} (h : f ≠ .emptyMethod) :
    (DecodeError.malformed f).refusal? = some .malformed := by
  cases f with
  | emptyMethod => exact absurd rfl h
  | _ => rfl

/-- Reading answers all bytes, with the valid module that they hold or with what is wrong with
them, except those whose first fault is an empty place for a method. -/
theorem decode_answers_iff (bytes : List UInt8) :
    ((∃ m, decode bytes = .ok m ∧ Holds bytes m ∧ m.Valid) ∨
      ∃ e r, decode bytes = .error e ∧ e.refusal? = some r ∧ Refused bytes r) ↔
      ¬ ∃ m, Holds bytes m ∧ m.MeetsGap := by
  constructor
  · rintro hanswer ⟨m, hholds, hgap⟩
    rcases decode_cases bytes with ⟨-, -, -, -, -, hnone⟩ | ⟨m', hholds', hdecode⟩
    · exact hnone m hholds
    · obtain rfl := hholds.unique hholds'
      rw [formatFault?_eq_emptyMethod_iff.mpr hgap] at hdecode
      rcases hanswer with ⟨n, hok, -⟩ | ⟨e, r, herror, hrefusal, -⟩
      · rw [hdecode] at hok
        cases hok
      · rw [hdecode] at herror
        cases herror
        cases hrefusal
  · intro hsound
    rcases decode_cases bytes with ⟨e, r, herror, hrefusal, hrefused, -⟩ | ⟨m, hholds, hdecode⟩
    · exact Or.inr ⟨e, r, herror, hrefusal, hrefused⟩
    · cases hfault : m.formatFault? with
      | none =>
          rw [hfault] at hdecode
          exact Or.inl ⟨m, hdecode, hholds, formatFault?_eq_none_iff.mp hfault⟩
      | some f =>
          rw [hfault] at hdecode
          have hf : f ≠ .emptyMethod := by
            rintro rfl
            exact hsound ⟨m, hholds, formatFault?_eq_emptyMethod_iff.mp hfault⟩
          refine Or.inr ⟨_, .malformed, hdecode, refusal?_malformed hf, m, hholds, ?_⟩
          intro hvalid
          rw [formatFault?_eq_none_iff.mpr hvalid] at hfault
          cases hfault

/-- A module whose one type has an empty place for a method. -/
def gapped : Module :=
  { name := "A", listed := some [.node { name := "T", methods := [none] } []] }

/-- The bytes of such a module are neither read nor refused. -/
theorem decode_gapped : ¬ ((∃ m, decode gapped.fileBytes = .ok m) ∨
    ∃ e r, decode gapped.fileBytes = .error e ∧ e.refusal? = some r) := by
  have hdecode : decode gapped.fileBytes = .error (.malformed .emptyMethod) := rfl
  rintro (⟨m, hok⟩ | ⟨e, r, herror, hrefusal⟩)
  · rw [hdecode] at hok
    cases hok
  · rw [hdecode] at herror
    cases herror
    cases hrefusal

end Module

end Monomorph
