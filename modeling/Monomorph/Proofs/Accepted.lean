import Monomorph.Module.Codec
import Monomorph.Module.Definition
import Monomorph.Proofs.Width

/-!
# What reading a module promises

The checks of the file format report the first broken rule. Here each check is turned into the
statement that nothing is broken, from a type reference up to a type, and then handed on to the
definitions of a module that was read: their base types and the references in their code obey the
rules of the format, and their argument lists are narrow.

Places differ in what they do with nothing. An argument of an instance and the declaring type of a
method must be there. A type operand, a base type and a type argument of a method may be missing,
which is what `TypeRef.Valid` says.
-/

namespace Monomorph

/-- The rules of the file format for the nodes of a reference, except that places may be empty if
`holes` says so. -/
def Rules.format (holes : Prop) : Rules where
  inst _ n := n ≠ 0
  leaf kind _ position param _ := kind = .definition ∨
    kind = .parameter ∧ (param = .type ∨ param = .method) ∧ TypeRef.fitsPosition position = true
  hole := holes

namespace TypeRef

/-- An empty place, or a reference that obeys the rules of the format throughout. -/
def Valid (t : TypeRef) : Prop := t = .absent ∨ t.Obeys (.format False)

theorem Obeys.allow_holes {t : TypeRef} (h : t.Obeys (.format False)) : t.Obeys (.format True) :=
  Obeys.imp (R := .format False) (S := .format True) (fun _ _ hinst => hinst)
    (fun _ _ _ _ _ hleaf => hleaf) (fun _ => trivial) h

theorem Valid.obeys {t : TypeRef} (h : t.Valid) : t.Obeys (.format True) := by
  rcases h with rfl | h
  · exact .hole trivial
  · exact h.allow_holes

theorem Valid.obeys_of_present {t : TypeRef} (h : t.Valid) (ht : t.isPresent = true) :
    t.Obeys (.format False) := by
  refine h.resolve_left ?_
  rintro rfl
  cases ht

theorem Obeys.placed {holes : Prop} {t : TypeRef} (h : t.Obeys (.format holes)) :
    t.Obeys .placed := by
  refine h.imp (fun _ _ _ => trivial) ?_ fun _ => trivial
  rintro kind name position param owner hleaf rfl
  rcases hleaf with hdef | ⟨-, -, hfits⟩
  · exact absurd hdef (by decide)
  · simpa [fitsPosition] using hfits

theorem Obeys.isPresent {t : TypeRef} (h : t.Obeys (.format False)) : t.isPresent = true := by
  cases h with
  | hole h => exact h.elim
  | inst => rfl
  | leaf => rfl

theorem argFault?_eq_none_iff {name : Text} {args : List TypeRef} :
    argFault? name args = none ↔ ∀ a ∈ args, a.isPresent = true ∧ a.fault? = none := by
  induction args with
  | nil => simp [argFault?]
  | cons a args ih =>
      rw [argFault?, List.forall_mem_cons, ← ih]
      cases hp : a.isPresent with
      | false => simp
      | true =>
          cases hf : a.fault? with
          | none => simp
          | some f => simp

theorem inst_fault?_eq_none_iff {name : Text} {args : List TypeRef} {position : Int64}
    {param : ParamKind} {owner : Text} (ih : ∀ a ∈ args, a.fault? = none ↔ a.Valid) :
    fault? (.node .inst name args position param owner) = none ↔
      Obeys (.format False) (.node .inst name args position param owner) := by
  have hd : ¬ TypeKind.inst = .definition := by decide
  rw [fault?, if_neg hd, if_pos rfl]
  constructor
  · intro h
    split at h
    · cases h
    · rename_i hne
      have hlen : args.length ≠ 0 := by simpa using hne
      refine .inst hlen ?_
      intro a ha
      obtain ⟨hpresent, hfault⟩ := argFault?_eq_none_iff.mp h a ha
      exact ((ih a ha).mp hfault).obeys_of_present hpresent
  · intro h
    have hlen : args.length ≠ 0 := h.inst_rule rfl
    have hne : ¬ args.isEmpty = true := by simpa using hlen
    rw [if_neg hne, argFault?_eq_none_iff]
    intro a ha
    have hobeys := h.args rfl a ha
    exact ⟨hobeys.isPresent, (ih a ha).mpr (Or.inr hobeys)⟩

theorem parameter_fault?_eq_none_iff {name : Text} {args : List TypeRef} {position : Int64}
    {param : ParamKind} {owner : Text} :
    fault? (.node .parameter name args position param owner) = none ↔
      Obeys (.format False) (.node .parameter name args position param owner) := by
  have hd : ¬ TypeKind.parameter = .definition := by decide
  have hi : ¬ TypeKind.parameter = .inst := by decide
  rw [fault?, if_neg hd, if_neg hi, if_pos rfl]
  constructor
  · intro h
    split at h
    · cases h
    · rename_i hparam
      split at h
      · cases h
      · rename_i hfits
        refine .leaf hi (Or.inr ⟨rfl, ?_, by simpa using hfits⟩)
        by_contra hkind
        exact hparam (not_or.mp hkind)
  · intro h
    cases h with
    | leaf _ h =>
        rcases h with h | ⟨-, hparam, hfits⟩
        · exact absurd h hd
        · rw [if_neg (by tauto), if_neg (by simpa using hfits)]

/-- A reference breaks no rule exactly if it is valid. -/
theorem fault?_eq_none_iff (t : TypeRef) : t.fault? = none ↔ t.Valid := by
  induction t using TypeRef.induction with
  | absent => exact ⟨fun _ => Or.inl rfl, fun _ => rfl⟩
  | node kind name args position param owner ih =>
      have hvalid : (node kind name args position param owner).Valid ↔
          (node kind name args position param owner).Obeys (.format False) := by
        simp [Valid]
      rw [hvalid]
      by_cases hd : kind = .definition
      · subst hd
        rw [fault?, if_pos rfl]
        exact ⟨fun _ => .leaf (by decide) (Or.inl rfl), fun _ => rfl⟩
      by_cases hi : kind = .inst
      · subst hi
        exact inst_fault?_eq_none_iff ih
      by_cases hp : kind = .parameter
      · subst hp
        exact parameter_fault?_eq_none_iff
      -- A kind that is none of the three breaks a rule by itself, and no rule allows it.
      rw [fault?, if_neg hd, if_neg hi, if_neg hp]
      refine ⟨fun h => (nomatch h), ?_⟩
      intro h
      cases h with
      | inst => exact absurd rfl hi
      | leaf _ h =>
          rcases h with h | h
          · exact absurd h hd
          · exact absurd h.1 hp

theorem findSome?_fault?_eq_none_iff {ts : List TypeRef} :
    ts.findSome? fault? = none ↔ ∀ t ∈ ts, t.Valid := by
  simp only [List.findSome?_eq_none_iff, fault?_eq_none_iff]

end TypeRef

/-! ## Code -/

/-- The declaring type is there and obeys the rules; the type arguments may be missing. -/
structure MethodRef.Valid (r : MethodRef) : Prop where
  declaring : r.declaring.Obeys (.format False)
  typeArgs : ∀ a ∈ r.typeArgs, a.Valid

/-- The operation is known and the references of the operand are valid. -/
structure Instruction.Valid (i : Instruction) : Prop where
  known : i.op.isKnown = true
  type : i.operand.type.Valid
  method : ∀ r ∈ i.operand.method, r.Valid

theorem Instruction.formatFault?_eq_none_iff {index : Nat} {i : Instruction} :
    i.formatFault? index = none ↔ i.Valid := by
  unfold formatFault?
  constructor
  · intro h
    split at h
    · cases h
    · rename_i hknown
      split at h
      · cases h
      · rename_i htype
        refine ⟨by simpa using hknown, (TypeRef.fault?_eq_none_iff _).mp htype, ?_⟩
        intro r hr
        rw [Option.mem_def.mp hr] at h
        dsimp only at h
        split at h
        · cases h
        · rename_i hpresent
          rw [Option.map_eq_none_iff, TypeRef.findSome?_fault?_eq_none_iff] at h
          obtain ⟨hdecl, hargs⟩ := List.forall_mem_cons.mp h
          refine ⟨hdecl.resolve_left ?_, hargs⟩
          intro habsent
          simp [habsent, TypeRef.isPresent] at hpresent
  · intro h
    rw [if_neg (by simp [h.known]), (TypeRef.fault?_eq_none_iff _).mpr h.type]
    cases hm : i.operand.method with
    | none => rfl
    | some r =>
        have hr := h.method r hm
        dsimp only
        rw [if_neg (by simp [hr.declaring.isPresent]), Option.map_eq_none_iff,
          TypeRef.findSome?_fault?_eq_none_iff]
        exact List.forall_mem_cons.mpr ⟨Or.inr hr.declaring, hr.typeArgs⟩

/-- The locals and the instructions are valid. -/
structure Body.Valid (b : Body) : Prop where
  locals : ∀ t ∈ b.locals, t.Valid
  code : ∀ i ∈ b.code, i.Valid

theorem Body.formatFault?_eq_none_iff {b : Body} : b.formatFault? = none ↔ b.Valid := by
  have hcode : (b.code.mapIdx fun k c => c.formatFault? k).findSome? id = none ↔
      ∀ i ∈ b.code, i.Valid := by
    rw [List.findSome?_eq_none_iff]
    constructor
    · intro h i hi
      obtain ⟨k, hk, rfl⟩ := List.getElem_of_mem hi
      exact Instruction.formatFault?_eq_none_iff.mp
        (h _ (List.mem_mapIdx.mpr ⟨k, hk, rfl⟩))
    · intro h o ho
      obtain ⟨k, hk, rfl⟩ := List.mem_mapIdx.mp ho
      exact Instruction.formatFault?_eq_none_iff.mpr (h _ (List.getElem_mem hk))
  unfold formatFault?
  constructor
  · intro h
    split at h
    · cases h
    · rename_i hlocals
      exact ⟨TypeRef.findSome?_fault?_eq_none_iff.mp hlocals, hcode.mp h⟩
  · intro h
    rw [TypeRef.findSome?_fault?_eq_none_iff.mpr h.locals]
    exact hcode.mpr h.code

/-- The method has a name, and its parameters and its body are valid. -/
structure MethodDef.Valid (m : MethodDef) : Prop where
  named : m.name ≠ []
  params : ∀ t ∈ m.params, t.Valid
  body : ∀ b ∈ m.body, b.Valid

theorem MethodDef.formatFault?_eq_none_iff {m : MethodDef} : m.formatFault? = none ↔ m.Valid := by
  unfold formatFault?
  constructor
  · intro h
    split at h
    · cases h
    · rename_i hname
      split at h
      · cases h
      · rename_i hparams
        refine ⟨hname, TypeRef.findSome?_fault?_eq_none_iff.mp hparams, ?_⟩
        intro b hb
        rw [Option.mem_def.mp hb] at h
        exact Body.formatFault?_eq_none_iff.mp h
  · intro h
    rw [if_neg h.named, TypeRef.findSome?_fault?_eq_none_iff.mpr h.params]
    cases hb : m.body with
    | none => rfl
    | some b => exact Body.formatFault?_eq_none_iff.mpr (h.body b hb)

theorem MethodDef.Valid.code {m : MethodDef} (h : m.Valid) : ∀ i ∈ m.code, i.Valid := by
  intro i hi
  cases hb : m.body with
  | none => simp [MethodDef.code, hb] at hi
  | some b =>
      rw [MethodDef.code, hb] at hi
      exact (h.body b hb).code i hi

theorem MethodDef.Narrow.code {m : MethodDef} (h : m.Narrow) : ∀ i ∈ m.code, i.Narrow := by
  intro i hi
  cases hb : m.body with
  | none => simp [MethodDef.code, hb] at hi
  | some b =>
      rw [MethodDef.code, hb] at hi
      exact (h.body b hb).code i hi

/-! ## Types and modules -/

/-- The type has a name and not too many parameters, its base type is valid, and its methods are
there and valid. -/
structure TypeHead.Valid (t : TypeHead) : Prop where
  named : t.name ≠ []
  generic : t.generic.length ≤ 65535
  base : t.base.Valid
  methods : ∀ o ∈ t.methods, ∃ m, o = some m ∧ m.Valid

theorem TypeHead.formatFault?_eq_none_iff {module : Text} {t : TypeHead} :
    t.formatFault? module = none ↔ t.Valid := by
  have hplace : ∀ o : Option MethodDef, MethodDef.placeFault? t.name o = none ↔
      ∃ m, o = some m ∧ m.Valid := by
    intro o
    cases o with
    | none => simp [MethodDef.placeFault?]
    | some m => simp [MethodDef.placeFault?, MethodDef.formatFault?_eq_none_iff]
  unfold formatFault?
  constructor
  · intro h
    split at h
    · cases h
    · rename_i hname
      split at h
      · cases h
      · rename_i hgeneric
        split at h
        · cases h
        · rename_i hbase
          refine ⟨hname, Nat.le_of_not_lt hgeneric, (TypeRef.fault?_eq_none_iff _).mp hbase, ?_⟩
          intro o ho
          exact (hplace o).mp (List.findSome?_eq_none_iff.mp h o ho)
  · intro h
    rw [if_neg h.named, if_neg (Nat.not_lt.mpr h.generic),
      (TypeRef.fault?_eq_none_iff _).mpr h.base]
    exact List.findSome?_eq_none_iff.mpr fun o ho => (hplace o).mpr (h.methods o ho)

namespace TypeDef

mutual
theorem every_of_formatFault? {module : Text} : ∀ {t : TypeDef},
    t.formatFault? module = none → t.Every TypeHead.Valid
  | .absent, _ => .absent
  | .node head nested, h => by
      rw [TypeDef.formatFault?] at h
      split at h
      · cases h
      · rename_i hhead
        exact .node (TypeHead.formatFault?_eq_none_iff.mp hhead) (every_of_formatFaultIn? h)

theorem every_of_formatFaultIn? {module : Text} : ∀ {ts : List TypeDef},
    formatFaultIn? module ts = none → ∀ t ∈ ts, t.Every TypeHead.Valid
  | [], _ => by simp
  | t :: ts, h => by
      rw [formatFaultIn?] at h
      split at h
      · cases h
      · rename_i hfirst
        have ht := every_of_formatFault? hfirst
        have hts := every_of_formatFaultIn? h
        exact List.forall_mem_cons.mpr ⟨ht, hts⟩
end

theorem definitionsOf_eq_flatMap (moduleName : Text) (outer : Option Text) (ts : List TypeDef) :
    definitionsOf moduleName outer ts = ts.flatMap (definitions moduleName outer) := by
  induction ts with
  | nil => rfl
  | cons t ts ih => rw [definitionsOf, ih, List.flatMap_cons]

/-- What holds of every type of a forest holds of every definition. -/
theorem Every.definitions {P : TypeHead → Prop} {moduleName : Text} {t : TypeDef}
    (h : t.Every P) : ∀ {outer : Option Text}, ∀ d ∈ t.definitions moduleName outer,
      P d.head ∧ ∀ x ∈ d.members, some x.method ∈ d.head.methods := by
  induction h with
  | absent => simp [TypeDef.definitions]
  | @node head nested h hnested ih =>
      intro outer d hd
      have hinner : ∀ {outer : Option Text}, ∀ d ∈ definitionsOf moduleName outer nested,
          P d.head ∧ ∀ x ∈ d.members, some x.method ∈ d.head.methods := by
        intro outer d hd
        rw [definitionsOf_eq_flatMap] at hd
        obtain ⟨u, hu, hd⟩ := List.mem_flatMap.mp hd
        exact ih u hu d hd
      rw [TypeDef.definitions] at hd
      split at hd
      · exact hinner d hd
      · rcases List.mem_cons.mp hd with rfl | hd
        · refine ⟨h, ?_⟩
          intro x hx
          obtain ⟨o, ho, hox⟩ := List.mem_filterMap.mp hx
          obtain ⟨m, rfl, rfl⟩ := Option.map_eq_some_iff.mp hox
          exact ho
        · exact hinner d hd

end TypeDef

/-- What reading promises about a definition. -/
structure Definition.Accepted (d : Definition) : Prop where
  base : d.head.base.Valid
  narrow : d.head.base.Narrow
  code : ∀ x ∈ d.members, ∀ i ∈ x.method.code, i.Valid ∧ i.Narrow

namespace Module

theorem definitions_of_every {P : TypeHead → Prop} {m : Module} (h : ∀ t ∈ m.types, t.Every P) :
    ∀ d ∈ m.definitions, P d.head ∧ ∀ x ∈ d.members, some x.method ∈ d.head.methods := by
  intro d hd
  rw [definitions, TypeDef.definitionsOf_eq_flatMap] at hd
  obtain ⟨t, ht, hd⟩ := List.mem_flatMap.mp hd
  exact (h t ht).definitions d hd

theorem eq_ok_of_toOption {r : Except DecodeError Module} {m : Module}
    (h : r.toOption = some m) : r = .ok m := by
  cases r with
  | error e => cases h
  | ok m' =>
      cases h
      rfl

/-- A module that was read breaks no rule and came off a narrow value. -/
theorem checked_of_decode {bytes : List UInt8} {m : Module} (h : decode bytes = .ok m) :
    m.formatFault? = none ∧ m.Narrow := by
  unfold decode at h
  split at h
  · unfold decodeBody at h
    split at h
    · dsimp only at h
      split at h
      · cases h
      · split at h
        · cases h
        · rename_i m' hread
          obtain ⟨⟨v, rest⟩, hparse, hvalue⟩ := Option.bind_eq_some_iff.mp hread
          split at h
          · cases h
          · rename_i hfault
            cases h
            exact ⟨hfault, readValue_narrow (Binary.Value.parse_narrow hparse) hvalue⟩
    · cases h
  · cases h

/-- The definitions of a module that was read keep the promises. -/
theorem accepted_of_decode {bytes : List UInt8} {m : Module} (h : decode bytes = .ok m) :
    ∀ d ∈ m.definitions, d.Accepted := by
  obtain ⟨hfault, hnarrow⟩ := checked_of_decode h
  have hvalid : ∀ t ∈ m.types, t.Every TypeHead.Valid := by
    unfold formatFault? at hfault
    split at hfault
    · cases hfault
    · exact TypeDef.every_of_formatFaultIn? hfault
  intro d hd
  obtain ⟨hhead, hmembers⟩ := definitions_of_every hvalid d hd
  obtain ⟨hnarrowHead, -⟩ :=
    definitions_of_every (fun t ht => (hnarrow.types.2 t ht).every) d hd
  refine ⟨hhead.base, hnarrowHead.base, ?_⟩
  intro x hx i hi
  have hmethod := hmembers x hx
  obtain ⟨m', hm', hvalid'⟩ := hhead.methods _ hmethod
  cases hm'
  exact ⟨hvalid'.code i hi, (hnarrowHead.methods _ hmethod _ rfl).code i hi⟩

end Module

end Monomorph
