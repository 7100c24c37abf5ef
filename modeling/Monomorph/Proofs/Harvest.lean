import Mathlib.Data.List.Perm.Basic
import Monomorph.Proofs.Emission
import Monomorph.Proofs.Links
import Monomorph.Proofs.Pooled
import Monomorph.Proofs.RoundTrip

/-!
# Harvesting the synthetic module

The synthetic module mentions each of the types it was built for, as an operand or as the declaring
type of a constructor, and no other concrete instance. Harvesting it therefore gives the types back
by name, and since it survives writing and reading, so does harvesting the file.
-/

namespace Monomorph

/-! ## What code mentions -/

/-- A concrete instance of that name. -/
def TypeRef.InstanceNamed (t : TypeRef) (name : Text) : Prop :=
  t.isInstance = true ∧ t.isConcrete = true ∧ t.fullName = name

/-- The instruction mentions a concrete instance of that name. -/
def Instruction.Uses (i : Instruction) (name : Text) : Prop :=
  i.operand.type.InstanceNamed name ∨
    ∃ r, i.operand.method = some r ∧ r.declaring.InstanceNamed name

/-- Where no definition derives from an instance, the code decides what is harvested. -/
theorem Pool.mem_names_ofModule {m : Module}
    (hbase : ∀ d ∈ m.definitions, d.head.base.isInstance = false) {name : Text} :
    name ∈ (ofModule m).names ↔ ∃ i ∈ instructions m.definitions, i.Uses name := by
  rw [ofModule, ofList, mem_names_addAll]
  constructor
  · rintro (h | ⟨t, ht, hconc, hname⟩)
    · simp [names] at h
    · obtain ⟨hinst, ⟨i, hi, rfl | ⟨r, hr, rfl⟩⟩ | ⟨d, hd, -, rfl⟩⟩ := mem_mentioned_iff.mp ht
      · exact ⟨i, hi, Or.inl ⟨hinst, hconc, hname⟩⟩
      · exact ⟨i, hi, Or.inr ⟨r, hr, hinst, hconc, hname⟩⟩
      · rw [hbase d hd] at hinst
        cases hinst
  · rintro ⟨i, hi, ⟨hinst, hconc, hname⟩ | ⟨r, hr, hinst, hconc, hname⟩⟩
    · exact Or.inr ⟨_, mem_mentioned_iff.mpr ⟨hinst, Or.inl ⟨i, hi, Or.inl rfl⟩⟩, hconc, hname⟩
    · exact Or.inr
        ⟨_, mem_mentioned_iff.mpr ⟨hinst, Or.inl ⟨i, hi, Or.inr ⟨r, hr, rfl⟩⟩⟩, hconc, hname⟩

/-! ## Linked registries -/

theorem TypeDef.linked_definitions (module : Text) (outer : Option Text) (t : TypeDef) :
    ∀ d ∈ t.definitions module outer, ∀ x ∈ d.members, x.owner = some d.owner := by
  induction t using TypeDef.induction generalizing outer with
  | absent => simp [definitions]
  | node head nested ih =>
      intro d hd x hx
      have hinner : ∀ outer, ∀ d ∈ definitionsOf module outer nested, ∀ x ∈ d.members,
          x.owner = some d.owner := by
        intro outer d hd
        rw [definitionsOf_eq_flatMap] at hd
        obtain ⟨t, ht, hd⟩ := List.mem_flatMap.mp hd
        exact ih t ht outer d hd
      rw [definitions] at hd
      split at hd
      · exact hinner _ d hd x hx
      · rcases List.mem_cons.mp hd with rfl | hd
        · obtain ⟨o, -, hox⟩ := List.mem_filterMap.mp hx
          obtain ⟨m, -, rfl⟩ := Option.map_eq_some_iff.mp hox
          rfl
        · exact hinner _ d hd x hx

/-- Every method of the registry is linked to the definition that it stands in. -/
def Registry.Linked (r : Registry) : Prop :=
  ∀ d ∈ r.definitions, ∀ x ∈ d.members, x.owner = some d.owner

theorem Registry.linked_ofModules (modules : List (Option Module)) : (ofModules modules).Linked := by
  intro d hd
  obtain ⟨m, -, hd⟩ := mem_definitions_iff.mp hd
  rw [Module.definitions, TypeDef.definitionsOf_eq_flatMap] at hd
  obtain ⟨t, -, hd⟩ := List.mem_flatMap.mp hd
  exact t.linked_definitions m.name none d hd

/-- Every method of the registry fits the format. -/
def Registry.Narrow (r : Registry) : Prop :=
  ∀ d ∈ r.definitions, ∀ x ∈ d.members, x.method.Narrow

theorem Registry.narrow_ofModules {modules : List (Option Module)}
    (h : ∀ m, some m ∈ modules → m.Narrow) : (ofModules modules).Narrow := by
  intro d hd x hx
  obtain ⟨m, hm, hd⟩ := mem_definitions_iff.mp hd
  obtain ⟨hhead, hmethods⟩ := Module.definitions_of_every
    (fun t ht => ((h m hm).types.2 t ht).every) d hd
  exact hhead.methods _ (hmethods x hx) x.method rfl

theorem Registry.fullName_of_resolveType? {r : Registry} {t : TypeRef} {d : Definition}
    (ht : t.isInstance = true) (h : r.resolveType? t = some d) : d.fullName = t.name := by
  unfold resolveType? at h
  split at h
  · cases h
  · have hfound : d.fullName = t.definitionName := by simpa using List.find?_some h
    cases t with
    | absent => cases ht
    | node kind name args position param owner =>
        have hk : kind = .inst := by simpa [TypeRef.isInstance] using ht
        subst hk
        exact hfound

namespace Emit

/-! ## The synthetic module -/

variable {r : Registry} {t : TypeRef}

/-- The constructor of an instance is a method of its definition, referred to on the instance. -/
theorem constructorRef?_eq (hr : r.Linked) {c : MethodRef} (ht : t.isInstance = true)
    (hargs : t.args ≠ []) (h : constructorRef? r t = some c) :
    ∃ d ∈ r.definitions, ∃ x ∈ d.members, c = x.refOn (.applied t.name t.args) := by
  unfold constructorRef? at h
  simp only [Option.bind_eq_bind, Option.bind_eq_some_iff] at h
  obtain ⟨d, hd, x, hx, h⟩ := h
  have hmem := Registry.mem_definitions_of_resolveType? hd
  obtain ⟨hxmem, -⟩ := List.mem_filter.mp (List.mem_of_find?_eq_some hx)
  refine ⟨d, hmem, x, hxmem, ?_⟩
  simp only [Member.instantiate, hr d hmem x hxmem] at h
  unfold Owner.instantiate at h
  split at h
  · cases h
  · rw [if_neg (by simpa using hargs)] at h
    cases h
    rw [← Registry.fullName_of_resolveType? ht hd]
    rfl

theorem instanceNamed_applied (ht : t.isInstance = true) {name : Text} :
    (TypeRef.applied t.name t.args).InstanceNamed name ↔ t.InstanceNamed name := by
  cases t with
  | absent => cases ht
  | node kind name args position param owner =>
      have hk : kind = .inst := by simpa [TypeRef.isInstance] using ht
      subst hk
      exact Iff.rfl

/-- The block of an instance uses the instance, and nothing else of its kind. -/
theorem uses_block (hr : r.Linked) (ht : t.isInstance = true) (hargs : t.args ≠ []) (n : Nat)
    (name : Text) :
    (∃ i ∈ block r n t, i.Uses name) ↔ t.InstanceNamed name := by
  have hplain : ¬ TypeRef.absent.InstanceNamed name := by
    rintro ⟨h, -⟩
    cases h
  have hobject : ¬ toStringRef.declaring.InstanceNamed name := by
    rintro ⟨h, -⟩
    cases h
  unfold block
  split
  · rename_i c hc
    obtain ⟨d, -, x, -, rfl⟩ := constructorRef?_eq hr ht hargs hc
    simp [Instruction.Uses, hplain, Member.refOn, instanceNamed_applied ht]
  · simp [Instruction.Uses, loadLocal, hplain, hobject]

/-- Touching an instance adds its name to what the code uses. -/
theorem uses_touch (hr : r.Linked) (ht : t.isInstance = true) (hargs : t.args ≠ []) (b : Body)
    (name : Text) :
    (∃ i ∈ (touch r b t).code, i.Uses name) ↔
      (∃ i ∈ b.code, i.Uses name) ∨ t.InstanceNamed name := by
  have hcode : (touch r b t).code =
      b.code ++ block r b.locals.length t := by
    unfold touch
    split <;> rfl
  simp only [hcode, List.mem_append, or_and_right, exists_or, uses_block hr ht hargs]

theorem uses_foldl_touch (hr : r.Linked) {ts : List TypeRef}
    (hts : ∀ t ∈ ts, t.isInstance = true ∧ t.args ≠ []) (name : Text) (b : Body) :
    (∃ i ∈ (ts.foldl (touch r) b).code, i.Uses name) ↔
      (∃ i ∈ b.code, i.Uses name) ∨ ∃ t ∈ ts, t.InstanceNamed name := by
  induction ts generalizing b with
  | nil => simp
  | cons t ts ih =>
      obtain ⟨⟨ht, hargs⟩, hts⟩ := List.forall_mem_cons.mp hts
      rw [List.foldl_cons, ih hts, uses_touch hr ht hargs, List.exists_mem_cons_iff, or_assoc]

theorem not_uses_ret (name : Text) : ¬ ({ op := .ret } : Instruction).Uses name := by
  rintro (⟨h, -⟩ | ⟨r, h, -⟩) <;> cases h

/-- The body that touches instances uses exactly these. -/
theorem uses_entryBody (hr : r.Linked) {ts : List TypeRef}
    (hts : ∀ t ∈ ts, t.isInstance = true ∧ t.args ≠ [])
    (name : Text) :
    (∃ i ∈ (entryBody r ts).code, i.Uses name) ↔
      ∃ t ∈ ts, t.InstanceNamed name := by
  have hcode : (entryBody r ts).code =
      (ts.foldl (touch r) {}).code ++ [{ op := .ret }] := rfl
  simp only [hcode, List.mem_append, or_and_right, exists_or, uses_foldl_touch hr hts]
  simp [not_uses_ret, Body.code]

/-- The one class of the synthetic module. -/
def entryHead (r : Registry) (name : Text) (ts : List TypeRef) : TypeHead :=
  { TypeDef.newClass name name [] with
    base := .define systemObject,
    methods := [some (MethodDef.newConstructor []),
      some { MethodDef.new name MethodAttr.isStatic [] with
        attributes := [preserveAttribute], body := some (entryBody r ts) }] }

theorem build_eq {name : Text} {ts : List TypeRef} {r : Registry} (hname : name ≠ [])
    (h : ∀ t ∈ ts, t.isConcrete = true) :
    build name ts r = .ok (Module.new name [.node (entryHead r name ts) []]) := by
  unfold build
  rw [if_neg hname, firstGeneric?_eq_none h]
  rfl

/-- The synthetic module has one definition, whose code is that of its two methods. -/
theorem definitions_entry (r : Registry) {name : Text} (hplace : name ≠ placeholderName)
    (ts : List TypeRef) :
    ∃ d : Definition, (Module.new name [.node (entryHead r name ts) []]).definitions = [d] ∧
      d.head.base.isInstance = false ∧
      Pool.instructions [d] = { op := .ret } :: (entryBody r ts).code := by
  have hname : ¬ (entryHead r name ts).name = placeholderName := hplace
  rw [Module.definitions, Module.new, Module.types, Option.getD_some, TypeDef.definitionsOf,
    TypeDef.definitionsOf, TypeDef.definitionsOf, TypeDef.definitions, TypeDef.definitions,
    if_pos rfl, if_neg hname]
  refine ⟨_, rfl, rfl, ?_⟩
  show [{ op := .ret }] ++ ((entryBody r ts).code ++ []) ++ [] = _
  simp

/-- The synthetic module mentions the types it was built for, and no other instance. -/
theorem mem_names_entry (hr : r.Linked) {name : Text} (hplace : name ≠ placeholderName)
    {ts : List TypeRef} (hts : ∀ t ∈ ts, t.isInstance = true ∧ t.args ≠ []) (n : Text) :
    n ∈ (Pool.ofModule
        (Module.new name [.node (entryHead r name ts) []])).names ↔
      ∃ t ∈ ts, t.InstanceNamed n := by
  obtain ⟨d, hdefs, hbase, hcode⟩ := definitions_entry r hplace ts
  rw [Pool.mem_names_ofModule (by simpa [hdefs] using hbase), hdefs, hcode,
    List.exists_mem_cons_iff, uses_entryBody hr hts]
  simp [not_uses_ret]

/-! ## The size of the synthetic module -/

theorem constructorRef?_narrow {c : MethodRef} (hr : r.Linked) (hmethods : r.Narrow)
    (ht : t.isInstance = true) (hargs : t.args ≠ []) (hnarrow : t.Narrow)
    (h : constructorRef? r t = some c) : c.Narrow := by
  obtain ⟨d, hd, x, hx, rfl⟩ := constructorRef?_eq hr ht hargs h
  have hx := hmethods d hd x hx
  have hdecl : (TypeRef.applied t.name t.args).Narrow := by
    cases hnarrow with
    | absent => cases ht
    | node hname hlen hnarrow _ => exact .node hname hlen hnarrow (by decide)
  exact ⟨hx.name, hdecl, hx.params, hx.ret, TypeRef.narrowList_nil⟩

/-- The code and the locals of the body are narrow, with at most so many locals and seven times as
many instructions. -/
def Small (n : Nat) (b : Body) : Prop :=
  b.locals.length ≤ n ∧ (∀ t ∈ b.locals, t.Narrow) ∧ b.code.length ≤ 7 * n ∧
    ∀ i ∈ b.code, i.Narrow

theorem plain_narrow (op : OpCode) (int : Int64) :
    ({ op, operand := { int } } : Instruction).Narrow := ⟨.absent, by simp, by simp⟩

theorem block_narrow (hr : r.Linked) (hmethods : r.Narrow) (ht : t.isInstance = true)
    (hargs : t.args ≠ []) (hnarrow : t.Narrow) (n : Nat) :
    ∀ i ∈ block r n t, i.Narrow := by
  have hplain : ∀ op, ({ op } : Instruction).Narrow := fun op => plain_narrow op 0
  have htype : ∀ op, ({ op, operand := { type := t } } : Instruction).Narrow :=
    fun op => ⟨hnarrow, by simp, by simp⟩
  have hobject : (TypeRef.define systemObject).Narrow :=
    .node (by decide) (by decide) (by simp) (by decide)
  have hstring : (TypeRef.define systemString).Narrow :=
    .node (by decide) (by decide) (by simp) (by decide)
  have hcall : toStringRef.Narrow :=
    ⟨by decide, hobject, TypeRef.narrowList_nil, hstring, TypeRef.narrowList_nil⟩
  have hmethod : ∀ op r, r.Narrow →
      ({ op, operand := { method := some r } } : Instruction).Narrow :=
    fun op r hr => ⟨.absent, by simpa using hr, by simp⟩
  unfold block
  split
  · rename_i c hc
    have hc := constructorRef?_narrow hr hmethods ht hargs hnarrow hc
    simpa using ⟨hplain _, hmethod _ c hc, hplain _⟩
  · simpa using
      ⟨hplain _, plain_narrow _ _, hplain _, htype _, htype _, hmethod _ _ hcall, hplain _⟩

theorem small_touch (hr : r.Linked) (hmethods : r.Narrow) (ht : t.isInstance = true)
    (hargs : t.args ≠ []) (hnarrow : t.Narrow) {n : Nat} {b : Body} (h : Small n b) :
    Small (n + 1) (touch r b t) := by
  obtain ⟨hlocals, hlocals', hlen, hcode⟩ := h
  have hblock := block_narrow hr hmethods ht hargs hnarrow b.locals.length
  have hcode' := List.forall_mem_append.mpr ⟨hcode, hblock⟩
  have hlen' : (b.code ++ block r b.locals.length t).length
      ≤ 7 * (n + 1) := by
    have hseven : (block r b.locals.length t).length ≤ 7 := by
      unfold block
      split <;> simp
    rw [List.length_append]
    omega
  unfold touch
  split
  · exact ⟨Nat.le_succ_of_le hlocals, hlocals', hlen', hcode'⟩
  · refine ⟨by simpa using hlocals, ?_, hlen', hcode'⟩
    exact List.forall_mem_append.mpr ⟨hlocals', by simpa using hnarrow⟩

theorem small_foldl_touch (hr : r.Linked) (hmethods : r.Narrow) {ts : List TypeRef}
    (hts : ∀ t ∈ ts, (t.isInstance = true ∧ t.args ≠ []) ∧ t.Narrow) {n : Nat} {b : Body}
    (h : Small n b) :
    Small (n + ts.length) (ts.foldl (touch r) b) := by
  induction ts generalizing n b with
  | nil => exact h
  | cons t ts ih =>
      obtain ⟨⟨⟨ht, hargs⟩, hnarrow⟩, hts⟩ := List.forall_mem_cons.mp hts
      have hrest := ih hts (small_touch hr hmethods ht hargs hnarrow h)
      rw [List.foldl_cons, List.length_cons, Nat.add_comm ts.length, ← Nat.add_assoc]
      exact hrest

/-- The synthetic module of narrow types is narrow, unless there are some six hundred million of
them. -/
theorem entry_narrow (hr : r.Linked) (hmethods : r.Narrow) {name : Text}
    (hname : name.length < 4294967296) {ts : List TypeRef}
    (hts : ∀ t ∈ ts, (t.isInstance = true ∧ t.args ≠ []) ∧ t.Narrow)
    (hcount : 7 * ts.length + 1 < 4294967296) :
    (Module.new name
      [.node (entryHead r name ts) []]).Narrow := by
  have hsmall : Small 0 {} := ⟨by simp, by simp, by simp [Body.code], by simp [Body.code]⟩
  obtain ⟨hlocals, hlocals', hlen, hcode⟩ := small_foldl_touch hr hmethods hts hsmall
  rw [Nat.zero_add] at hlocals hlen
  have hbody : (entryBody r ts).Narrow := by
    refine ⟨⟨?_, hlocals'⟩, ?_, ?_⟩
    · exact Nat.lt_of_le_of_lt hlocals (by omega)
    · rw [entryBody, Body.emit, Body.code, Option.getD_some, List.length_append,
        List.length_singleton]
      omega
    · exact List.forall_mem_append.mpr ⟨hcode, by simpa using plain_narrow .ret 0⟩
  have hvoid : (TypeRef.define systemVoid).Narrow :=
    .node (by decide) (by decide) (by simp) (by decide)
  have hobject : (TypeRef.define systemObject).Narrow :=
    .node (by decide) (by decide) (by simp) (by decide)
  have hctor : (MethodDef.newConstructor []).Narrow := by
    refine ⟨by decide, Binary.narrowTexts_nil, TypeRef.narrowList_nil, hvoid,
      Binary.narrowTexts_nil, ?_⟩
    intro b hb
    cases hb
    refine ⟨TypeRef.narrowList_nil, by simp [Body.code], ?_⟩
    simpa [Body.code] using plain_narrow .ret 0
  have hentry : ({ MethodDef.new name MethodAttr.isStatic [] with
      attributes := [preserveAttribute],
      body := some (entryBody r ts) } : MethodDef).Narrow := by
    refine ⟨hname, Binary.narrowTexts_nil, TypeRef.narrowList_nil, hvoid, ⟨by simp, ?_⟩, ?_⟩
    · simp only [List.mem_singleton, forall_eq]
      decide
    · intro b hb
      cases hb
      exact hbody
  have hhead : (entryHead r name ts).Narrow := by
    refine ⟨hname, hname, Binary.narrowTexts_nil, hobject, by simp [entryHead], ?_⟩
    simpa [entryHead] using ⟨hctor, hentry⟩
  have hplace : ({ name := placeholderName } : TypeHead).Narrow :=
    { TypeHead.blank_narrow with name := by decide }
  have hversion : Module.firstVersion.length < 4294967296 := by decide
  refine ⟨hname, hversion, by simp [Module.new, Module.types], ?_⟩
  simpa [Module.new, Module.types] using
    ⟨TypeDef.Narrow.node hplace (by decide) (by simp), .node hhead (by decide) (by simp)⟩

end Emit

/-- **The synthetic module mentions exactly the resolved types.** Take a registry whose methods are
linked to the definitions they stand in, and concrete instances of different names that the format
accepts. The module that touches them is built and written, and harvesting it finds them again,
whether it went through a constructor or through a local: the pool has their names, each once, and
no other. Harvesting the file gives the same names, as long as the module has no text and no list
too long for the format. -/
theorem harvest_build {r : Registry} (hr : r.Linked) (name : Text) (hname : name ≠ [])
    (hplace : name ≠ placeholderName) (ts : List TypeRef)
    (hts : ∀ t ∈ ts, t.isInstance = true ∧ t.isConcrete = true ∧ t.fault? = none)
    (hnodup : (ts.map TypeRef.fullName).Nodup) :
    ∃ m bytes, Emit.build name ts r = .ok m ∧
      m.encode = .ok bytes ∧
      (Pool.ofModule m).names.Perm (ts.map TypeRef.fullName) ∧
      (m.Narrow → ∃ m', Module.decode bytes = .ok m' ∧
        (Pool.ofModule m').names.Perm (ts.map TypeRef.fullName)) := by
  have hobeys : ∀ t ∈ ts, t.Obeys (.format False) := by
    intro t ht
    obtain ⟨hinst, -, hfault⟩ := hts t ht
    exact ((TypeRef.fault?_eq_none_iff t).mp hfault).obeys_of_present
      (TypeRef.isPresent_of_isInstance hinst)
  have hinst : ∀ t ∈ ts, t.isInstance = true ∧ t.args ≠ [] := by
    intro t ht
    have hlen : t.args.length ≠ 0 := (hobeys t ht).inst_rule (hts t ht).1
    exact ⟨(hts t ht).1, by simpa using hlen⟩
  have hconc : ∀ t ∈ ts, t.isConcrete = true := fun t ht => (hts t ht).2.1
  let m := Module.new name [.node (Emit.entryHead r name ts) []]
  have hbuild : Emit.build name ts r = .ok m := Emit.build_eq hname hconc
  have hfault : m.formatFault? = none := by
    obtain ⟨m', hm', hencode⟩ := Emit.build_encode_iff hname hconc r
    cases hbuild.symm.trans hm'
    exact Module.encode_ok_iff.mp (hencode.mpr ((Emit.entryBody_valid_iff hinst).mpr hobeys))
  have hperm : (Pool.ofModule m).names.Perm (ts.map TypeRef.fullName) := by
    refine (List.perm_ext_iff_of_nodup (Pool.proper_ofModule m).nodup hnodup).mpr fun n => ?_
    rw [Emit.mem_names_entry hr hplace hinst, List.mem_map]
    constructor
    · rintro ⟨t, ht, -, -, rfl⟩
      exact ⟨t, ht, rfl⟩
    · rintro ⟨t, ht, rfl⟩
      exact ⟨t, ht, (hinst t ht).1, hconc t ht, rfl⟩
  refine ⟨m, m.fileBytes, hbuild, by rw [Module.encode, hfault], hperm, ?_⟩
  -- No list of the synthetic module is marked, so reading gives the module itself.
  intro hnarrow
  exact ⟨m, Module.decode_fileBytes hfault hnarrow, hperm⟩

namespace Sample

/-- An instance that the registry knows how to construct, one with an argument too many, and one of
a definition that no module declares. -/
def touched : List TypeRef :=
  [.applied "App.Box`1" [foo], .applied "App.Box`1" [foo, foo], .applied "Lib.List`1" [foo]]

theorem touched_narrow : ∀ t ∈ touched, (t.isInstance = true ∧ t.args ≠ []) ∧ t.Narrow := by
  have hfoo : foo.Narrow := .node (by decide) (by decide) (by simp) (by decide)
  have happlied : ∀ (name : Text) (args : List TypeRef), name.length < 4294967296 →
      args.length < 4294967296 → args ≠ [] → (∀ a ∈ args, a = foo) →
      ((TypeRef.applied name args).isInstance = true ∧ (TypeRef.applied name args).args ≠ []) ∧
        (TypeRef.applied name args).Narrow := by
    intro name args hname hlen hne hargs
    refine ⟨⟨rfl, hne⟩, .node hname hlen ?_ (by decide)⟩
    intro a ha
    rw [hargs a ha]
    exact hfoo
  intro t ht
  simp only [touched, List.mem_cons, List.not_mem_nil, or_false] at ht
  rcases ht with rfl | rfl | rfl
  all_goals exact happlied _ _ (by decide) (by decide) (by decide) (by decide)

end Sample

/-- One type goes through its constructor, two fall back to a local. -/
theorem harvest_build_touched :
    (Sample.touched.map fun t =>
        (Emit.constructorRef? (Registry.ofModules [some Sample.ring.module]) t).isSome) =
      [true, false, false] ∧
    ∃ m bytes m',
      Emit.build "Gen" Sample.touched (Registry.ofModules [some Sample.ring.module]) = .ok m ∧
      m.encode = .ok bytes ∧ Module.decode bytes = .ok m' ∧
      (Pool.ofModule m').names.Perm (Sample.touched.map TypeRef.fullName) := by
  refine ⟨by decide, ?_⟩
  have hmodules : ∀ m, some m ∈ [some Sample.ring.module] → m.Narrow := by
    intro m hm
    obtain ⟨bytes, hbytes⟩ := Sample.decoded_ring m hm
    exact (Module.checked_of_decode hbytes).2
  have hlinked := Registry.linked_ofModules [some Sample.ring.module]
  obtain ⟨m, bytes, hbuild, hencode, -, hread⟩ := harvest_build hlinked "Gen" (by decide)
    (by decide) Sample.touched (by decide) (by decide)
  have hm := hbuild.symm.trans (Emit.build_eq (by decide) (by decide))
  have hnarrow : m.Narrow := by
    rw [Except.ok.inj hm]
    exact Emit.entry_narrow hlinked (Registry.narrow_ofModules hmodules) (by decide)
      Sample.touched_narrow (by decide)
  obtain ⟨m', hdecode, hperm⟩ := hread hnarrow
  exact ⟨m, bytes, m', hbuild, hencode, hdecode, hperm⟩

namespace Draft

/-- One constructor is attached to a box and then to a bag. -/
def shared : List Call :=
  [.newModule "App", .newClass "App" "Box`1" ["T"], .newClass "App" "Bag`1" ["T"],
    .newConstructor [], .addType 0 0, .addType 0 1, .addMethod 0 0, .addMethod 1 0]

/-- The constructor stands in the box but is linked to the bag, so what touches a box of `Foo`
mentions a bag of `Foo`, and only that. -/
theorem shared_constructor_strays : ∃ d, run {} shared = some d ∧
    let r : Registry := ⟨d.definitions⟩
    let t := TypeRef.applied "App.Box`1" [Sample.foo]
    ¬ r.Linked ∧ (t.isInstance = true ∧ t.isConcrete = true ∧ t.fault? = none) ∧
      (do
        let m ← (Emit.build "Gen" [t] r).toOption
        let bytes ← m.encode.toOption
        let m' ← (Module.decode bytes).toOption
        pure (Pool.ofModule m').names) = some [("App.Bag`1<App.Foo>" : Text)] ∧
      t.fullName = "App.Box`1<App.Foo>" := by
  refine ⟨_, rfl, ?_, by decide, by decide +kernel, rfl⟩
  intro h
  have hbox := h _ (List.mem_cons_self ..) _ (List.mem_cons_self ..)
  exact absurd (congrArg Owner.fullName (Option.some.inj hbox)) (by decide)

end Draft

end Monomorph
