import Monomorph.Emit
import Monomorph.Proofs.Decoded

/-!
# What can be emitted

Reading a module and writing one go by the same rules, and resolution keeps every rule of the
format but one: a type argument of a method may be missing, while an argument of an instance may
not. A call site with a missing type argument puts an empty place where an argument of an instance
belongs, the instance counts as concrete all the same, and the module that touches it cannot be
written.

That is the only gap. The synthetic module of a decoded program is always built, and it can be
written exactly if no resolved type holds an empty place; in particular if no call in the program
leaves a type argument out.
-/

namespace Monomorph

/-- The reference has no empty place among its arguments, at any depth. -/
def Rules.filled : Rules where
  hole := False

theorem TypeRef.Obeys.filled_iff {t : TypeRef} (h : t.Obeys (.format True)) :
    t.Obeys .filled ↔ t.Obeys (.format False) := by
  constructor
  · intro hfilled
    refine (h.and hfilled).imp ?_ ?_ ?_
    · exact fun _ _ hinst => hinst.1
    · exact fun _ _ _ _ _ hleaf => hleaf.1
    · exact fun hhole => hhole.2
  · intro hformat
    refine hformat.imp ?_ ?_ ?_
    · exact fun _ _ _ => trivial
    · exact fun _ _ _ _ _ _ => trivial
    · exact id

theorem Module.encode_ok_iff {m : Module} :
    (∃ bytes, m.encode = .ok bytes) ↔ m.formatFault? = none := by
  unfold Module.encode
  cases m.formatFault? with
  | none => simp
  | some f => simp

namespace Emit

/-! ## Blocks -/

/-- The constructor of an instance is referred to on an instance with the same arguments. -/
theorem constructorRef?_declaring {r : Registry} {t : TypeRef} {c : MethodRef}
    (ht : t.args ≠ []) (h : constructorRef? r t = some c) :
    (∃ name, c.declaring = .applied name t.args) ∧ c.typeArgs = [] := by
  unfold constructorRef? at h
  simp only [Option.bind_eq_bind, Option.bind_eq_some_iff] at h
  obtain ⟨d, -, x, -, h⟩ := h
  unfold Member.instantiate at h
  split at h
  · cases h
  · rename_i o _
    unfold Owner.instantiate at h
    split at h
    · cases h
    · rw [if_neg (by simpa using ht)] at h
      cases h
      exact ⟨⟨o.fullName, rfl⟩, rfl⟩

/-- An instance obeys the rules of the format if its arguments do, whatever its name. -/
theorem applied_obeys_iff {t : TypeRef} (ht : t.isInstance = true) (name : Text) :
    (TypeRef.applied name t.args).Obeys (.format False) ↔ t.Obeys (.format False) := by
  cases t with
  | absent => cases ht
  | node kind name' args position param owner =>
      have hk : kind = .inst := by simpa [TypeRef.isInstance] using ht
      subst hk
      exact ⟨fun h => .inst (h.inst_rule rfl) (h.args rfl),
        fun h => .inst (h.inst_rule rfl) (h.args rfl)⟩

/-- The block of an instance breaks no rule exactly if the instance does not. -/
theorem block_valid_iff {r : Registry} {n : Nat} {t : TypeRef} (ht : t.isInstance = true)
    (hargs : t.args ≠ []) :
    (∀ i ∈ block r n t, i.Valid) ↔ t.Obeys (.format False) := by
  have hplain : ∀ {op : OpCode}, op.isKnown = true → ({ op := op } : Instruction).Valid :=
    fun hop => ⟨hop, Or.inl rfl, by simp⟩
  -- Either a constructor of the instance is called, or its local is initialised in place. Both name
  -- the instance, the first as the declaring type of the constructor.
  unfold block
  split
  · rename_i c hc
    obtain ⟨⟨name, hdecl⟩, htypeArgs⟩ := constructorRef?_declaring hargs hc
    constructor
    · intro h
      have hnew := h { op := .newobj, operand := { method := some c } } (by simp)
      have hobeys := (hnew.method c rfl).declaring
      rw [hdecl] at hobeys
      exact (applied_obeys_iff ht name).mp hobeys
    · intro h
      have hc : c.Valid := by
        refine ⟨?_, by simp [htypeArgs]⟩
        rw [hdecl]
        exact (applied_obeys_iff ht name).mpr h
      have hnew : ({ op := .newobj, operand := { method := some c } } : Instruction).Valid :=
        ⟨rfl, Or.inl rfl, by simpa using hc⟩
      simpa using ⟨hplain rfl, hnew, hplain rfl⟩
  · constructor
    · intro h
      have hinit := h { op := .initobj, operand := { type := t } } (by simp)
      exact hinit.type.obeys_of_present (TypeRef.isPresent_of_isInstance ht)
    · intro h
      have hload : (loadLocal n).Valid := by
        refine ⟨?_, Or.inl rfl, by simp [loadLocal]⟩
        unfold loadLocal
        dsimp only
        split <;> rfl
      have htype : ∀ {op : OpCode}, op.isKnown = true →
          ({ op, operand := { type := t } } : Instruction).Valid :=
        fun hop => ⟨hop, Or.inr h, by simp⟩
      have hcall : ({ op := .callvirt, operand := { method := some toStringRef } } :
          Instruction).Valid := by
        refine ⟨rfl, Or.inl rfl, ?_⟩
        intro c hc
        cases hc
        exact ⟨.leaf (by decide) (Or.inl rfl), by simp [toStringRef]⟩
      simpa using ⟨hplain rfl, hload, hplain rfl, htype rfl, htype rfl, hcall, hplain rfl⟩

/-! ## The module -/

/-- Touching an instance keeps a body valid exactly if the instance obeys the rules. -/
theorem touch_valid_iff {r : Registry} {b : Body} {t : TypeRef} (ht : t.isInstance = true)
    (hargs : t.args ≠ []) : (touch r b t).Valid ↔ b.Valid ∧ t.Obeys (.format False) := by
  have hblock := block_valid_iff (r := r) (n := b.locals.length) ht hargs
  have hcode : (∀ i ∈ b.code ++ block r b.locals.length t, i.Valid) ↔
      (∀ i ∈ b.code, i.Valid) ∧ t.Obeys (.format False) := by
    rw [List.forall_mem_append, hblock]
  unfold touch
  split
  · constructor
    · intro h
      obtain ⟨hb, ht⟩ := hcode.mp h.code
      exact ⟨⟨h.locals, hb⟩, ht⟩
    · rintro ⟨hb, ht⟩
      exact ⟨hb.locals, hcode.mpr ⟨hb.code, ht⟩⟩
  · constructor
    · intro h
      obtain ⟨hb, ht⟩ := hcode.mp h.code
      exact ⟨⟨(List.forall_mem_append.mp h.locals).1, hb⟩, ht⟩
    · rintro ⟨hb, ht⟩
      have hvalid : t.Valid := Or.inr ht
      refine ⟨List.forall_mem_append.mpr ⟨hb.locals, ?_⟩, hcode.mpr ⟨hb.code, ht⟩⟩
      simpa using hvalid

theorem foldl_touch_valid_iff {r : Registry} {types : List TypeRef}
    (ht : ∀ t ∈ types, t.isInstance = true ∧ t.args ≠ []) : ∀ b : Body,
      (types.foldl (touch r) b).Valid ↔ b.Valid ∧ ∀ t ∈ types, t.Obeys (.format False) := by
  induction types with
  | nil => simp
  | cons t types ih =>
      intro b
      obtain ⟨⟨hinst, hargs⟩, hrest⟩ := List.forall_mem_cons.mp ht
      rw [List.foldl_cons, ih hrest, touch_valid_iff hinst hargs, List.forall_mem_cons, and_assoc]

/-- A run over all types: the body breaks no rule exactly if none of the types does. -/
theorem entryBody_valid_iff {r : Registry} {types : List TypeRef}
    (ht : ∀ t ∈ types, t.isInstance = true ∧ t.args ≠ []) :
    (entryBody r types).Valid ↔ ∀ t ∈ types, t.Obeys (.format False) := by
  have hempty : ({} : Body).Valid := ⟨by simp, by simp [Body.code]⟩
  have hret : ({ op := .ret } : Instruction).Valid := ⟨rfl, Or.inl rfl, by simp⟩
  have hemit : ∀ b : Body, (b.emit { op := .ret }).Valid ↔ b.Valid := by
    intro b
    constructor
    · intro h
      exact ⟨h.locals, fun i hi => h.code i (List.mem_append_left _ hi)⟩
    · intro h
      refine ⟨h.locals, List.forall_mem_append.mpr ⟨h.code, by simpa using hret⟩⟩
  rw [entryBody, hemit, foldl_touch_valid_iff ht]
  simp [hempty]

theorem firstGeneric?_eq_none {types : List TypeRef} (h : ∀ t ∈ types, t.isConcrete = true) :
    ∀ i, firstGeneric? i types = none := by
  induction types with
  | nil => exact fun i => rfl
  | cons t types ih =>
      intro i
      obtain ⟨ht, hrest⟩ := List.forall_mem_cons.mp h
      rw [firstGeneric?, if_pos ht]
      exact ih hrest (i + 1)

theorem formatFault?_eq_none_of_two {name : Text} {a b : TypeHead} (ha : a.Valid) :
    TypeDef.formatFaultIn? name [.node a [], .node b []] = none ↔ b.Valid := by
  have ha' : a.formatFault? name = none := TypeHead.formatFault?_eq_none_iff.mpr ha
  have hb : b.formatFault? name = none ↔ b.Valid := TypeHead.formatFault?_eq_none_iff
  rw [← hb]
  simp only [TypeDef.formatFaultIn?, TypeDef.formatFault?, ha']
  cases b.formatFault? name <;> simp

/-- Concrete types are built into a module, which can be written exactly if the body that touches
them is valid. -/
theorem build_encode_iff {name : Text} (hname : name ≠ []) {types : List TypeRef}
    (h : ∀ t ∈ types, t.isConcrete = true) (r : Registry) :
    ∃ m, build name types r = .ok m ∧
      ((∃ bytes, m.encode = .ok bytes) ↔ (entryBody r types).Valid) := by
  unfold build
  rw [if_neg hname, firstGeneric?_eq_none h]
  refine ⟨_, rfl, ?_⟩
  have hplaceholder : ({ name := placeholderName } : TypeHead).Valid :=
    ⟨by decide, by simp, Or.inl rfl, by simp⟩
  have hret : ({ op := .ret } : Instruction).Valid := ⟨rfl, Or.inl rfl, by simp⟩
  have hctor : (MethodDef.newConstructor []).Valid := by
    refine ⟨by decide, by simp [MethodDef.newConstructor], ?_⟩
    intro b hb
    cases hb
    exact ⟨by simp, by simpa [Body.code] using hret⟩
  rw [Module.encode_ok_iff, Module.formatFault?, Module.new, if_neg hname]
  refine (formatFault?_eq_none_of_two hplaceholder).trans ?_
  constructor
  · intro hhead
    obtain ⟨m, hm, hvalid⟩ := hhead.methods _ (List.mem_cons_of_mem _ (List.mem_singleton_self _))
    cases hm
    exact hvalid.body _ rfl
  · intro hbody
    refine ⟨hname, by simp [TypeDef.newClass], Or.inr (.leaf (by decide) (Or.inl rfl)), ?_⟩
    intro o ho
    rcases List.mem_cons.mp ho with rfl | ho
    · exact ⟨_, rfl, hctor⟩
    · rw [List.mem_singleton.mp ho]
      refine ⟨_, rfl, hname, by simp [MethodDef.new], ?_⟩
      intro b hb
      cases hb
      exact hbody

end Emit

/-! ## Resolved types -/

/-- Every call in the code of the program gives all its type arguments. -/
def Registry.GivesArgs (r : Registry) : Prop :=
  ∀ i, r.Runs i → ∀ ref ∈ i.operand.method, ∀ a ∈ ref.typeArgs, a.isPresent = true

namespace Decoded

variable {modules : List (Option Module)} (h : Decoded modules)

include h

/-- A resolved type comes from a collected seed: it is a concrete instance with arguments. -/
theorem resolved {maxDepth : Nat} {seeds : List Text} {out : Resolution}
    (hout : resolveProgram modules (CallRef.collect (Registry.ofModules modules) seeds) maxDepth
      = .ok out) {t : TypeRef} (ht : t ∈ out.types) :
    t.isConcrete = true ∧ t.isInstance = true ∧ t.args ≠ [] ∧
      ∃ seed : Pair, seed.type.Obeys (.format False) ∧
        (Engine.ofModules modules maxDepth).Derives seed t := by
  obtain ⟨c, hc, ts, hres, hts⟩ := (resolveProgram_outcome hout).origin t ht
  obtain ⟨seed, hseed, hconc, hderives⟩ := hres.derives hts
  obtain ⟨p, hpair, htype⟩ := CallRef.pair?_of_mem_collect hc
  obtain rfl : p = seed := Option.some.inj (hpair.symm.trans hseed)
  have hformat : p.type.Obeys (.format False) := htype ▸ h.seed hc
  have hinst : p.type.isInstance = true := htype ▸ (CallRef.origin_of_mem_collect hc).2.1
  obtain ⟨hinst', -, hlen⟩ := hderives.sameInstance hinst
  have hne : p.type.args.length ≠ 0 := hformat.inst_rule hinst
  refine ⟨hconc, hinst', ?_, p, hformat, hderives⟩
  intro hargs
  rw [← hlen, hargs] at hne
  exact hne rfl

theorem derives_format {maxDepth : Nat} {seed : Pair} (hseed : seed.type.Obeys (.format False))
    {t : TypeRef} (ht : (Engine.ofModules modules maxDepth).Derives seed t) :
    t.Obeys (.format True) := by
  refine ht.obeys (h.siteArgs maxDepth) ?_ ?_ hseed.allow_holes
  · exact fun d hd _ => (h.definition hd).base.obeys
  · exact fun c hc => (h.pooled hc).1.allow_holes

/-- Without missing type arguments resolution keeps all rules of the format. -/
theorem derives_format_of_givesArgs (hargs : (Registry.ofModules modules).GivesArgs)
    {maxDepth : Nat} {seed : Pair} (hseed : seed.type.Obeys (.format False)) {t : TypeRef}
    (ht : (Engine.ofModules modules maxDepth).Derives seed t) : t.Obeys (.format False) := by
  refine ht.obeys ?_ ?_ ?_ hseed
  · intro id s hs
    obtain ⟨i, hi, hmethod⟩ := Engine.origin_of_mem_callers hs
    have hvalid := (h.instruction hi).1.method _ hmethod
    refine Bindings.ofSite_obeys hvalid.declaring fun a ha => ?_
    exact (hvalid.typeArgs a ha).obeys_of_present (hargs i hi _ hmethod a ha)
  · exact fun d hd hpresent => (h.definition hd).base.obeys_of_present hpresent
  · exact fun c hc => (h.pooled hc).1

end Decoded

/-- **What can be emitted.** The seeds collected from a decoded program resolve, and the synthetic
module of the resolved types is built. It can be written exactly if no resolved type holds an empty
place among its arguments, and always if the calls of the program give all their type arguments. -/
theorem encode_build_iff_filled (modules : List (Option Module)) (hdecoded : Decoded modules)
    (seeds : List Text) (maxDepth : Nat) (target : Text) (htarget : target ≠ []) :
    ∃ out m,
      resolveProgram modules (CallRef.collect (Registry.ofModules modules) seeds) maxDepth
        = .ok out ∧
      Emit.build target out.types (Registry.ofModules modules) = .ok m ∧
      ((∃ bytes, m.encode = .ok bytes) ↔ ∀ t ∈ out.types, t.Obeys .filled) ∧
      ((Registry.ofModules modules).GivesArgs → ∃ bytes, m.encode = .ok bytes) := by
  have hresolves : ∀ c ∈ CallRef.collect (Registry.ofModules modules) seeds,
      ∃ ts, (Engine.ofModules modules maxDepth).Resolves c ts :=
    fun c hc => hdecoded.resolves hc
  obtain ⟨out, hout⟩ := resolveProgram_succeeds hresolves
  have hconc : ∀ t ∈ out.types, t.isConcrete = true :=
    fun t ht => (hdecoded.resolved hout ht).1
  have hinst : ∀ t ∈ out.types, t.isInstance = true ∧ t.args ≠ [] :=
    fun t ht => ⟨(hdecoded.resolved hout ht).2.1, (hdecoded.resolved hout ht).2.2.1⟩
  obtain ⟨m, hbuild, hencode⟩ :=
    Emit.build_encode_iff htarget hconc (Registry.ofModules modules)
  rw [Emit.entryBody_valid_iff hinst] at hencode
  refine ⟨out, m, hout, hbuild, ?_, ?_⟩
  · -- Resolution keeps all rules of the format but the one against empty places.
    rw [hencode]
    refine forall₂_congr fun t ht => ?_
    obtain ⟨-, -, -, seed, hseed, hderives⟩ := hdecoded.resolved hout ht
    exact (hdecoded.derives_format hseed hderives).filled_iff.symm
  · intro hargs
    rw [hencode]
    intro t ht
    obtain ⟨-, -, -, seed, hseed, hderives⟩ := hdecoded.resolved hout ht
    exact hdecoded.derives_format_of_givesArgs hargs hseed hderives

/-- The module that touches the one resolved type of the ring is written. -/
theorem encode_build_ring :
    Decoded [some Sample.ring.module] ∧ ("Gen" : Text) ≠ [] ∧
      ∃ out m,
        resolveProgram [some Sample.ring.module]
          (CallRef.collect (Registry.ofModules [some Sample.ring.module]) ["App.Box`1"]) 64
          = .ok out ∧
        out.types.map TypeRef.fullName = [("App.Box`1<App.Foo>" : Text)] ∧
        Emit.build "Gen" out.types (Registry.ofModules [some Sample.ring.module]) = .ok m ∧
        (∀ t ∈ out.types, t.Obeys .filled) ∧ ∃ bytes, m.encode = .ok bytes := by
  have htarget : ("Gen" : Text) ≠ [] := by decide
  obtain ⟨out, m, hout, hbuild, hfilled, -⟩ := encode_build_iff_filled [some Sample.ring.module]
    Sample.decoded_ring ["App.Box`1"] 64 "Gen" htarget
  have hrun : resolveProgram [some Sample.ring.module]
      (CallRef.collect (Registry.ofModules [some Sample.ring.module]) ["App.Box`1"]) 64
      = .ok { types := [.applied "App.Box`1" [Sample.foo]],
              stats := { seeds := 1, finals := 2, cycles := 1, dropped := 1 } } := rfl
  obtain rfl := Except.ok.inj (hrun.symm.trans hout)
  have hall : ∀ t ∈ [TypeRef.applied "App.Box`1" [Sample.foo]], t.Obeys .filled := by
    intro t ht
    rw [List.mem_singleton.mp ht]
    refine .inst trivial fun a ha => ?_
    rw [List.mem_singleton.mp ha]
    exact .leaf (by decide) trivial
  exact ⟨Sample.decoded_ring, htarget, _, m, hout, rfl, hbuild, hall, hfilled.mpr hall⟩

namespace Sample

/-- `A<T>` mentions `Box<T>`, and `Main` calls `A` with its type argument left out. -/
def gap : Sample :=
  let seed := TypeRef.applied "App.Box`1" [.methodParam "T" 0 "App.Host::A"]
  { seed,
    module := hostModule
      [staticMethod "A" ["T"] [withType .ldtoken seed, plain .pop],
        staticMethod "Main" [] [hostCall "A" .absent]] }

theorem decoded_gap : Decoded [some gap.module] := decoded_of_fileBytes (by decide +kernel)

end Sample

/-- The program with the missing type argument is read, resolved and built into a module that
cannot be written. -/
theorem built_gap_not_encoded :
    Decoded [some Sample.gap.module] ∧ ("Gen" : Text) ≠ [] ∧
      ∃ out m,
        resolveProgram [some Sample.gap.module]
          (CallRef.collect (Registry.ofModules [some Sample.gap.module]) ["App.Box`1"]) 64
          = .ok out ∧
        Emit.build "Gen" out.types (Registry.ofModules [some Sample.gap.module]) = .ok m ∧
        ∀ bytes, m.encode ≠ .ok bytes :=
  ⟨Sample.decoded_gap, by decide, _, _, rfl, rfl, nofun⟩

end Monomorph
