import Monomorph.Proofs.Calls
import Monomorph.Proofs.Substitution
import Monomorph.Resolve.Engine

/-!
# Where references come from

Call sites, seeds and pooled types are collected from the code of the definitions, through folds
that join, sort and drop repetitions. None of these folds makes a reference up:

* a call site is the method operand of an instruction (`CallIndex.origin_of_mem_callers`);
* a seed is an instance that an instruction mentions or constructs
  (`CallRef.origin_of_mem_collect`);
* a pooled type is an instance that is a type operand, a declaring type or a base type
  (`Pool.origin_of_mem_ofModules`).
-/

namespace Monomorph

namespace Registry

/-- The instruction stands in the code of one of the definitions. -/
def Runs (r : Registry) (i : Instruction) : Prop :=
  ∃ d ∈ r.definitions, ∃ m ∈ d.members, i ∈ m.method.code

theorem runs_iff {r : Registry} {i : Instruction} :
    r.Runs i ↔ i ∈ Pool.instructions r.definitions := by
  simp only [Runs, Pool.instructions, List.mem_flatMap]

theorem mem_definitions_iff {modules : List (Option Module)} {d : Definition} :
    d ∈ (ofModules modules).definitions ↔ ∃ m, some m ∈ modules ∧ d ∈ m.definitions := by
  rw [ofModules, List.mem_flatMap]
  constructor
  · rintro ⟨o, ho, hd⟩
    cases o with
    | none => simp at hd
    | some m => exact ⟨m, ho, hd⟩
  · rintro ⟨m, hm, hd⟩
    exact ⟨some m, hm, hd⟩

theorem mem_definitions_of_resolveType? {r : Registry} {t : TypeRef} {d : Definition}
    (h : r.resolveType? t = some d) : d ∈ r.definitions := by
  unfold resolveType? at h
  split at h
  · cases h
  · exact List.mem_of_find?_eq_some h

theorem runs_of_member? {r : Registry} {id : MethodId} {m : Member} {i : Instruction}
    (hm : r.member? id = some m) (hi : i ∈ m.method.code) : r.Runs i := by
  simp only [member?, Option.bind_eq_bind, Option.bind_eq_some_iff] at hm
  obtain ⟨d, hd, hm⟩ := hm
  exact ⟨d, List.mem_of_getElem? hd, m, List.mem_of_getElem? hm, hi⟩

end Registry

/-! ## Call sites -/

theorem Extractor.method_of_pick? {x : Extractor} {o : Operand} {ref : MethodRef}
    (h : x.pick? o = some ref) : o.method = some ref := by
  cases x with
  | plain => exact h
  | genericOnly => exact (Option.filter_eq_some_iff.mp h).1

/-- A call site stands in the code, whatever its index leaves out and whatever it resolves with. -/
theorem CallIndex.origin_of_mem_callers {r : Registry} {x : Extractor}
    {modules : List (Option Module)} {id : MethodId} {s : Site}
    (h : s ∈ (build r x modules).callers id) :
    ∃ i, (Registry.ofModules modules).Runs i ∧ i.operand.method = some s.ref := by
  obtain ⟨⟨m, hm, i, hi, hpick⟩, -⟩ := mem_callers_build.mp h
  exact ⟨i, Registry.runs_of_member? hm hi, Extractor.method_of_pick? hpick⟩

theorem Engine.origin_of_mem_callers {modules : List (Option Module)} {maxDepth : Nat}
    {id : MethodId} {s : Site} (h : s ∈ (Engine.ofModules modules maxDepth).callers id) :
    ∃ i, (Registry.ofModules modules).Runs i ∧ i.operand.method = some s.ref :=
  CallIndex.origin_of_mem_callers h

/-! ## Seeds -/

namespace CallRef

theorem mem_of_mem_dedup {cs : List CallRef} {c : CallRef} (h : c ∈ dedup cs) : c ∈ cs := by
  have hall : ∀ c ∈ dedup cs, c ∈ cs := by
    refine List.foldlRecOn (motive := fun kept => ∀ c ∈ kept, c ∈ cs) _ _ (by simp) ?_
    intro kept hkept c hc
    split
    · exact hkept
    · intro c' hc'
      rcases List.mem_append.mp hc' with hc' | hc'
      · exact hkept c' hc'
      · rw [List.mem_singleton.mp hc']
        exact hc
  exact hall c h

theorem mem_ofMember {seeds : List Text} {d : Definition} {id : MethodId} {m : Member}
    {c : CallRef} (h : c ∈ ofMember seeds d id m) :
    c.entry = some id ∧ c.type.isInstance = true ∧
      ∃ i ∈ m.method.code, c.type ∈ candidates i := by
  unfold ofMember at h
  split at h
  · obtain ⟨t, ht, rfl⟩ := List.mem_map.mp h
    obtain ⟨ht, hinst⟩ := List.mem_filter.mp ht
    obtain ⟨i, hi, hcand⟩ := List.mem_flatMap.mp ht
    rw [Bool.and_eq_true] at hinst
    exact ⟨rfl, hinst.1, i, hi, hcand⟩
  · simp at h

theorem origin_of_mem_collect {r : Registry} {seeds : List Text} {c : CallRef}
    (h : c ∈ collect r seeds) :
    (∃ id, c.entry = some id) ∧ c.type.isInstance = true ∧
      ∃ i, r.Runs i ∧ c.type ∈ candidates i := by
  have h := mem_of_mem_dedup h
  simp only [List.mem_flatten, List.mem_mapIdx] at h
  obtain ⟨_, ⟨n, hn, rfl⟩, h⟩ := h
  simp only [List.mem_flatten, List.mem_mapIdx] at h
  obtain ⟨_, ⟨k, hk, rfl⟩, h⟩ := h
  obtain ⟨hentry, hinst, i, hi, hcand⟩ := mem_ofMember h
  exact ⟨⟨_, hentry⟩, hinst, i, ⟨_, List.getElem_mem hn, _, List.getElem_mem hk, hi⟩, hcand⟩

/-- A collected seed is complete. -/
theorem pair?_of_mem_collect {r : Registry} {seeds : List Text} {c : CallRef}
    (h : c ∈ collect r seeds) : ∃ p, Engine.pair? c = some p ∧ p.type = c.type := by
  obtain ⟨⟨id, hid⟩, hinst, -⟩ := origin_of_mem_collect h
  have hpresent := TypeRef.isPresent_of_isInstance hinst
  exact ⟨{ type := c.type, entry := id }, by simp [Engine.pair?, hpresent, hid], rfl⟩

end CallRef

/-! ## Pooled types -/

namespace Pool

theorem mem_of_mem_addAll {p : Pool} {ts : List TypeRef} :
    ∀ t ∈ (p.addAll ts).types, t ∈ p.types ∨ t ∈ ts := by
  refine List.foldlRecOn (motive := fun q : Pool => ∀ t ∈ q.types, t ∈ p.types ∨ t ∈ ts) _ _
    (fun t ht => Or.inl ht) ?_
  intro q hq u hu t ht
  unfold add at ht
  split at ht
  · rcases List.mem_append.mp ht with ht | ht
    · exact hq t ht
    · rw [List.mem_singleton.mp ht]
      exact Or.inr hu
  · exact hq t ht

theorem mem_mentioned_iff {defs : List Definition} {t : TypeRef} :
    t ∈ mentioned defs ↔ t.isInstance = true ∧
      ((∃ i ∈ instructions defs, i.operand.type = t ∨
        ∃ r, i.operand.method = some r ∧ r.declaring = t) ∨
      ∃ d ∈ defs, (d.head.isClass && !d.isGeneric) = true ∧ d.head.base = t) := by
  simp only [mentioned, List.mem_filter, List.mem_append, List.mem_map, List.mem_filterMap,
    Option.map_eq_some_iff]
  constructor
  · rintro ⟨(⟨i, hi, rfl⟩ | ⟨d, ⟨hd, hplain⟩, rfl⟩) | ⟨i, hi, r, hr, rfl⟩, hinst⟩
    · exact ⟨hinst, Or.inl ⟨i, hi, Or.inl rfl⟩⟩
    · exact ⟨hinst, Or.inr ⟨d, hd, hplain, rfl⟩⟩
    · exact ⟨hinst, Or.inl ⟨i, hi, Or.inr ⟨r, hr, rfl⟩⟩⟩
  · rintro ⟨hinst, ⟨i, hi, rfl | ⟨r, hr, rfl⟩⟩ | ⟨d, hd, hplain, rfl⟩⟩
    · exact ⟨Or.inl (Or.inl ⟨i, hi, rfl⟩), hinst⟩
    · exact ⟨Or.inr ⟨i, hi, r, hr, rfl⟩, hinst⟩
    · exact ⟨Or.inl (Or.inr ⟨d, ⟨hd, hplain⟩, rfl⟩), hinst⟩

theorem mem_mentioned {defs : List Definition} {t : TypeRef} (h : t ∈ mentioned defs) :
    t.isInstance = true ∧
      ((∃ d ∈ defs, ∃ m ∈ d.members, ∃ i ∈ m.method.code, t = i.operand.type ∨
        ∃ r, i.operand.method = some r ∧ t = r.declaring) ∨ ∃ d ∈ defs, t = d.head.base) := by
  obtain ⟨hinst, ⟨i, hi, hti⟩ | ⟨d, hd, -, rfl⟩⟩ := mem_mentioned_iff.mp h
  · obtain ⟨d, hd, m, hm, hi⟩ := (Registry.runs_iff (r := ⟨defs⟩)).mpr hi
    refine ⟨hinst, Or.inl ⟨d, hd, m, hm, i, hi, hti.imp Eq.symm ?_⟩⟩
    rintro ⟨r, hr, rfl⟩
    exact ⟨r, hr, rfl⟩
  · exact ⟨hinst, Or.inr ⟨d, hd, rfl⟩⟩

theorem origin_of_mem_ofModules {modules : List (Option Module)} {t : TypeRef}
    (h : t ∈ (ofModules modules).types) :
    t.isInstance = true ∧
      ((∃ i, (Registry.ofModules modules).Runs i ∧ (t = i.operand.type ∨
        ∃ r, i.operand.method = some r ∧ t = r.declaring)) ∨
        ∃ d ∈ (Registry.ofModules modules).definitions, t = d.head.base) := by
  have hmodule : ∀ t ∈ (ofModules modules).types,
      ∃ m, some m ∈ modules ∧ t ∈ mentioned m.definitions := by
    refine List.foldlRecOn (motive := fun q : Pool => ∀ t ∈ q.types,
      ∃ m, some m ∈ modules ∧ t ∈ mentioned m.definitions) _ _ (by simp) ?_
    intro q hq part hpart t ht
    obtain ⟨o, ho, rfl⟩ := List.mem_map.mp hpart
    rcases mem_of_mem_addAll t ht with ht | ht
    · exact hq t ht
    · cases o with
      | none => simp at ht
      | some m => exact ⟨m, ho, (mem_of_mem_addAll t ht).resolve_left (by simp)⟩
  obtain ⟨m, hm, ht⟩ := hmodule t h
  have hdefs : ∀ d ∈ m.definitions, d ∈ (Registry.ofModules modules).definitions :=
    fun d hd => Registry.mem_definitions_iff.mpr ⟨m, hm, hd⟩
  obtain ⟨hinst, horigin⟩ := mem_mentioned ht
  refine ⟨hinst, ?_⟩
  rcases horigin with ⟨d, hd, x, hx, i, hi, hti⟩ | ⟨d, hd, hdt⟩
  · exact Or.inl ⟨i, ⟨d, hdefs d hd, x, hx, hi⟩, hti⟩
  · exact Or.inr ⟨d, hdefs d hd, hdt⟩

end Pool

end Monomorph
