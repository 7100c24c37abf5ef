import Mathlib.Data.List.Induction
import Monomorph.CallIndex

/-!
# What the call index holds

The call index is made of parts, one for each module, that are joined in module order. What it holds
is what one scan over all definitions finds (`CallIndex.calls`): under each method the calls that
lead to it, in the order in which they stand, and the methods in the order of their first calls.

An index is described by the calls that went into it (`CallIndex.Collects`): they decide its methods
and the calls under each, and joining a part behind an index appends what the part collects.
-/

namespace Monomorph

/-! ## First occurrences -/

section FirstOccurrences

variable {α : Type} [BEq α] [LawfulBEq α]

theorem eraseDups_snoc (l : List α) (a : α) :
    (l ++ [a]).eraseDups = if a ∈ l then l.eraseDups else l.eraseDups ++ [a] := by
  rw [List.eraseDups_append]
  have hone : [a].eraseDups = [a] := by simp [List.eraseDups_cons]
  by_cases h : a ∈ l
  · simp [List.removeAll, h]
  · simp [List.removeAll, h, hone]

/-- What is left out of the second list comes after its first occurrence anyway. -/
theorem eraseDups_append_eraseDups (l : List α) (ks : List α) :
    (l ++ ks.eraseDups).eraseDups = (l ++ ks).eraseDups := by
  induction ks using List.reverseRecOn with
  | nil => rfl
  | append_singleton ks a ih =>
      rw [eraseDups_snoc, ← List.append_assoc l ks, eraseDups_snoc (l ++ ks)]
      by_cases h : a ∈ ks
      · rw [if_pos h, if_pos (List.mem_append_right l h), ih]
      · rw [if_neg h, ← List.append_assoc, eraseDups_snoc, ih]
        simp only [List.mem_append, List.mem_eraseDups]

theorem nodup_eraseDups (l : List α) : l.eraseDups.Nodup := by
  induction l using List.reverseRecOn with
  | nil => exact List.nodup_nil
  | append_singleton l a ih =>
      rw [eraseDups_snoc]
      by_cases h : a ∈ l
      · rwa [if_pos h]
      · rw [if_neg h, List.nodup_append]
        refine ⟨ih, List.nodup_cons.mpr ⟨List.not_mem_nil, List.nodup_nil⟩, ?_⟩
        rintro b hb _ hc rfl
        rw [List.mem_singleton.mp hc] at hb
        exact h (List.mem_eraseDups.mp hb)

end FirstOccurrences

namespace CallIndex

/-! ## What an index collects -/

/-- The call sites that entries list for a method. -/
def sitesOf (entries : List (MethodId × List Site)) (id : MethodId) : List Site :=
  (entries.lookup id).getD []

/-- The entries are those of calls that were found in that order: each method once, in the order of
the first calls, and under it its call sites in order. -/
structure Collects (entries : List (MethodId × List Site)) (found : List (MethodId × Site)) :
    Prop where
  keys : entries.map Prod.fst = (found.map Prod.fst).eraseDups
  sites : ∀ id, sitesOf entries id = (found.filter fun o => o.1 = id).map Prod.snd

variable {entries : List (MethodId × List Site)} {found : List (MethodId × Site)}
  {callee id : MethodId} {added : List Site}

theorem keys_insert_eq :
    (insert entries callee added).map Prod.fst
      = if callee ∈ entries.map Prod.fst then entries.map Prod.fst
        else entries.map Prod.fst ++ [callee] := by
  induction entries with
  | nil => simp [CallIndex.insert]
  | cons e entries ih =>
      obtain ⟨k, known⟩ := e
      rw [CallIndex.insert]
      by_cases hk : k = callee
      · simp [hk]
      · rw [if_neg hk, List.map_cons, ih, List.map_cons]
        have hmem : callee ∈ k :: entries.map Prod.fst ↔ callee ∈ entries.map Prod.fst := by
          simp [Ne.symm hk]
        by_cases h : callee ∈ entries.map Prod.fst
        · rw [if_pos h, if_pos (hmem.mpr h)]
        · rw [if_neg h, if_neg (mt hmem.mp h), List.cons_append]

theorem sitesOf_insert :
    sitesOf (insert entries callee added) id
      = sitesOf entries id ++ if callee = id then added else [] := by
  induction entries with
  | nil =>
      by_cases h : callee = id
      · simp [CallIndex.insert, sitesOf, h]
      · have hne : (id == callee) = false := by simpa using Ne.symm h
        simp [CallIndex.insert, sitesOf, List.lookup_cons, hne, h]
  | cons e entries ih =>
      obtain ⟨k, known⟩ := e
      rw [CallIndex.insert]
      by_cases hk : k = callee
      · subst hk
        rw [if_pos rfl]
        by_cases h : k = id
        · simp [sitesOf, h]
        · have hne : (id == k) = false := by simpa using Ne.symm h
          simp [sitesOf, List.lookup_cons, hne, h]
      · rw [if_neg hk]
        by_cases h : k = id
        · subst h
          simp [sitesOf, Ne.symm hk]
        · have hne : (id == k) = false := by simpa using Ne.symm h
          simpa [sitesOf, List.lookup_cons, hne] using ih

theorem collects_nil : Collects [] [] := ⟨rfl, fun _ => rfl⟩

/-- One more call is found. -/
theorem Collects.snoc (h : Collects entries found) (o : MethodId × Site) :
    Collects (insert entries o.1 [o.2]) (found ++ [o]) := by
  constructor
  · rw [keys_insert_eq, h.keys, List.map_append, List.map_singleton, eraseDups_snoc]
    simp only [List.mem_eraseDups]
  · intro id
    rw [sitesOf_insert, h.sites, List.filter_append, List.map_append]
    by_cases ho : o.1 = id
    · simp [ho]
    · simp [ho]

theorem Collects.scanned (h : Collects entries found) (more : List (MethodId × Site)) :
    Collects (more.foldl (fun es o => insert es o.1 [o.2]) entries) (found ++ more) := by
  induction more generalizing entries found with
  | nil => rwa [List.append_nil]
  | cons o more ih =>
      rw [List.append_cons]
      exact ih (h.snoc o)

/-- The methods of a part that is joined are inserted one after another. -/
theorem keys_joined {part : List (MethodId × List Site)} {ks : List MethodId}
    (h : entries.map Prod.fst = ks.eraseDups) :
    (part.foldl (fun es e => insert es e.1 e.2) entries).map Prod.fst
      = (ks ++ part.map Prod.fst).eraseDups := by
  induction part generalizing entries ks with
  | nil => rwa [List.map_nil, List.append_nil]
  | cons e part ih =>
      rw [List.map_cons, List.append_cons]
      refine ih ?_
      rw [keys_insert_eq, h, eraseDups_snoc]
      simp only [List.mem_eraseDups]

/-- A part that is joined appends its call sites, if it has each method once. -/
theorem sitesOf_joined {part : List (MethodId × List Site)} (h : (part.map Prod.fst).Nodup) :
    sitesOf (part.foldl (fun es e => insert es e.1 e.2) entries) id
      = sitesOf entries id ++ sitesOf part id := by
  induction part generalizing entries with
  | nil => simp [sitesOf]
  | cons e part ih =>
      obtain ⟨k, known⟩ := e
      rw [List.map_cons, List.nodup_cons] at h
      rw [List.foldl_cons, ih h.2, sitesOf_insert]
      by_cases hk : k = id
      · subst hk
        have hnone : part.lookup k = none := by
          rw [List.lookup_eq_none_iff]
          intro e he
          have hne : k ≠ e.1 := fun hk => h.1 (List.mem_map.mpr ⟨e, he, hk.symm⟩)
          simpa using hne
        simp [sitesOf, hnone]
      · have hne : (id == k) = false := by simpa using Ne.symm hk
        simp [sitesOf, List.lookup_cons, hne, hk]

/-- Joining an index behind another one is finding its calls behind those of the other. -/
theorem Collects.merge {a b : CallIndex} {more : List (MethodId × Site)}
    (ha : Collects a.entries found) (hb : Collects b.entries more) :
    Collects (a.merge b).entries (found ++ more) := by
  have hnodup : (b.entries.map Prod.fst).Nodup := by
    rw [hb.keys]
    exact nodup_eraseDups _
  constructor
  · rw [List.map_append, ← eraseDups_append_eraseDups, ← hb.keys]
    exact keys_joined ha.keys
  · intro id
    rw [List.filter_append, List.map_append, ← ha.sites, ← hb.sites]
    exact sitesOf_joined hnodup

/-! ## What a scan over all definitions finds -/

/-- The calls in definitions that the extractor picks, in the order of definitions, methods and
instructions. -/
def calls (e : Extractor) (defs : List Definition) : List Site :=
  (defs.mapIdx fun i d =>
    (d.members.mapIdx fun k m =>
      m.method.code.filterMap fun c =>
        (e.pick? c.operand).map fun ref =>
          ({ ref, caller := { type := i, index := k } } : Site)).flatten).flatten

/-- The calls with the methods that they lead to. -/
def resolved (r : Registry) (sites : List Site) : List (MethodId × Site) :=
  sites.filterMap fun s => (r.resolveMethod? s.ref).map fun id => (id, s)

variable {r : Registry} {e : Extractor}

/-- A call is found where the extractor picks its reference in the code of its caller. -/
theorem mem_calls {defs : List Definition} {s : Site} :
    s ∈ calls e defs ↔ ∃ m, (⟨defs⟩ : Registry).member? s.caller = some m ∧
      ∃ c ∈ m.method.code, e.pick? c.operand = some s.ref := by
  simp only [calls, Registry.member?, Option.bind_eq_bind, Option.bind_eq_some_iff]
  constructor
  · intro h
    obtain ⟨_, hl, h⟩ := List.mem_flatten.mp h
    obtain ⟨i, hi, rfl⟩ := List.mem_mapIdx.mp hl
    obtain ⟨_, hl, h⟩ := List.mem_flatten.mp h
    obtain ⟨k, hk, rfl⟩ := List.mem_mapIdx.mp hl
    obtain ⟨c, hc, h⟩ := List.mem_filterMap.mp h
    obtain ⟨ref, hpick, rfl⟩ := Option.map_eq_some_iff.mp h
    exact ⟨_, ⟨_, List.getElem?_eq_getElem hi, List.getElem?_eq_getElem hk⟩, c, hc, hpick⟩
  · rintro ⟨m, ⟨d, hd, hm⟩, c, hc, hpick⟩
    obtain ⟨hi, rfl⟩ := List.getElem?_eq_some_iff.mp hd
    obtain ⟨hk, rfl⟩ := List.getElem?_eq_some_iff.mp hm
    refine List.mem_flatten.mpr ⟨_, List.mem_mapIdx.mpr ⟨_, hi, rfl⟩, ?_⟩
    refine List.mem_flatten.mpr ⟨_, List.mem_mapIdx.mpr ⟨_, hk, rfl⟩, ?_⟩
    exact List.mem_filterMap.mpr ⟨c, hc, Option.map_eq_some_iff.mpr ⟨s.ref, hpick, rfl⟩⟩

theorem occurrences_append (first : Nat) (defs more : List Definition) :
    occurrences r e first (defs ++ more)
      = occurrences r e first defs ++ occurrences r e (first + defs.length) more := by
  rw [occurrences, List.mapIdx_append, List.flatten_append]
  have hshift : ∀ i, first + (i + defs.length) = first + defs.length + i := by omega
  simp only [hshift]
  rfl

/-- Picking from numbered lists in a row is picking from each of them. -/
theorem filterMap_flatten_mapIdx {α β γ : Type} (f : β → Option γ) (g : Nat → α → List β)
    (l : List α) : (l.mapIdx g).flatten.filterMap f
      = (l.mapIdx fun i a => (g i a).filterMap f).flatten := by
  rw [List.filterMap_flatten]
  congr 1
  ext i b
  simp [Function.comp_def]

theorem occurrences_eq (defs : List Definition) :
    occurrences r e 0 defs = resolved r (calls e defs) := by
  have hcall : ∀ (i k : Nat) (c : Instruction),
      (do
        let ref ← e.pick? c.operand
        let callee ← r.resolveMethod? ref
        some (callee, ({ ref, caller := { type := 0 + i, index := k } } : Site)))
      = ((e.pick? c.operand).map fun ref =>
          ({ ref, caller := { type := i, index := k } } : Site)).bind fun s =>
            (r.resolveMethod? s.ref).map fun id => (id, s) := by
    intro i k c
    rw [Nat.zero_add]
    cases e.pick? c.operand with
    | none => rfl
    | some ref => cases h : r.resolveMethod? ref <;> simp [h]
  rw [resolved, calls, filterMap_flatten_mapIdx]
  simp only [filterMap_flatten_mapIdx, List.filterMap_filterMap, ← hcall]
  rfl

/-- The sections of modules hold all definitions, one module behind the other. -/
theorem flatMap_sections (modules : List (Option Module)) : ∀ first : Nat,
    (sections first modules).flatMap (fun part => occurrences r e part.1 part.2)
      = occurrences r e first (Registry.ofModules modules).definitions := by
  induction modules with
  | nil => intro first; rfl
  | cons m ms ih =>
      intro first
      have hcons : (Registry.ofModules (m :: ms)).definitions =
          (m.map Module.definitions).getD [] ++ (Registry.ofModules ms).definitions := rfl
      rw [sections, List.flatMap_cons, ih, hcons, occurrences_append]

theorem collects_build (modules : List (Option Module)) :
    Collects (build r e modules).entries
      (resolved r (calls e (Registry.ofModules modules).definitions)) := by
  have hparts : ∀ (parts : List (Nat × List Definition)) (a : CallIndex) (found),
      Collects a.entries found →
      Collects ((parts.map fun part => scan r e part.1 part.2).foldl CallIndex.merge a).entries
        (found ++ parts.flatMap fun part => occurrences r e part.1 part.2) := by
    intro parts
    induction parts with
    | nil =>
        intro a found ha
        rwa [List.flatMap_nil, List.append_nil]
    | cons part parts ih =>
        intro a found ha
        rw [List.flatMap_cons, ← List.append_assoc]
        exact ih _ _ (ha.merge (collects_nil.scanned _))
  rw [← occurrences_eq, ← flatMap_sections]
  exact hparts _ {} [] collects_nil

/-! ## What an index holds -/

theorem filter_resolved (sites : List Site) :
    ((resolved r sites).filter fun o => o.1 = id).map Prod.snd
      = sites.filter fun s => r.resolveMethod? s.ref = some id := by
  induction sites with
  | nil => rfl
  | cons s sites ih =>
      unfold resolved at ih ⊢
      rw [List.filterMap_cons, List.filter_cons]
      cases hs : r.resolveMethod? s.ref with
      | none => simpa using ih
      | some k =>
          by_cases hk : k = id
          · simp [hk, ih]
          · simp [hk, ih]

theorem keys_resolved (sites : List Site) :
    (resolved r sites).map Prod.fst = sites.filterMap fun s => r.resolveMethod? s.ref := by
  rw [resolved, List.map_filterMap]
  congr 1
  funext s
  cases r.resolveMethod? s.ref <;> rfl

/-- The call sites of a method are the calls that lead to it. -/
theorem callers_build (modules : List (Option Module)) (id : MethodId) :
    (build r e modules).callers id
      = (calls e (Registry.ofModules modules).definitions).filter fun s =>
          r.resolveMethod? s.ref = some id := by
  rw [← filter_resolved]
  exact (collects_build modules).sites id

/-- A call site of a method is a call in the code of its caller that leads to the method. -/
theorem mem_callers_build {modules : List (Option Module)} {s : Site} :
    s ∈ (build r e modules).callers id ↔
      (∃ m, (Registry.ofModules modules).member? s.caller = some m ∧
        ∃ c ∈ m.method.code, e.pick? c.operand = some s.ref) ∧
      r.resolveMethod? s.ref = some id := by
  rw [callers_build, List.mem_filter, mem_calls, decide_eq_true_iff]

/-- The methods of an index are those that calls lead to, in the order of the first calls. -/
theorem callees_build (modules : List (Option Module)) :
    (build r e modules).callees
      = ((calls e (Registry.ofModules modules).definitions).filterMap fun s =>
          r.resolveMethod? s.ref).eraseDups := by
  rw [← keys_resolved]
  exact (collects_build modules).keys

/-- The generic extractor picks those of all calls that carry type arguments of the method or of its
declaring type. -/
theorem calls_genericOnly (defs : List Definition) :
    calls .genericOnly defs
      = (calls .plain defs).filter fun s =>
          s.ref.isGenericInstance || s.ref.declaring.isInstance := by
  rw [calls, calls, ← List.filterMap_eq_filter, filterMap_flatten_mapIdx]
  simp only [filterMap_flatten_mapIdx, List.filterMap_filterMap]
  have hcall : ∀ (i k : Nat) (c : Instruction),
      ((Extractor.genericOnly.pick? c.operand).map fun ref =>
          ({ ref, caller := { type := i, index := k } } : Site))
        = ((Extractor.plain.pick? c.operand).map fun ref =>
            ({ ref, caller := { type := i, index := k } } : Site)).bind
            (Option.guard fun s => s.ref.isGenericInstance || s.ref.declaring.isInstance) := by
    intro i k c
    rw [Extractor.pick?, Extractor.pick?]
    cases c.operand.method with
    | none => rfl
    | some ref =>
        simp only [Option.filter_some, Option.map_some, Option.bind_some, Option.guard]
        split <;> rfl
  simp only [hcall]

end CallIndex

/-- An empty place adds no part. -/
theorem CallIndex.build_present (r : Registry) (e : Extractor) (modules : List (Option Module)) :
    build r e modules = build r e ((modules.filterMap id).map some) := by
  have hdrop : ∀ (modules : List (Option Module)) (first : Nat) (a : CallIndex),
      ((sections first modules).map fun part => scan r e part.1 part.2).foldl CallIndex.merge a
        = ((sections first ((modules.filterMap id).map some)).map fun part =>
            scan r e part.1 part.2).foldl CallIndex.merge a := by
    intro modules
    induction modules with
    | nil => exact fun first a => rfl
    | cons m modules ih =>
        intro first a
        cases m with
        | none => exact ih first a
        | some m => exact ih _ _
  exact hdrop modules 0 {}

end Monomorph
