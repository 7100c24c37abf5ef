import Mathlib.Data.List.Basic
import Monomorph.Pool

/-!
# The names of a pool

A pool holds concrete types of pairwise different names, and which names it holds does not depend on
the order in which they came. So pools can be compared by their names.
-/

namespace Monomorph.Pool

/-- The names of the pooled types, in order. -/
def names (p : Pool) : List Text := p.types.map TypeRef.fullName

/-- The pooled types are concrete, and no name comes twice. -/
structure Proper (p : Pool) : Prop where
  concrete : ∀ t ∈ p.types, t.isConcrete = true
  nodup : p.names.Nodup

theorem contains_iff {p : Pool} {name : Text} : p.contains name = true ↔ name ∈ p.names := by
  simp [contains, names]

theorem accepts_iff {p : Pool} {t : TypeRef} :
    p.accepts t = true ↔ t.isConcrete = true ∧ t.fullName ∉ p.names := by
  rw [accepts, Bool.and_eq_true, Bool.not_eq_true', ← contains_iff, Bool.not_eq_true]

theorem Proper.add {p : Pool} (h : p.Proper) (t : TypeRef) : (p.add t).Proper := by
  unfold Pool.add
  split
  · rename_i ht
    obtain ⟨hconc, hnew⟩ := accepts_iff.mp ht
    constructor
    · exact List.forall_mem_append.mpr ⟨h.concrete, by simpa using hconc⟩
    · have hnames : names ⟨p.types ++ [t]⟩ = p.names ++ [t.fullName] := by simp [names]
      rw [hnames, List.nodup_append]
      refine ⟨h.nodup, by simp, ?_⟩
      rintro name hname _ hother rfl
      exact hnew (List.mem_singleton.mp hother ▸ hname)
  · exact h

theorem Proper.addAll {p : Pool} (h : p.Proper) (ts : List TypeRef) : (p.addAll ts).Proper := by
  induction ts generalizing p with
  | nil => exact h
  | cons t ts ih => exact ih (h.add t)

theorem proper_empty : ({} : Pool).Proper := ⟨by simp, by simp [names]⟩

theorem proper_ofModule (m : Module) : (ofModule m).Proper := proper_empty.addAll _

theorem mem_names_add {p : Pool} {t : TypeRef} {name : Text} :
    name ∈ (p.add t).names ↔ name ∈ p.names ∨ t.isConcrete = true ∧ t.fullName = name := by
  unfold add
  split
  · rename_i ht
    obtain ⟨hconc, -⟩ := accepts_iff.mp ht
    simp [names, hconc, eq_comm]
  · rename_i ht
    constructor
    · exact Or.inl
    · rintro (h | ⟨hconc, rfl⟩)
      · exact h
      · by_contra hnew
        exact ht (accepts_iff.mpr ⟨hconc, hnew⟩)

theorem mem_names_addAll {ts : List TypeRef} {name : Text} {p : Pool} :
    name ∈ (p.addAll ts).names ↔
      name ∈ p.names ∨ ∃ t ∈ ts, t.isConcrete = true ∧ t.fullName = name := by
  induction ts generalizing p with
  | nil => simp [addAll]
  | cons t ts ih =>
      have hcons : p.addAll (t :: ts) = (p.add t).addAll ts := rfl
      rw [hcons, ih, mem_names_add, List.exists_mem_cons_iff, or_assoc]

/-- Adding the types of a pool one by one to an empty pool gives the pool back. -/
theorem ofList_types {p : Pool} (h : p.Proper) : ofList p.types = p := by
  have hadd : ∀ (ts : List TypeRef) (q : Pool), (∀ t ∈ ts, t.isConcrete = true) →
      (q.names ++ ts.map TypeRef.fullName).Nodup → q.addAll ts = ⟨q.types ++ ts⟩ := by
    intro ts
    induction ts with
    | nil =>
        intro q _ _
        rw [List.append_nil]
        rfl
    | cons t ts ih =>
        intro q hconc hnodup
        obtain ⟨ht, hts⟩ := List.forall_mem_cons.mp hconc
        have hnew : t.fullName ∉ q.names := by
          intro hmem
          have hdisjoint := (List.nodup_append.mp hnodup).2.2
          exact hdisjoint _ hmem _ (by simp) rfl
        have hstep : q.add t = ⟨q.types ++ [t]⟩ := if_pos (accepts_iff.mpr ⟨ht, hnew⟩)
        have hrest : (names ⟨q.types ++ [t]⟩ ++ ts.map TypeRef.fullName).Nodup := by
          simpa [names] using hnodup
        rw [addAll, List.foldl_cons, hstep]
        exact (ih _ hts hrest).trans (by simp)
  exact (hadd p.types {} h.concrete (by simpa [names] using h.nodup)).trans (by simp)

/-- The joined pool of modules has the names that one of them has. -/
theorem mem_names_ofModules {modules : List (Option Module)} {name : Text} :
    name ∈ (ofModules modules).names ↔
      ∃ m, some m ∈ modules ∧ name ∈ (ofModule m).names := by
  have hmerge : ∀ (p : Pool) (m : Module), name ∈ (p.merge (ofModule m)).names ↔
      name ∈ p.names ∨ name ∈ (ofModule m).names := by
    intro p m
    rw [merge, mem_names_addAll]
    refine or_congr_right ⟨?_, ?_⟩
    · rintro ⟨t, ht, -, rfl⟩
      exact List.mem_map_of_mem ht
    · intro hname
      obtain ⟨t, ht, rfl⟩ := List.mem_map.mp hname
      exact ⟨t, ht, (proper_ofModule m).concrete t ht, rfl⟩
  have hfold : ∀ (modules : List (Option Module)) (p : Pool),
      name ∈ ((modules.map fun m => (m.map ofModule).getD {}).foldl merge p).names ↔
        name ∈ p.names ∨ ∃ m, some m ∈ modules ∧ name ∈ (ofModule m).names := by
    intro modules
    induction modules with
    | nil => simp
    | cons o modules ih =>
        intro p
        rw [List.map_cons, List.foldl_cons, ih]
        cases o with
        | none => simp [merge, addAll]
        | some m =>
            rw [Option.map_some, Option.getD_some, hmerge]
            simp [or_assoc]
  rw [ofModules, hfold]
  simp [names]

theorem proper_ofModules (modules : List (Option Module)) : (ofModules modules).Proper := by
  unfold ofModules
  refine List.foldlRecOn (motive := Proper) _ _ proper_empty ?_
  exact fun p hp q _ => hp.addAll q.types

end Monomorph.Pool
