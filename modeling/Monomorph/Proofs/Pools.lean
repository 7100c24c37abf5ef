import Monomorph.Pool.Indexed
import Monomorph.Proofs.FlatHarvest

/-!
# Pools through any history

A pool in memory is a list with the set of its names. Adding and merging keep the two in step
(`IndexedPool.Sound.addAll`), so that the pool without its set is what the operations of `Pool` make
of it. In a table of pools a merge changes one pool alone, and it is the merge of the two pools as
they stood before, also where they are one (`Pools.merge_some`): by the time a type is added to the
pool that it came from, its name is there.

Merging depends on the order, as the first reference of a name stays. Still it is associative, since
what a pool leaves out of another is left out later too, and merging a second time adds nothing.
-/

namespace Monomorph

/-! ## Adding what is there -/

namespace Pool

/-- What is there, has been added or was left out is not accepted any more. -/
theorem accepts_addAll_eq_false {p : Pool} {ts : List TypeRef} {t : TypeRef}
    (ht : t ∈ p.types ∨ t ∈ ts) : (p.addAll ts).accepts t = false := by
  rw [← Bool.not_eq_true, accepts_iff, mem_names_addAll]
  rintro ⟨hconc, hnew⟩
  rcases ht with ht | ht
  · exact hnew (Or.inl (List.mem_map_of_mem ht))
  · exact hnew (Or.inr ⟨t, ht, hconc, rfl⟩)

/-- A type of a proper pool is what is found under its name. -/
theorem Proper.find?_eq_some {p : Pool} (h : p.Proper) {t : TypeRef} (ht : t ∈ p.types) :
    p.types.find? (fun u => u.fullName = t.fullName) = some t := by
  obtain ⟨before, after, hsplit⟩ := List.append_of_mem ht
  refine List.find?_eq_some_iff_append.mpr ⟨by simp, before, after, hsplit, ?_⟩
  intro u hu
  have hnodup := h.nodup
  rw [names, hsplit, List.map_append, List.nodup_append] at hnodup
  have hne : u.fullName ≠ t.fullName :=
    hnodup.2.2 _ (List.mem_map_of_mem hu) _ (by simp)
  simpa using hne

/-- Pools may be merged from either end. -/
theorem merge_assoc (p : Pool) {q : Pool} (hq : q.Proper) (r : Pool) :
    (p.merge q).merge r = p.merge (q.merge r) := by
  have hlist : q.merge r = ofList (q.types ++ r.types) := by
    rw [ofList, addAll_append, ← ofList, ofList_types hq, merge]
  rw [hlist, merge_ofList, addAll_append, merge, merge]

end Pool

/-! ## A pool and its set -/

namespace IndexedPool

variable {p q : IndexedPool}

/-- The set holds the names of the list, and the list is a proper pool. -/
structure Sound (p : IndexedPool) : Prop where
  inStep : ∀ name, p.contains name = p.toPool.contains name
  proper : p.toPool.Proper

theorem sound_empty : ({} : IndexedPool).Sound := by
  constructor
  · intro name
    simp [contains, toPool, Pool.contains]
  · exact Pool.proper_empty

/-- A pool adds what it would accept without its set. -/
theorem Sound.add_eq (h : p.Sound) (t : TypeRef) :
    p.add t = if p.toPool.accepts t = true
      then (true, { types := p.types ++ [t], seen := p.seen.insert t.fullName })
      else (false, p) := by
  rw [IndexedPool.add, h.inStep, Pool.accepts]
  cases t.isConcrete <;> cases p.toPool.contains t.fullName <;> rfl

theorem Sound.added_eq (h : p.Sound) (t : TypeRef) : (p.add t).1 = p.toPool.accepts t := by
  rw [h.add_eq]
  split
  · rename_i hacc
    exact hacc.symm
  · rename_i hacc
    exact (Bool.not_eq_true _ ▸ hacc).symm

/-- A reference is appended exactly if the pool tells that it was added. -/
theorem types_add (p : IndexedPool) (t : TypeRef) :
    (p.add t).2.types = p.types ++ (if (p.add t).1 then [t] else []) := by
  unfold add
  split
  · simp
  · split <;> simp

theorem Sound.added_iff (h : p.Sound) (t : TypeRef) :
    (p.add t).1 = true ↔ t.isConcrete = true ∧ ∀ u ∈ p.types, u.fullName ≠ t.fullName := by
  have hnew : t.fullName ∉ p.toPool.names ↔ ∀ u ∈ p.types, u.fullName ≠ t.fullName := by
    simp [Pool.names, toPool]
  rw [h.added_eq, Pool.accepts_iff, hnew]

theorem Sound.contains_iff (h : p.Sound) (name : Text) :
    p.contains name = true ↔ ∃ t ∈ p.types, t.fullName = name := by
  rw [h.inStep, Pool.contains_iff]
  exact List.mem_map

theorem Sound.toPool_add (h : p.Sound) (t : TypeRef) : (p.add t).2.toPool = p.toPool.add t := by
  rw [h.add_eq, Pool.add]
  split <;> rfl

theorem Sound.add (h : p.Sound) (t : TypeRef) : (p.add t).2.Sound := by
  constructor
  · intro name
    rw [h.toPool_add]
    by_cases hacc : p.toPool.accepts t = true
    · have hset : (p.add t).2.contains name = (t.fullName == name || p.contains name) := by
        rw [h.add_eq, if_pos hacc, contains, Std.HashSet.contains_insert, contains]
      have hlist : (p.toPool.add t).contains name
          = (p.toPool.contains name || t.fullName == name) := by
        simp [Pool.add, hacc, Pool.contains]
      rw [hset, hlist, h.inStep, Bool.or_comm]
    · rw [h.add_eq, if_neg hacc, Pool.add, if_neg hacc, h.inStep]
  · rw [h.toPool_add]
    exact h.proper.add t

theorem Sound.addAll (h : p.Sound) (ts : List TypeRef) : (p.addAll ts).Sound := by
  induction ts generalizing p with
  | nil => exact h
  | cons t ts ih => exact ih (h.add t)

theorem Sound.toPool_addAll (h : p.Sound) (ts : List TypeRef) :
    (p.addAll ts).toPool = p.toPool.addAll ts := by
  induction ts generalizing p with
  | nil => rfl
  | cons t ts ih =>
      show ((p.add t).2.addAll ts).toPool = (p.toPool.add t).addAll ts
      rw [ih (h.add t), h.toPool_add]

theorem Sound.toPool_merge (h : p.Sound) (q : IndexedPool) :
    (p.merge q).toPool = p.toPool.merge q.toPool := h.toPool_addAll q.types

theorem Sound.merge (h : p.Sound) (q : IndexedPool) : (p.merge q).Sound := h.addAll q.types

/-- Adding what is there or has just been added changes nothing, in the set neither. -/
theorem Sound.addAll_again (h : p.Sound) (ts : List TypeRef) {us : List TypeRef}
    (hus : ∀ t ∈ us, t ∈ p.types ∨ t ∈ ts) : (p.addAll ts).addAll us = p.addAll ts := by
  induction us with
  | nil => rfl
  | cons t us ih =>
      obtain ⟨ht, hus⟩ := List.forall_mem_cons.mp hus
      have hold : (p.addAll ts).toPool.accepts t = false := by
        rw [h.toPool_addAll]
        exact Pool.accepts_addAll_eq_false ht
      show ((p.addAll ts).add t).2.addAll us = p.addAll ts
      rw [(h.addAll ts).add_eq, if_neg (by simp [hold])]
      exact ih hus

/-- Merging a pool into itself changes nothing. -/
theorem Sound.merge_self (h : p.Sound) : p.merge p = p := h.addAll_again [] fun _ => Or.inl

/-- Merging a second time changes nothing. -/
theorem Sound.merge_merge (h : p.Sound) (q : IndexedPool) : (p.merge q).merge q = p.merge q :=
  h.addAll_again q.types fun _ => Or.inr

/-- What stood in a pool before a merge stands there after it. -/
theorem Sound.merge_left (h : p.Sound) (q : IndexedPool) : (p.merge q).merge p = p.merge q :=
  h.addAll_again q.types fun _ => Or.inl

theorem types_prefix_add (p : IndexedPool) (t : TypeRef) : p.types <+: (p.add t).2.types := by
  rw [types_add]
  exact List.prefix_append ..

theorem types_prefix_addAll (p : IndexedPool) (ts : List TypeRef) :
    p.types <+: (p.addAll ts).types := by
  induction ts generalizing p with
  | nil => exact List.prefix_rfl
  | cons t ts ih => exact (types_prefix_add p t).trans (ih _)

end IndexedPool

/-- An operation on pools that are lists and no more: what is merged is a value, so that nothing can
change while it is read. -/
def PoolOp.onLists {n : Nat} (s : Fin n → Pool) : PoolOp n → Fin n → Pool
  | .add i t => fun j => if j = i then (s i).add t else s j
  | .merge _ none => s
  | .merge i (some k) => fun j => if j = i then (s i).merge (s k) else s j

/-! ## Pools by number -/

namespace Pools

variable {n : Nat} {s : Pools n}

@[simp] theorem put_apply (s : Pools n) (i : Fin n) (p : IndexedPool) : s.put i p i = p :=
  if_pos rfl

theorem put_apply_ne {i j : Fin n} (h : j ≠ i) (s : Pools n) (p : IndexedPool) :
    s.put i p j = s j := if_neg h

@[simp] theorem put_put (s : Pools n) (i : Fin n) (p q : IndexedPool) :
    (s.put i p).put i q = s.put i q := by
  funext j
  by_cases h : j = i <;> simp [put, h]

@[simp] theorem put_self (s : Pools n) (i : Fin n) : s.put i (s i) = s := by
  funext j
  by_cases h : j = i <;> simp [put, h]

/-- Adding to one pool type by type is adding the types to that pool. -/
theorem foldl_add (s : Pools n) (i : Fin n) (ts : List TypeRef) :
    ts.foldl (fun s t => (s.add i t).2) s = s.put i ((s i).addAll ts) := by
  induction ts generalizing s with
  | nil => exact (put_self s i).symm
  | cons t ts ih =>
      have hfirst : (s.add i t).2 = s.put i ((s i).add t).2 := rfl
      rw [List.foldl_cons, ih, hfirst, put_put, put_apply]
      rfl

/-- A merge changes one pool, into the merge of the two pools as they stood before. -/
theorem merge_some (s : Pools n) (i j : Fin n) :
    s.merge i (some j) = s.put i ((s i).merge (s j)) := foldl_add s i _

/-! ## What an operation keeps -/

theorem sound_put (h : ∀ j, (s j).Sound) (i : Fin n) {p : IndexedPool} (hp : p.Sound) (j : Fin n) :
    (s.put i p j).Sound := by
  unfold put
  split
  · exact hp
  · exact h j

theorem sound_step (h : ∀ j, (s j).Sound) (op : PoolOp n) : ∀ j, (s.step op j).Sound := by
  cases op with
  | add i t => exact sound_put h i ((h i).add t)
  | merge i other =>
      cases other with
      | none => exact h
      | some k =>
          rw [step, merge_some]
          exact sound_put h i ((h i).addAll _)

theorem sound_run (h : ∀ j, (s j).Sound) (ops : List (PoolOp n)) : ∀ j, (s.run ops j).Sound := by
  induction ops generalizing s with
  | nil => exact h
  | cons op ops ih => exact ih (sound_step h op)

theorem toPool_put (s : Pools n) (i : Fin n) (p : IndexedPool) (j : Fin n) :
    (s.put i p j).toPool = if j = i then p.toPool else (s j).toPool := by
  unfold put
  split <;> rfl

theorem toPool_step (h : ∀ j, (s j).Sound) (op : PoolOp n) :
    (fun j => (s.step op j).toPool) = PoolOp.onLists (fun j => (s j).toPool) op := by
  funext j
  cases op with
  | add i t =>
      have hadd : s.step (.add i t) = s.put i ((s i).add t).2 := rfl
      rw [hadd, toPool_put, (h i).toPool_add]
      rfl
  | merge i other =>
      cases other with
      | none => rfl
      | some k =>
          rw [step, merge_some, toPool_put, (h i).toPool_merge]
          rfl

/-- Without their sets, the pools after any operations are those that lists give. -/
theorem toPool_run (h : ∀ j, (s j).Sound) (ops : List (PoolOp n)) :
    (fun j => (s.run ops j).toPool) = ops.foldl PoolOp.onLists fun j => (s j).toPool := by
  induction ops generalizing s with
  | nil => rfl
  | cons op ops ih =>
      rw [List.foldl_cons, ← toPool_step h op]
      exact ih (sound_step h op)

theorem types_prefix_put (s : Pools n) {i : Fin n} {p : IndexedPool}
    (h : (s i).types <+: p.types) (j : Fin n) : (s j).types <+: (s.put i p j).types := by
  unfold put
  split
  · rename_i hj
    exact hj ▸ h
  · exact List.prefix_rfl

theorem types_prefix_step (s : Pools n) (op : PoolOp n) (j : Fin n) :
    (s j).types <+: (s.step op j).types := by
  cases op with
  | add i t => exact types_prefix_put s (IndexedPool.types_prefix_add (s i) t) j
  | merge i other =>
      cases other with
      | none => exact List.prefix_rfl
      | some k =>
          rw [step, merge_some]
          exact types_prefix_put s (IndexedPool.types_prefix_addAll (s i) _) j

theorem types_prefix_run (s : Pools n) (ops : List (PoolOp n)) (j : Fin n) :
    (s j).types <+: (s.run ops j).types := by
  induction ops generalizing s with
  | nil => exact List.prefix_rfl
  | cons op ops ih => exact (types_prefix_step s op j).trans (ih _)

/-! ## Merging twice, and merging merged pools -/

/-- The second of two equal merges changes nothing. -/
theorem merge_merge (h : ∀ j, (s j).Sound) (i : Fin n) (other : Option (Fin n)) :
    (s.merge i other).merge i other = s.merge i other := by
  cases other with
  | none => rfl
  | some j =>
      rw [merge_some, merge_some, put_apply, put_put]
      by_cases hj : j = i
      -- The pool that is read is the one that has just been changed.
      · subst hj
        rw [put_apply, (h j).merge_self, (h j).merge_self]
      · rw [put_apply_ne hj, (h i).merge_merge]

/-- Merging two pools one after the other comes to merging a pool that holds them merged. -/
theorem types_merge_merge (h : ∀ j, (s j).Sound) (i j k : Fin n) :
    ((s.merge i (some j)).merge i (some k) i).types = ((s i).merge ((s j).merge (s k))).types := by
  have hassoc : (((s i).merge (s j)).merge (s k)).toPool
      = ((s i).merge ((s j).merge (s k))).toPool := by
    rw [((h i).merge _).toPool_merge, (h i).toPool_merge, (h i).toPool_merge, (h j).toPool_merge,
      Pool.merge_assoc _ (h j).proper]
  have htypes := congrArg Pool.types hassoc
  rw [merge_some, merge_some, put_apply, put_apply]
  by_cases hk : k = i
  -- The third pool is the first, which holds the second by now: there is nothing to add to it.
  · subst hk
    rw [(h k).merge_left] at htypes
    rw [put_apply, ((h k).merge _).merge_self]
    exact htypes
  · rw [put_apply_ne hk]
    exact htypes

/-- **Pools through any history.** Take any number of pools, at first empty, and any operations on
them in a row, in which a pool may be merged into itself and there may be no pool to merge.

* Every pool holds concrete types of pairwise different names, and a name is in its set exactly if
  one of its types has that name. Without its set it is the `Pool` that the same operations make of
  lists.
* Whatever follows, the list of a pool grows at its end alone, so the reference that is found under a
  name stays.
* Adding a reference appends it to the list of the pool exactly if it tells that it was added, which
  it does for a concrete type of a new name; the other pools stay.
* Merging two pools one after the other gives the list that merging the second merged with the third
  gives, and merging a pool a second time changes nothing. -/
theorem history (n : Nat) (ops : List (PoolOp n)) :
    let s := Pools.empty.run ops
    (∀ i, (∀ t ∈ (s i).types, t.isConcrete = true) ∧
      ((s i).types.map TypeRef.fullName).Nodup ∧
      (∀ name, (s i).contains name = true ↔ ∃ t ∈ (s i).types, t.fullName = name) ∧
      (s i).toPool = ops.foldl PoolOp.onLists (fun _ => {}) i) ∧
    (∀ i more, (s i).types <+: (s.run more i).types ∧
      ∀ t ∈ (s i).types, (s.run more i).types.find? (fun u => u.fullName = t.fullName) = some t) ∧
    (∀ i t, ((s.add i t).2 i).types = (s i).types ++ (if (s.add i t).1 then [t] else []) ∧
      ((s.add i t).1 = true ↔
        t.isConcrete = true ∧ ∀ u ∈ (s i).types, u.fullName ≠ t.fullName) ∧
      ∀ j, j ≠ i → (s.add i t).2 j = s j) ∧
    (∀ i j k, ((s.merge i (some j)).merge i (some k) i).types
      = ((s i).merge ((s j).merge (s k))).types) ∧
    (∀ i other, (s.merge i other).merge i other = s.merge i other) ∧
    (∀ i, s.merge i none = s ∧ s.merge i (some i) = s) ∧
    ∀ i j other, j ≠ i → s.merge i other j = s j := by
  intro s
  have hempty : ∀ i, ((Pools.empty : Pools n) i).Sound := fun _ => IndexedPool.sound_empty
  have hsound : ∀ i, (s i).Sound := sound_run hempty ops
  refine ⟨?_, ?_, ?_, types_merge_merge hsound, merge_merge hsound, ?_, ?_⟩
  · intro i
    exact ⟨(hsound i).proper.concrete, (hsound i).proper.nodup, (hsound i).contains_iff,
      congrFun (toPool_run hempty ops) i⟩
  · intro i more
    have hgrows := types_prefix_run s more i
    exact ⟨hgrows, fun t ht => hgrows.find?_eq_some ((hsound i).proper.find?_eq_some ht)⟩
  · intro i t
    refine ⟨?_, (hsound i).added_iff t, fun j hj => put_apply_ne hj ..⟩
    exact (congrArg IndexedPool.types (put_apply ..)).trans (IndexedPool.types_add (s i) t)
  · intro i
    refine ⟨rfl, ?_⟩
    rw [merge_some, (hsound i).merge_self, put_self]
  · intro i j other hj
    cases other with
    | none => rfl
    | some k => rw [merge_some, put_apply_ne hj]

end Pools

open Sample in
/-- Two pools hold different references of one name. Merged into the first, the second brings what
else it holds, and is left as it is. -/
theorem Pools.history_namesakes :
    let box := TypeRef.applied "App.Box`1" [foo]
    let namesake := TypeRef.define "App.Box`1<App.Foo>"
    let s : Pools 2 := Pools.empty.run [.add 0 box, .add 1 namesake, .add 1 bar]
    let more : List (PoolOp 2) := [.merge 0 (some 1), .merge 0 none, .merge 0 (some 0)]
    box.fullName = namesake.fullName ∧ box ≠ namesake ∧ box ∈ (s 0).types ∧
      (s.run more 0).types = [box, bar] ∧
      (s.run more 0).types.find? (fun u => u.fullName = box.fullName) = some box ∧
      (1 : Fin 2) ≠ 0 ∧ s.merge 0 (some 1) 1 = s 1 := by
  intro box namesake s more
  have hlists : ∀ (ops : List (PoolOp 2)) (i : Fin 2),
      (Pools.empty.run ops i).types = (ops.foldl PoolOp.onLists (fun _ => {}) i).types :=
    fun ops i => congrArg Pool.types (((history 2 ops).1 i).2.2.2)
  obtain ⟨-, hgrows, -, -, -, -, hothers⟩ := history 2 [.add 0 box, .add 1 namesake, .add 1 bar]
  have hmem : box ∈ (s 0).types := by
    rw [hlists]
    decide
  refine ⟨by decide, by decide, hmem, ?_, ?_, by decide, ?_⟩
  · have hall : s.run more = Pools.empty.run
        ([.add 0 box, .add 1 namesake, .add 1 bar] ++ more) := (List.foldl_append ..).symm
    rw [hall, hlists]
    decide
  · exact (hgrows 0 more).2 box hmem
  · exact hothers 0 1 (some 1) (by decide)

end Monomorph
