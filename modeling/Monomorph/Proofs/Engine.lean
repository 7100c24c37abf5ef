import Monomorph.Proofs.Walk
import Monomorph.Resolve.Engine

/-!
# What each part of resolution returns

One lemma for each function of the engine, from the binding of a pair against the pool up to the
joined result of all seeds. Each says what a success tells about the parts, so that no later proof
opens the functions again.
-/

namespace Monomorph

section Except

variable {ε α β : Type}

theorem mem_mapM {f : α → Except ε β} : ∀ {l : List α} {rs : List β},
    l.mapM f = .ok rs → ∀ r, r ∈ rs ↔ ∃ a ∈ l, f a = .ok r
  | [], rs, h, r => by
      rw [List.mapM_nil] at h
      cases h
      simp
  | a :: l, rs, h, r => by
      rw [List.mapM_cons] at h
      cases ha : f a with
      | error e => rw [ha] at h; cases h
      | ok b =>
          cases hl : l.mapM f with
          | error e => rw [ha, hl] at h; cases h
          | ok bs =>
              rw [ha, hl] at h
              cases h
              simp only [List.mem_cons, mem_mapM hl r, exists_eq_or_imp, ha, Except.ok.injEq]
              rw [eq_comm]

theorem mapM_ok {f : α → Except ε β} : ∀ {l : List α},
    (∀ a ∈ l, ∃ b, f a = .ok b) → ∃ rs, l.mapM f = .ok rs
  | [], _ => ⟨[], List.mapM_nil⟩
  | a :: l, h => by
      obtain ⟨b, hb⟩ := h a (List.mem_cons_self ..)
      obtain ⟨bs, hbs⟩ := mapM_ok fun a' ha' => h a' (List.mem_cons_of_mem _ ha')
      exact ⟨b :: bs, by rw [List.mapM_cons, hb, hbs]; rfl⟩

theorem mapM_eq_ok {f : α → Except ε β} {g : α → β} {l : List α}
    (h : ∀ a ∈ l, f a = .ok (g a)) : l.mapM f = .ok (l.map g) := by
  induction l with
  | nil => rfl
  | cons a l ih =>
      obtain ⟨ha, hl⟩ := List.forall_mem_cons.mp h
      rw [List.mapM_cons, ha, ih hl, List.map_cons]
      rfl

end Except

namespace Registry

/-- `u` is `t`, or stands on the chain of base types above `t`. -/
inductive Inherits (r : Registry) : TypeRef → TypeRef → Prop where
  | refl (t : TypeRef) : Inherits r t t
  | base {t b u : TypeRef} (h : r.baseType? t = .ok (some b)) (hu : Inherits r b u) : Inherits r t u

/-- The chain of base types, by its places: the type itself, its base type, and so on while there is
one. -/
def above (r : Registry) (t : TypeRef) : Nat → Option TypeRef
  | 0 => some t
  | n + 1 => (r.above t n).bind fun u => (r.baseType? u).toOption.join

/-- The reference is an instance of the definition called `name`. -/
def isInstanceOf (name : Text) (u : TypeRef) : Bool := u.isInstance && u.name == name

/-- The first instance of the definition called `name` among the first `n` places of the chain. -/
def firstInstance? (r : Registry) (name : Text) (n : Nat) (t : TypeRef) : Option TypeRef :=
  ((List.range n).filterMap (r.above t)).find? (isInstanceOf name)

/-- The chain above a type is the type and the chain above its base type. -/
theorem above_succ (r : Registry) (t : TypeRef) (n : Nat) :
    r.above t (n + 1) = (r.baseType? t).toOption.join.bind fun b => r.above b n := by
  induction n with
  | zero => simp [above]
  | succ n ih =>
      rw [above, ih, Option.bind_assoc]
      rfl

theorem firstInstance?_found {r : Registry} {name : Text} {t : TypeRef}
    (h : isInstanceOf name t = true) (n : Nat) :
    r.firstInstance? name (n + 1) t = some t := by
  have hhead : r.above t 0 = some t := rfl
  rw [firstInstance?, List.range_succ_eq_map, List.filterMap_cons_some hhead]
  exact List.find?_cons_of_pos h

theorem firstInstance?_other {r : Registry} {name : Text} {t : TypeRef}
    (h : ¬ isInstanceOf name t = true) (n : Nat) :
    r.firstInstance? name (n + 1) t
      = (r.baseType? t).toOption.join.bind (r.firstInstance? name n) := by
  have hhead : r.above t 0 = some t := rfl
  have hshift : (r.above t ∘ Nat.succ)
      = fun n => (r.baseType? t).toOption.join.bind fun b => r.above b n :=
    funext (r.above_succ t)
  rw [firstInstance?, List.range_succ_eq_map, List.filterMap_cons_some hhead,
    List.find?_cons_of_neg h, List.filterMap_map, hshift]
  cases (r.baseType? t).toOption.join with
  | none => simp
  | some b => rfl

/-- What stands on the chain is inherited from. -/
theorem inherits_of_above {r : Registry} {u : TypeRef} : ∀ {n : Nat} {t : TypeRef},
    r.above t n = some u → r.Inherits t u
  | 0, t, h => by
      cases h
      exact .refl _
  | n + 1, t, h => by
      rw [above_succ] at h
      obtain ⟨b, hb, hrest⟩ := Option.bind_eq_some_iff.mp h
      cases hbase : r.baseType? t with
      | error f => simp [hbase, Except.toOption] at hb
      | ok o =>
          obtain rfl : o = some b := by simpa [hbase, Except.toOption] using hb
          exact .base hbase (inherits_of_above hrest)

theorem firstInstance?_some {r : Registry} {name : Text} {n : Nat} {t u : TypeRef}
    (h : r.firstInstance? name n t = some u) :
    r.Inherits t u ∧ u.isInstance = true ∧ u.name = name := by
  obtain ⟨i, -, hi⟩ := List.mem_filterMap.mp (List.mem_of_find?_eq_some h)
  have hfound := List.find?_some h
  simp only [isInstanceOf, Bool.and_eq_true, beq_iff_eq] at hfound
  exact ⟨inherits_of_above hi, hfound.1, hfound.2⟩

end Registry

namespace Engine

variable {e : Engine}

/-! ## Binding against the pool -/

/-- The arguments that are found belong to an instance of the declaring type that the candidate is
or inherits from. -/
theorem argsFor_some {declaring : Text} {args : List TypeRef} : ∀ {left : Nat} {t : TypeRef},
    e.argsFor declaring left t = .ok (some args) →
      ∃ u, e.registry.Inherits t u ∧ u.isInstance = true ∧ u.name = declaring ∧ u.args = args
  | 0, t, h => by cases h
  | left + 1, t, h => by
      rw [argsFor] at h
      split at h
      · rename_i hfound
        cases h
        simp only [Bool.and_eq_true, beq_iff_eq] at hfound
        exact ⟨t, .refl t, hfound.1, hfound.2, rfl⟩
      · split at h
        · cases h
        · cases h
        · rename_i b hb
          obtain ⟨u, hu, hrest⟩ := argsFor_some h
          exact ⟨u, .base hb hu, hrest⟩

/-- Where base types can be looked up, the arguments found are those of the first instance of the
declaring type on the chain. -/
theorem argsFor_eq (hbase : ∀ t, ∃ o, e.registry.baseType? t = .ok o) (declaring : Text) :
    ∀ (left : Nat) (t : TypeRef), e.argsFor declaring left t
      = .ok ((e.registry.firstInstance? declaring left t).map TypeRef.args)
  | 0, t => rfl
  | left + 1, t => by
      obtain ⟨o, ho⟩ := hbase t
      rw [argsFor, ← Registry.isInstanceOf]
      by_cases hfound : Registry.isInstanceOf declaring t = true
      · rw [if_pos hfound, Registry.firstInstance?_found hfound]
        rfl
      · rw [if_neg hfound, Registry.firstInstance?_other hfound, ho]
        cases o with
        | none => rfl
        | some b => exact argsFor_eq hbase declaring left b

theorem bindTypeArgs_some {t r : TypeRef} {args : List TypeRef}
    (h : bindTypeArgs t args = .ok (some r)) :
    (Bindings.ofTypeArgs args).apply t = .ok r ∧ r.isConcrete = true := by
  unfold bindTypeArgs at h
  split at h
  · rename_i r' hr'
    by_cases hc : r'.isConcrete = true
    · rw [if_pos hc] at h
      cases h
      exact ⟨hr', hc⟩
    · rw [if_neg hc] at h
      cases h
  · cases h
  · cases h

/-- A pair whose declaring type is generic is bound to what some pooled type makes of it. -/
theorem mem_bindFromPool_iff {p : Pair} {ts : List TypeRef} (h : e.bindFromPool p = .ok ts)
    {t : TypeRef} :
    t ∈ ts ↔ ∃ d, e.program.declaring? p.entry = some d ∧ d.isGeneric = true ∧
      ∃ c ∈ e.pool.types, e.bindWith d.fullName p.type c = .ok (some t) := by
  unfold bindFromPool at h
  cases hd : e.program.declaring? p.entry with
  | none =>
      rw [hd] at h
      cases h
      simp
  | some d =>
      rw [hd] at h
      simp only [Option.some.injEq, exists_eq_left']
      cases hgen : d.isGeneric with
      | false =>
          simp only [hgen, Bool.not_false, if_true] at h
          cases h
          simp
      | true =>
          simp only [hgen, Bool.not_true, Bool.false_eq_true, if_false] at h
          cases hmap : e.pool.types.mapM fun c => e.bindWith d.fullName p.type c with
          | error f => rw [hmap] at h; cases h
          | ok rs =>
              rw [hmap] at h
              cases h
              simp only [List.mem_filterMap, id_eq, exists_eq_right, true_and]
              exact mem_mapM hmap (some t)

theorem bindWith_some {declaring : Text} {t c r : TypeRef}
    (h : e.bindWith declaring t c = .ok (some r)) :
    ∃ args, e.argsFor declaring maxBaseDepth c = .ok (some args) ∧
      bindTypeArgs t args = .ok (some r) := by
  unfold bindWith at h
  split at h
  · cases h
  · cases h
  · rename_i args hargs
    exact ⟨args, hargs, h⟩

theorem mem_bindFromPool {p : Pair} {ts : List TypeRef} (h : e.bindFromPool p = .ok ts)
    {t : TypeRef} (ht : t ∈ ts) :
    ∃ d, e.program.declaring? p.entry = some d ∧ d.isGeneric = true ∧
      ∃ c ∈ e.pool.types, ∃ u, e.registry.Inherits c u ∧ u.isInstance = true ∧
        u.name = d.fullName ∧ (Bindings.ofTypeArgs u.args).apply p.type = .ok t ∧
        t.isConcrete = true := by
  obtain ⟨d, hd, hgen, c, hc, hbind⟩ := (mem_bindFromPool_iff h).mp ht
  obtain ⟨args, hargs, hbind⟩ := bindWith_some hbind
  obtain ⟨u, hu, hinst, hname, rfl⟩ := argsFor_some hargs
  obtain ⟨happly, hconc⟩ := bindTypeArgs_some hbind
  exact ⟨d, hd, hgen, c, hc, u, hu, hinst, hname, happly, hconc⟩

/-! ## The ends of a walk -/

theorem bindFinals_concrete {p : Pair} (hc : p.type.isConcrete = true) (ps : List Pair) :
    e.bindFinals (p :: ps)
      = (e.bindFinals ps).map fun r => (p.type :: r.1, r.2.1, r.2.2) := by
  rw [bindFinals]
  cases e.bindFinals ps with
  | error f => rfl
  | ok r => simp [hc, bind, Except.bind, Except.map, pure, Except.pure]

theorem bindFinals_generic {p : Pair} (hc : p.type.isConcrete = false) {more : List TypeRef}
    (hp : e.bindFromPool p = .ok more) (ps : List Pair) :
    e.bindFinals (p :: ps)
      = (e.bindFinals ps).map fun r =>
          (more ++ r.1, r.2.1 + more.length, if more = [] then r.2.2 + 1 else r.2.2) := by
  rw [bindFinals]
  cases e.bindFinals ps with
  | error f => rfl
  | ok r =>
      cases more <;> simp [hc, hp, bind, Except.bind, Except.map, pure, Except.pure]

theorem bindFinals_cons {p : Pair} {ps : List Pair} {types : List TypeRef} {bound dropped : Nat}
    (h : e.bindFinals (p :: ps) = .ok (types, bound, dropped)) :
    ∃ rest bound' dropped', e.bindFinals ps = .ok (rest, bound', dropped') ∧
      (p.type.isConcrete = true ∧ types = p.type :: rest ∨
        p.type.isConcrete = false ∧
          ∃ more, e.bindFromPool p = .ok more ∧ types = more ++ rest) := by
  cases hrest : e.bindFinals ps with
  | error f => rw [bindFinals, hrest] at h; cases h
  | ok r =>
      obtain ⟨rest, bound', dropped'⟩ := r
      refine ⟨rest, bound', dropped', rfl, ?_⟩
      cases hc : p.type.isConcrete with
      | true =>
          rw [bindFinals_concrete hc, hrest] at h
          cases h
          exact Or.inl ⟨rfl, rfl⟩
      | false =>
          cases hp : e.bindFromPool p with
          | error f => simp [bindFinals, hrest, hc, hp, bind, Except.bind] at h
          | ok more =>
              rw [bindFinals_generic hc hp, hrest] at h
              cases h
              exact Or.inr ⟨rfl, more, rfl, rfl⟩

/-- What an end of a walk contributes: its own type when that is concrete, else what the pool binds
it to. -/
def Gives (e : Engine) (p : Pair) (t : TypeRef) : Prop :=
  p.type.isConcrete = true ∧ t = p.type ∨
    p.type.isConcrete = false ∧ ∃ more, e.bindFromPool p = .ok more ∧ t ∈ more

theorem gives_concrete {p : Pair} (hc : p.type.isConcrete = true) {t : TypeRef} :
    e.Gives p t ↔ t = p.type := by
  simp [Gives, hc]

theorem gives_generic {p : Pair} (hc : p.type.isConcrete = false) {more : List TypeRef}
    (hp : e.bindFromPool p = .ok more) {t : TypeRef} : e.Gives p t ↔ t ∈ more := by
  simp [Gives, hc, hp]

/-- The types that the ends of a walk give are exactly their contributions. -/
theorem mem_bindFinals {ps : List Pair} : ∀ {types : List TypeRef} {bound dropped : Nat},
    e.bindFinals ps = .ok (types, bound, dropped) →
      ∀ t, t ∈ types ↔ ∃ p ∈ ps, e.Gives p t := by
  induction ps with
  | nil =>
      intro types bound dropped h t
      cases h
      simp
  | cons p ps ih =>
      intro types bound dropped h t
      obtain ⟨rest, bound', dropped', hrest, hp⟩ := bindFinals_cons h
      simp only [List.mem_cons, exists_eq_or_imp, ← ih hrest t]
      rcases hp with ⟨hc, rfl⟩ | ⟨hc, more, hmore, rfl⟩
      · rw [gives_concrete hc, List.mem_cons]
      · rw [gives_generic hc hmore, List.mem_append]

theorem bindFromPool_of_bindFinals {ps : List Pair} :
    ∀ {types : List TypeRef} {bound dropped : Nat}, e.bindFinals ps = .ok (types, bound, dropped) →
      ∀ p ∈ ps, p.Generic → ∃ ts, e.bindFromPool p = .ok ts := by
  induction ps with
  | nil => simp
  | cons q ps ih =>
      intro types bound dropped h p hp hgen
      obtain ⟨rest, bound', dropped', hrest, hq⟩ := bindFinals_cons h
      rcases List.mem_cons.mp hp with rfl | hp
      · rcases hq with ⟨hconc, -⟩ | ⟨-, more, hmore, -⟩
        · exact absurd (hgen.symm.trans hconc) Bool.false_ne_true
        · exact ⟨more, hmore⟩
      · exact ih hrest p hp hgen

/-- The ends of a walk give types when the pool faults at none of the generic ones. -/
theorem bindFinals_ok : ∀ {ps : List Pair},
    (∀ p ∈ ps, p.Generic → ∃ ts, e.bindFromPool p = .ok ts) → ∃ r, e.bindFinals ps = .ok r
  | [], _ => ⟨_, rfl⟩
  | p :: ps, h => by
      obtain ⟨r, hr⟩ := bindFinals_ok fun q hq => h q (List.mem_cons_of_mem p hq)
      cases hc : p.type.isConcrete with
      | true => exact ⟨_, by rw [bindFinals_concrete hc, hr]; rfl⟩
      | false =>
          obtain ⟨ts, hts⟩ := h p (List.mem_cons_self ..) hc
          exact ⟨_, by rw [bindFinals_generic hc hts, hr]; rfl⟩

/-! ## One seed -/

theorem resolveSeed_eq {p : Pair}
    (h : (Walk.walk e.callers e.maxDepth p {}).2.counts.faulted = false) :
    e.resolveSeed p
      = (e.bindFinals (Walk.finals e.callers e.maxDepth p)).map fun r =>
          (r.1,
            { seeds := 1, finals := (Walk.finals e.callers e.maxDepth p).length,
              unresolved := (Walk.walk e.callers e.maxDepth p {}).2.counts.unresolved,
              cycles := (Walk.walk e.callers e.maxDepth p {}).2.counts.cycles,
              depth := (Walk.walk e.callers e.maxDepth p {}).2.counts.depth,
              poolBound := r.2.1, dropped := r.2.2 }) := by
  unfold resolveSeed Walk.finals
  cases hb : e.bindFinals (Walk.walk e.callers e.maxDepth p {}).1 with
  | error f => simp [h, hb, bind, Except.bind, Except.map]
  | ok r => simp [h, hb, bind, Except.bind, Except.map, pure, Except.pure]

theorem resolveSeed_fault {p : Pair}
    (h : (Walk.walk e.callers e.maxDepth p {}).2.counts.faulted = true) :
    e.resolveSeed p = .error .outOfRange := by
  unfold resolveSeed
  simp [h, bind, Except.bind, throw, throwThe, MonadExceptOf.throw]

/-- A seed that resolves gives the types of its ends, and its counters are those of the walk and of
the binding. -/
theorem resolveSeed_ok {p : Pair} {types : List TypeRef} {stats : Stats}
    (h : e.resolveSeed p = .ok (types, stats)) :
    ∃ bound dropped,
      e.bindFinals (Walk.finals e.callers e.maxDepth p) = .ok (types, bound, dropped) ∧
      stats =
        { seeds := 1, finals := (Walk.finals e.callers e.maxDepth p).length,
          unresolved := (Walk.walk e.callers e.maxDepth p {}).2.counts.unresolved,
          cycles := (Walk.walk e.callers e.maxDepth p {}).2.counts.cycles,
          depth := (Walk.walk e.callers e.maxDepth p {}).2.counts.depth,
          poolBound := bound, dropped } := by
  cases hf : (Walk.walk e.callers e.maxDepth p {}).2.counts.faulted with
  | true => rw [resolveSeed_fault hf] at h; cases h
  | false =>
      rw [resolveSeed_eq hf] at h
      cases hb : e.bindFinals (Walk.finals e.callers e.maxDepth p) with
      | error f => rw [hb] at h; cases h
      | ok r =>
          rw [hb] at h
          cases h
          exact ⟨r.2.1, r.2.2, rfl, rfl⟩

theorem bindFinals_of_resolveSeed {p : Pair} {types : List TypeRef} {stats : Stats}
    (h : e.resolveSeed p = .ok (types, stats)) :
    ∃ bound dropped,
      e.bindFinals (Walk.finals e.callers e.maxDepth p) = .ok (types, bound, dropped) := by
  obtain ⟨bound, dropped, hfinals, -⟩ := resolveSeed_ok h
  exact ⟨bound, dropped, hfinals⟩

/-! ## Joining the seeds -/

/-- One type joins the result unless its full name is already there. -/
def joinOne (r : Resolution) (t : TypeRef) : Resolution :=
  if r.types.any fun u => u.fullName == t.fullName then
    { r with stats := { r.stats with duplicates := r.stats.duplicates + 1 } }
  else { r with types := r.types ++ [t] }

theorem join_eq_foldl (r : Resolution) (types : List TypeRef) (stats : Stats) :
    join r types stats = types.foldl joinOne { r with stats := r.stats.add stats } := rfl

theorem joinOne_types (r : Resolution) (t : TypeRef) :
    (joinOne r t).types
      = if t.fullName ∈ r.types.map TypeRef.fullName then r.types else r.types ++ [t] := by
  have hany : (r.types.any fun u => u.fullName == t.fullName) = true ↔
      t.fullName ∈ r.types.map TypeRef.fullName := by
    simp [List.any_eq_true]
  unfold joinOne
  by_cases h : t.fullName ∈ r.types.map TypeRef.fullName
  · rw [if_pos (hany.mpr h), if_pos h]
  · rw [if_neg (mt hany.mp h), if_neg h]

/-- What joining types to a result does to its list of types. -/
structure Joined (before : List TypeRef) (types after : List TypeRef) : Prop where
  kept : before ⊆ after
  origin : ∀ t ∈ after, t ∈ before ∨ t ∈ types
  named : ∀ t ∈ types, t.fullName ∈ after.map TypeRef.fullName
  nodup : (before.map TypeRef.fullName).Nodup → (after.map TypeRef.fullName).Nodup

theorem foldl_joinOne_joined (types : List TypeRef) :
    ∀ r : Resolution, Joined r.types types (types.foldl joinOne r).types := by
  induction types with
  | nil => exact fun r => ⟨List.Subset.refl _, fun t ht => Or.inl ht, by simp, id⟩
  | cons t types ih =>
      intro r
      have hrest := ih (joinOne r t)
      have hone := joinOne_types r t
      rw [List.foldl_cons]
      -- A type whose name is taken leaves the types as they are; any other one is appended.
      by_cases hmem : t.fullName ∈ r.types.map TypeRef.fullName
      · rw [if_pos hmem] at hone
        rw [hone] at hrest
        refine ⟨hrest.kept, ?_, ?_, hrest.nodup⟩
        · intro u hu
          exact (hrest.origin u hu).imp_right (List.mem_cons_of_mem t)
        · intro u hu
          rcases List.mem_cons.mp hu with rfl | hu
          · exact List.map_subset _ hrest.kept hmem
          · exact hrest.named u hu
      · rw [if_neg hmem] at hone
        rw [hone] at hrest
        refine ⟨List.Subset.trans (List.subset_append_left _ _) hrest.kept, ?_, ?_, ?_⟩
        · intro u hu
          rcases hrest.origin u hu with hu | hu
          · rcases List.mem_append.mp hu with hu | hu
            · exact Or.inl hu
            · exact Or.inr (List.mem_cons.mpr (Or.inl (List.mem_singleton.mp hu)))
          · exact Or.inr (List.mem_cons_of_mem t hu)
        · intro u hu
          rcases List.mem_cons.mp hu with rfl | hu
          · exact List.mem_map_of_mem (hrest.kept (by simp))
          · exact hrest.named u hu
        · intro hnd
          refine hrest.nodup ?_
          rw [List.map_append, List.nodup_append]
          refine ⟨hnd, by simp, ?_⟩
          intro a ha b hb hab
          rw [List.map_singleton, List.mem_singleton] at hb
          exact hmem (hb ▸ hab ▸ ha)

theorem join_joined (r : Resolution) (types : List TypeRef) (stats : Stats) :
    Joined r.types types (join r types stats).types := by
  rw [join_eq_foldl]
  exact foldl_joinOne_joined types { r with stats := r.stats.add stats }

/-! ## All seeds -/

/-- A call resolves to types: its seed is complete and the seed's resolution gives them. -/
def Resolves (e : Engine) (c : CallRef) (types : List TypeRef) : Prop :=
  ∃ p stats, pair? c = some p ∧ e.resolveSeed p = .ok (types, stats)

/-- The outcome of all seeds: full names do not repeat, every type comes from a seed, and every
type of a seed is there under its full name. -/
structure Outcome (e : Engine) (calls : List CallRef) (types : List TypeRef) : Prop where
  nodup : (types.map TypeRef.fullName).Nodup
  origin : ∀ t ∈ types, ∃ c ∈ calls, ∃ ts, e.Resolves c ts ∧ t ∈ ts
  named : ∀ c ∈ calls, ∃ ts, e.Resolves c ts ∧
    ∀ t ∈ ts, t.fullName ∈ types.map TypeRef.fullName

theorem resolveFrom_ok {cancelled : Bool} {out : Resolution} {calls : List CallRef} :
    ∀ {i : Nat} {r : Resolution}, e.resolveFrom cancelled i calls r = .ok out →
      r.types ⊆ out.types ∧
      ((r.types.map TypeRef.fullName).Nodup → (out.types.map TypeRef.fullName).Nodup) ∧
      (∀ t ∈ out.types, t ∈ r.types ∨ ∃ c ∈ calls, ∃ ts, e.Resolves c ts ∧ t ∈ ts) ∧
      ∀ c ∈ calls, ∃ ts, e.Resolves c ts ∧
        ∀ t ∈ ts, t.fullName ∈ out.types.map TypeRef.fullName := by
  induction calls with
  | nil =>
      intro i r h
      cases h
      exact ⟨List.Subset.refl _, id, fun t ht => Or.inl ht, by simp⟩
  | cons c calls ih =>
      intro i r h
      rw [resolveFrom] at h
      split at h
      · cases h
      · split at h
        · cases h
        · rename_i p hp
          split at h
          · cases h
          · rename_i types stats hseed
            have hc : e.Resolves c types := ⟨p, stats, hp, hseed⟩
            have hjoin := join_joined r types stats
            obtain ⟨hkept, hnodup, horigin, hnamed⟩ := ih h
            refine ⟨List.Subset.trans hjoin.kept hkept, fun hnd => hnodup (hjoin.nodup hnd), ?_, ?_⟩
            · intro t ht
              rcases horigin t ht with ht | ⟨c', hc', hres⟩
              · exact (hjoin.origin t ht).imp_right fun ht =>
                  ⟨c, List.mem_cons_self .., types, hc, ht⟩
              · exact Or.inr ⟨c', List.mem_cons_of_mem c hc', hres⟩
            · intro c' hc'
              rcases List.mem_cons.mp hc' with rfl | hc'
              · exact ⟨types, hc, fun t ht => List.map_subset _ hkept (hjoin.named t ht)⟩
              · exact hnamed c' hc'

/-- What a successful resolution says about its types. -/
theorem resolve_outcome {cancelled : Bool} {calls : List CallRef} {out : Resolution}
    (h : e.resolve calls cancelled = .ok out) : e.Outcome calls out.types := by
  obtain ⟨-, hnodup, horigin, hnamed⟩ := resolveFrom_ok h
  refine ⟨hnodup List.nodup_nil, ?_, hnamed⟩
  intro t ht
  rcases horigin t ht with ht | hres
  · cases ht
  · exact hres

theorem Resolves.mem {c : CallRef} {ts : List TypeRef} (h : e.Resolves c ts) :
    ∃ seed, pair? c = some seed ∧
      ∀ t, t ∈ ts ↔ ∃ p ∈ Walk.finals e.callers e.maxDepth seed, e.Gives p t := by
  obtain ⟨seed, stats, hpair, hseed⟩ := h
  obtain ⟨bound, dropped, hfinals⟩ := bindFinals_of_resolveSeed hseed
  exact ⟨seed, hpair, mem_bindFinals hfinals⟩

/-- A full name is among the resolved types exactly when an end of a seed's walk contributes a type
of that name. -/
theorem Outcome.mem_names {calls : List CallRef} {types : List TypeRef}
    (h : e.Outcome calls types) (name : Text) :
    name ∈ types.map TypeRef.fullName ↔
      ∃ c ∈ calls, ∃ seed, pair? c = some seed ∧
        ∃ p ∈ Walk.finals e.callers e.maxDepth seed, ∃ t, e.Gives p t ∧ t.fullName = name := by
  constructor
  · intro hname
    obtain ⟨t, ht, rfl⟩ := List.mem_map.mp hname
    obtain ⟨c, hc, ts, hres, hts⟩ := h.origin t ht
    obtain ⟨seed, hpair, hmem⟩ := hres.mem
    obtain ⟨p, hp, hgives⟩ := (hmem t).mp hts
    exact ⟨c, hc, seed, hpair, p, hp, t, hgives, rfl⟩
  · rintro ⟨c, hc, seed, hpair, p, hp, t, hgives, rfl⟩
    obtain ⟨ts, hres, hnamed⟩ := h.named c hc
    obtain ⟨seed', hpair', hmem⟩ := hres.mem
    obtain rfl : seed' = seed := Option.some.inj (hpair'.symm.trans hpair)
    exact hnamed t ((hmem t).mpr ⟨p, hp, hgives⟩)

/-- A concrete type that the walk of a seed ends on is resolved. -/
theorem Outcome.fullName_mem {calls : List CallRef} {types : List TypeRef}
    (h : e.Outcome calls types) {c : CallRef} (hc : c ∈ calls) {seed : Pair}
    (hseed : pair? c = some seed) {q : Pair} (hmem : q ∈ Walk.finals e.callers e.maxDepth seed)
    (hq : q.type.isConcrete = true) : q.type.fullName ∈ types.map TypeRef.fullName :=
  (h.mem_names _).mpr ⟨c, hc, seed, hseed, q, hmem, q.type, (gives_concrete hq).mpr rfl, rfl⟩

/-! ## Cuts -/

theorem join_cuts (r : Resolution) (types : List TypeRef) (stats : Stats) :
    (join r types stats).stats.depth = r.stats.depth + stats.depth ∧
      (join r types stats).stats.cycles = r.stats.cycles + stats.cycles := by
  have hone : ∀ (r : Resolution) (t : TypeRef), (joinOne r t).stats.depth = r.stats.depth ∧
      (joinOne r t).stats.cycles = r.stats.cycles := by
    intro r t
    unfold joinOne
    split <;> exact ⟨rfl, rfl⟩
  rw [join_eq_foldl]
  refine List.foldlRecOn (motive := fun out : Resolution =>
    out.stats.depth = r.stats.depth + stats.depth ∧
      out.stats.cycles = r.stats.cycles + stats.cycles) _ _ ⟨rfl, rfl⟩ ?_
  intro out hout t _
  obtain ⟨hdepth, hcycles⟩ := hone out t
  exact ⟨hdepth.trans hout.1, hcycles.trans hout.2⟩

theorem resolveSeed_cuts {p : Pair} {types : List TypeRef} {stats : Stats}
    (h : e.resolveSeed p = .ok (types, stats)) :
    stats.depth = (Walk.walk e.callers e.maxDepth p {}).2.counts.depth ∧
      stats.cycles = (Walk.walk e.callers e.maxDepth p {}).2.counts.cycles := by
  obtain ⟨bound, dropped, -, rfl⟩ := resolveSeed_ok h
  exact ⟨rfl, rfl⟩

/-- The cuts of every seed are counted in the result. -/
theorem resolveFrom_cuts {cancelled : Bool} {out : Resolution} {calls : List CallRef} :
    ∀ {i : Nat} {r : Resolution}, e.resolveFrom cancelled i calls r = .ok out →
      (r.stats.depth ≤ out.stats.depth ∧ r.stats.cycles ≤ out.stats.cycles) ∧
      ∀ c ∈ calls, ∀ seed, pair? c = some seed →
        r.stats.depth + (Walk.walk e.callers e.maxDepth seed {}).2.counts.depth
            ≤ out.stats.depth ∧
          r.stats.cycles + (Walk.walk e.callers e.maxDepth seed {}).2.counts.cycles
            ≤ out.stats.cycles := by
  induction calls with
  | nil =>
      intro i r h
      cases h
      exact ⟨⟨Int.le_refl _, Int.le_refl _⟩, by simp⟩
  | cons c calls ih =>
      intro i r h
      rw [resolveFrom] at h
      split at h
      · cases h
      · split at h
        · cases h
        · rename_i p hp
          split at h
          · cases h
          · rename_i types stats hseed
            obtain ⟨hstart, hrest⟩ := ih h
            obtain ⟨hdepth, hcycles⟩ := join_cuts r types stats
            obtain ⟨hdepth', hcycles'⟩ := resolveSeed_cuts hseed
            rw [hdepth, hcycles, hdepth', hcycles'] at hstart hrest
            refine ⟨by omega, ?_⟩
            intro c' hc' seed hpair
            rcases List.mem_cons.mp hc' with rfl | hc'
            · obtain rfl : p = seed := Option.some.inj (hp.symm.trans hpair)
              exact hstart
            · have hcuts := hrest c' hc' seed hpair
              omega

/-- Resolution succeeds when every seed does. -/
theorem resolveFrom_succeeds {calls : List CallRef} (h : ∀ c ∈ calls, ∃ ts, e.Resolves c ts) :
    ∀ (i : Nat) (r : Resolution), ∃ out, e.resolveFrom false i calls r = .ok out := by
  induction calls with
  | nil => exact fun i r => ⟨r, rfl⟩
  | cons c calls ih =>
      intro i r
      obtain ⟨ts, p, stats, hp, hseed⟩ := h c (List.mem_cons_self ..)
      obtain ⟨out, hout⟩ := ih (fun c' hc' => h c' (List.mem_cons_of_mem c hc')) (i + 1)
        (join r ts stats)
      refine ⟨out, ?_⟩
      rw [resolveFrom, hp]
      simpa [hseed] using hout

end Engine

/-! ## A whole program -/

theorem resolve_of_resolveProgram {modules : List (Option Module)} {calls : List CallRef}
    {maxDepth : Nat} {cancelled : Bool} {out : Resolution}
    (h : resolveProgram modules calls maxDepth cancelled = .ok out) :
    (Engine.ofModules modules maxDepth).resolve calls cancelled = .ok out := by
  unfold resolveProgram at h
  split at h
  · cases h
  · split at h
    · rename_i r hr
      cases h
      exact hr
    · cases h

theorem resolveProgram_outcome {modules : List (Option Module)} {calls : List CallRef}
    {maxDepth : Nat} {cancelled : Bool} {out : Resolution}
    (h : resolveProgram modules calls maxDepth cancelled = .ok out) :
    (Engine.ofModules modules maxDepth).Outcome calls out.types :=
  Engine.resolve_outcome (resolve_of_resolveProgram h)

/-- A result without cuts comes from walks without cuts. -/
theorem resolveProgram_cuts {modules : List (Option Module)} {calls : List CallRef}
    {maxDepth : Nat} {cancelled : Bool} {out : Resolution}
    (h : resolveProgram modules calls maxDepth cancelled = .ok out) {c : CallRef} (hc : c ∈ calls)
    {seed : Pair} (hseed : Engine.pair? c = some seed) :
    let counts := (Walk.walk (Engine.ofModules modules maxDepth).callers maxDepth seed {}).2.counts
    (out.stats.depth = 0 → counts.depth = 0) ∧ (out.stats.cycles = 0 → counts.cycles = 0) := by
  obtain ⟨hdepth, hcycles⟩ :=
    (Engine.resolveFrom_cuts (resolve_of_resolveProgram h)).2 c hc seed hseed
  have hzero : ∀ n : Nat, (0 : Int) + n ≤ 0 → n = 0 := by omega
  constructor
  · intro hout
    exact hzero _ (hout ▸ hdepth)
  · intro hout
    exact hzero _ (hout ▸ hcycles)

theorem resolveProgram_succeeds {modules : List (Option Module)} {calls : List CallRef}
    {maxDepth : Nat}
    (h : ∀ c ∈ calls, ∃ ts, (Engine.ofModules modules maxDepth).Resolves c ts) :
    ∃ out, resolveProgram modules calls maxDepth = .ok out := by
  obtain ⟨out, hout⟩ := Engine.resolveFrom_succeeds h 0 {}
  refine ⟨out, ?_⟩
  unfold resolveProgram Engine.resolve
  rw [hout]
  simp

end Monomorph
