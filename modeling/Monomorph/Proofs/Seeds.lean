import Mathlib.Data.Finset.Dedup
import Monomorph.Proofs.ModuleOrder

/-!
# Seeds together

Nothing passes from one seed to another but the full names that are taken. So what two lists of
seeds resolve to is determined by what each list resolves to: `Resolution.append` says how. The
argument is that a seed joins behind a result in the same way whether the result stands alone or
behind another one (`join_append`), and `resolveFrom` does nothing but join seeds.
-/

namespace Monomorph

namespace Resolution

/-- The full names of the types, in order. -/
def names (r : Resolution) : List Text := r.types.map TypeRef.fullName

/-- A result behind another one. Its types follow unless their full name is taken; the ones left out
count as duplicates, and all other counters add up. -/
def append (a b : Resolution) : Resolution where
  types := a.types ++ b.types.filter fun t => !a.names.contains t.fullName
  stats :=
    { seeds := a.stats.seeds + b.stats.seeds
      finals := a.stats.finals + b.stats.finals
      unresolved := a.stats.unresolved + b.stats.unresolved
      cycles := a.stats.cycles + b.stats.cycles
      depth := a.stats.depth + b.stats.depth
      poolBound := a.stats.poolBound + b.stats.poolBound
      dropped := a.stats.dropped + b.stats.dropped
      duplicates := a.stats.duplicates + b.stats.duplicates
        + b.types.countP fun t => a.names.contains t.fullName }

theorem append_empty (a : Resolution) : a.append {} = a := by
  simp [append]

theorem mem_names_append {a b : Resolution} {name : Text} :
    name ∈ (a.append b).names ↔ name ∈ a.names ∨ name ∈ b.names := by
  simp only [names, append, List.map_append, List.mem_append, List.mem_map, List.mem_filter]
  constructor
  · rintro (h | ⟨t, ⟨ht, -⟩, rfl⟩)
    · exact Or.inl h
    · exact Or.inr ⟨t, ht, rfl⟩
  · rintro (h | ⟨t, ht, rfl⟩)
    · exact Or.inl h
    · by_cases hmem : t.fullName ∈ a.types.map TypeRef.fullName
      · exact Or.inl (List.mem_map.mp hmem)
      · exact Or.inr ⟨t, ⟨ht, by simpa using hmem⟩, rfl⟩

end Resolution

/-- A seed in which nothing is missing. -/
def CallRef.Complete (c : CallRef) : Prop := c.type.isPresent = true ∧ c.entry.isSome = true

namespace Engine

variable {e : Engine}

theorem exists_pair_of_complete {c : CallRef} (h : c.Complete) : ∃ p, pair? c = some p := by
  rcases h with ⟨hpresent, hentry⟩
  rcases Option.isSome_iff_exists.mp hentry with ⟨id, hid⟩
  exact ⟨{ type := c.type, entry := id }, pair?_eq_some_iff.mpr ⟨hpresent, hid, rfl⟩⟩

/-! ## One type, one seed, all seeds -/

theorem joinOne_taken {r : Resolution} {t : TypeRef} (h : t.fullName ∈ r.names) :
    joinOne r t = { r with stats := { r.stats with duplicates := r.stats.duplicates + 1 } } := by
  refine if_pos ?_
  simpa [List.any_eq_true, Resolution.names] using h

theorem joinOne_free {r : Resolution} {t : TypeRef} (h : t.fullName ∉ r.names) :
    joinOne r t = { r with types := r.types ++ [t] } := by
  refine if_neg ?_
  simpa [List.any_eq_true, Resolution.names] using h

/-- A type that joins a result behind another one joins it as if it stood alone. -/
theorem joinOne_append (a b : Resolution) (t : TypeRef) :
    joinOne (a.append b) t = a.append (joinOne b t) := by
  by_cases hb : t.fullName ∈ b.names
  · have htaken : t.fullName ∈ (a.append b).names := Resolution.mem_names_append.mpr (Or.inr hb)
    rw [joinOne_taken hb, joinOne_taken htaken]
    simp only [Resolution.append, Resolution.mk.injEq, Stats.mk.injEq, true_and]
    omega
  · rw [joinOne_free hb]
    by_cases ha : t.fullName ∈ a.names
    -- The type is new to `b` and repeats one of `a`: alone it is kept, behind `a` it is counted.
    · rw [joinOne_taken (Resolution.mem_names_append.mpr (Or.inl ha))]
      simp [Resolution.append, List.filter_append, List.countP_append, ha]
      omega
    · have hfree : t.fullName ∉ (a.append b).names := by
        rw [Resolution.mem_names_append]
        exact not_or.mpr ⟨ha, hb⟩
      rw [joinOne_free hfree]
      simp [Resolution.append, List.filter_append, List.countP_append, ha]

/-- A seed joins a result behind another one as if that result stood alone. -/
theorem join_append (a b : Resolution) (types : List TypeRef) (stats : Stats) :
    join (a.append b) types stats = a.append (join b types stats) := by
  have hstart : ({ a.append b with stats := (a.append b).stats.add stats } : Resolution)
      = a.append { b with stats := b.stats.add stats } := by
    simp only [Resolution.append, Stats.add, Resolution.mk.injEq, Stats.mk.injEq, true_and]
    omega
  rw [join_eq_foldl, join_eq_foldl, hstart]
  exact List.foldl_hom a.append fun b t => joinOne_append a b t

theorem resolveFrom_seeds_append {cancelled : Bool} (A B : List CallRef) :
    ∀ (i : Nat) (r : Resolution), e.resolveFrom cancelled i (A ++ B) r
      = (e.resolveFrom cancelled i A r).bind (e.resolveFrom cancelled (i + A.length) B) := by
  induction A with
  | nil => exact fun i r => rfl
  | cons c A ih =>
      intro i r
      rw [List.cons_append, resolveFrom, resolveFrom, List.length_cons]
      split
      · rfl
      · split
        · rfl
        · split
          · rfl
          · rename_i types stats _
            rw [ih (i + 1) (join r types stats)]
            congr 2
            omega

/-- Complete seeds resolve behind a result as they do alone, and their number does not matter. -/
theorem resolveFrom_behind {cancelled : Bool} {B : List CallRef} (hB : ∀ c ∈ B, c.Complete)
    (a : Resolution) : ∀ (i j : Nat) (b : Resolution),
      e.resolveFrom cancelled i B (a.append b)
        = (e.resolveFrom cancelled j B b).map a.append := by
  induction B with
  | nil => exact fun i j b => rfl
  | cons c B ih =>
      intro i j b
      obtain ⟨hc, hrest⟩ := List.forall_mem_cons.mp hB
      obtain ⟨p, hp⟩ := exists_pair_of_complete hc
      rw [resolveFrom, resolveFrom, hp]
      cases cancelled with
      | true => rfl
      | false =>
          dsimp only [Bool.false_eq_true, if_false]
          cases e.resolveSeed p with
          | error f => rfl
          | ok out =>
              dsimp only
              rw [join_append]
              exact ih hrest (i + 1) (j + 1) (join b out.1 out.2)

/-! ## Which seeds, not in which order -/

/-- Resolution succeeds exactly if every seed is complete and resolves. -/
theorem resolve_ok_iff {A : List CallRef} :
    (∃ out, e.resolve A = .ok out) ↔ ∀ c ∈ A, ∃ ts, e.Resolves c ts := by
  constructor
  · rintro ⟨out, hout⟩ c hc
    rcases (resolve_outcome hout).named c hc with ⟨ts, hts, -⟩
    exact ⟨ts, hts⟩
  · intro h
    exact resolveFrom_succeeds h 0 {}

/-- Complete seeds fail in one way only. -/
theorem resolveFrom_complete_error {A : List CallRef} (hA : ∀ c ∈ A, c.Complete)
    {f : ResolveError} : ∀ {i : Nat} {r : Resolution}, e.resolveFrom false i A r = .error f →
      f = .fault := by
  induction A with
  | nil => exact fun h => nomatch h
  | cons c A ih =>
      intro i r h
      obtain ⟨hc, hrest⟩ := List.forall_mem_cons.mp hA
      obtain ⟨p, hp⟩ := exists_pair_of_complete hc
      simp only [resolveFrom, hp, Bool.false_eq_true, if_false] at h
      split at h
      · exact (Except.error.inj h).symm
      · exact ih hrest h

/-- Seeds with the same members resolve to the same full names, or fail both. -/
theorem resolve_names_congr {A C : List CallRef} (hA : ∀ c ∈ A, c.Complete)
    (h : ∀ c, c ∈ C ↔ c ∈ A) :
    (e.resolve C).map (fun r => r.names.toFinset) = (e.resolve A).map fun r => r.names.toFinset := by
  have hsucceed : (∃ out, e.resolve C = .ok out) ↔ ∃ out, e.resolve A = .ok out := by
    simp only [resolve_ok_iff, h]
  cases hout : e.resolve A with
  | ok out =>
      obtain ⟨out', hout'⟩ := hsucceed.mpr ⟨out, hout⟩
      rw [hout']
      refine congrArg Except.ok (Finset.ext fun name => ?_)
      rw [List.mem_toFinset, List.mem_toFinset]
      refine ((resolve_outcome hout').mem_names name).trans
        (Iff.trans ?_ ((resolve_outcome hout).mem_names name).symm)
      simp only [h]
  | error f =>
      cases hout' : e.resolve C with
      | ok out' =>
          obtain ⟨out, hok⟩ := hsucceed.mp ⟨out', hout'⟩
          exact nomatch hout.symm.trans hok
      | error f' =>
          have hC : ∀ c ∈ C, c.Complete := fun c hc => hA c ((h c).mp hc)
          rw [resolveFrom_complete_error hA hout, resolveFrom_complete_error hC hout']

/-- **Resolution is compositional in its seeds.** For every program view and all lists of complete
seeds, the result of two lists in a row is that of the second behind that of the first, and the two
lists together fail when one of them does. So only which seeds there are decides the set of
resolved types, as told by their full names: no seed's place and no repetition does. -/
theorem resolve_append (e : Engine) (A B : List CallRef) (hA : ∀ c ∈ A, c.Complete)
    (hB : ∀ c ∈ B, c.Complete) :
    (e.resolve (A ++ B) = (e.resolve A).bind fun a => (e.resolve B).map a.append) ∧
      ∀ C : List CallRef, (∀ c, c ∈ C ↔ c ∈ A) →
        (e.resolve C).map (fun r => r.names.toFinset)
          = (e.resolve A).map fun r => r.names.toFinset := by
  refine ⟨?_, fun C hC => resolve_names_congr hA hC⟩
  unfold resolve
  rw [resolveFrom_seeds_append]
  congr 1
  funext a
  conv_lhs => rw [← Resolution.append_empty a]
  exact resolveFrom_behind hB a _ _ {}

end Engine

namespace Sample

/-- `A<T>` and `B<T>` both mention `Box<T>`; `Main` calls `A<Foo>`, `B<Foo>` and `B<Bar>`. -/
def shared : Module :=
  let mention (owner : Text) := TypeRef.applied "App.Box`1" [.methodParam "T" 0 owner]
  hostModule
    [staticMethod "A" ["T"] [withType .ldtoken (mention "App.Host::A"), plain .pop],
      staticMethod "B" ["T"] [withType .ldtoken (mention "App.Host::B"), plain .pop],
      staticMethod "Main" [] [hostCall "A" foo, hostCall "B" foo, hostCall "B" bar]]

/-- The engine over the two. -/
def sharedEngine : Engine := .ofModules [some shared] 64

/-- The seed in the method of `Host` called `name`, which stands at `index`. -/
def sharedCall (name : Text) (index : Nat) : CallRef :=
  { type := .applied "App.Box`1" [.methodParam "T" 0 ("App.Host::" ++ name)],
    entry := some { type := 2, index } }

end Sample

open Sample in
/-- `Box<Foo>` comes from both seeds. In a row they give it once and count the repetition, and the
first seed once more counts another one. -/
theorem Engine.resolve_append_shared :
    (∀ c ∈ [sharedCall "A" 0, sharedCall "B" 1], c.Complete) ∧
    (∀ c ∈ [sharedCall "A" 0], c.Complete) ∧
    ∃ a b, sharedEngine.resolve [sharedCall "A" 0, sharedCall "B" 1] = .ok a ∧
      sharedEngine.resolve [sharedCall "A" 0] = .ok b ∧
      sharedEngine.resolve [sharedCall "A" 0, sharedCall "B" 1, sharedCall "A" 0]
        = .ok (a.append b) ∧
      a.names = [("App.Box`1<App.Foo>" : Text), "App.Box`1<App.Bar>"] ∧ a.stats.duplicates = 1 ∧
      (a.append b).names = a.names ∧ (a.append b).stats.duplicates = 2 ∧
      (sharedEngine.resolve [sharedCall "B" 1, sharedCall "A" 0]).map (fun r => r.names.toFinset)
        = .ok a.names.toFinset := by
  have hboth : ∀ c ∈ [sharedCall "A" 0, sharedCall "B" 1], c.Complete := by
    simp [CallRef.Complete, sharedCall, TypeRef.isPresent, TypeRef.applied]
  have hfirst : ∀ c ∈ [sharedCall "A" 0], c.Complete :=
    fun c hc => hboth c (List.mem_cons.mpr (Or.inl (List.mem_singleton.mp hc)))
  obtain ⟨hjoin, hset⟩ := resolve_append sharedEngine _ _ hboth hfirst
  have hrun : ∃ a b, sharedEngine.resolve [sharedCall "A" 0, sharedCall "B" 1] = .ok a ∧
      sharedEngine.resolve [sharedCall "A" 0] = .ok b ∧
      a.names = [("App.Box`1<App.Foo>" : Text), "App.Box`1<App.Bar>"] ∧ a.stats.duplicates = 1 ∧
      (a.append b).names = a.names ∧ (a.append b).stats.duplicates = 2 :=
    ⟨_, _, rfl, rfl, rfl, rfl, rfl, rfl⟩
  obtain ⟨a, b, ha, hb, hnames, hdup, hnames', hdup'⟩ := hrun
  rw [ha, hb] at hjoin
  have hswap := hset [sharedCall "B" 1, sharedCall "A" 0] fun c => by
    rw [List.mem_pair, List.mem_pair, or_comm]
  rw [ha] at hswap
  exact ⟨hboth, hfirst, a, b, ha, hb, hjoin, hnames, hdup, hnames', hdup', hswap⟩

end Monomorph
