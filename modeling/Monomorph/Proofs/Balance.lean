import Monomorph.Proofs.Seeds

/-!
# The balance of a resolution

Every end of a seed's walk is concrete, bound against the pool or dropped, and every type that comes
out of this is resolved or counted as a duplicate. `Engine.Balanced` says so of the counters of a
result. It holds of the ends of one walk (`bindFinals_balance`), joining a seed keeps it
(`Balanced.join`), and so it holds of a whole run.
-/

namespace Monomorph

/-- How many of the pairs are concrete. -/
def Pair.concreteCount (ps : List Pair) : Nat := ps.countP fun p => p.type.isConcrete

namespace Engine

/-- Whether the pool binds the pair to at least one type. -/
def bindsSome (e : Engine) (p : Pair) : Bool :=
  match e.bindFromPool p with
  | .ok ts => !ts.isEmpty
  | .error _ => false

/-- How many of the pairs are generic and bound to at least one type. -/
def boundCount (e : Engine) (ps : List Pair) : Nat :=
  ps.countP fun p => !p.type.isConcrete && e.bindsSome p

/-- The ends of the walks of all seeds, in order. -/
def ends (e : Engine) (calls : List CallRef) : List Pair :=
  (calls.filterMap pair?).flatMap (Walk.finals e.callers e.maxDepth)

/-- The counters of a result account for the ends `ps` of the walks of `n` seeds, and for every type
that the ends have given. -/
structure Balanced (e : Engine) (n : Nat) (ps : List Pair) (r : Resolution) : Prop where
  seeds : r.stats.seeds = n
  finals : r.stats.finals = Pair.concreteCount ps + e.boundCount ps + r.stats.dropped
  poolBound : e.boundCount ps ≤ r.stats.poolBound
  types : r.types.length + r.stats.duplicates = Pair.concreteCount ps + r.stats.poolBound

/-- A seed faults: its walk does, or the pool does at a generic end of it. -/
def Faults (e : Engine) (p : Pair) : Prop :=
  (Walk.walk e.callers e.maxDepth p {}).2.counts.faulted = true ∨
    ∃ q ∈ Walk.finals e.callers e.maxDepth p, q.Generic ∧ ∃ f, e.bindFromPool q = .error f

variable {e : Engine}

/-! ## The ends of one walk -/

theorem counts_concrete {p : Pair} (hc : p.type.isConcrete = true) (ps : List Pair) :
    Pair.concreteCount (p :: ps) = Pair.concreteCount ps + 1 ∧
      e.boundCount (p :: ps) = e.boundCount ps := by
  simp [Pair.concreteCount, boundCount, hc]

theorem counts_generic {p : Pair} (hc : p.type.isConcrete = false) {more : List TypeRef}
    (hp : e.bindFromPool p = .ok more) (ps : List Pair) :
    Pair.concreteCount (p :: ps) = Pair.concreteCount ps ∧
      e.boundCount (p :: ps) = e.boundCount ps + if more = [] then 0 else 1 := by
  simp [Pair.concreteCount, boundCount, bindsSome, List.countP_cons, hc, hp]

theorem counts_append (ps qs : List Pair) :
    Pair.concreteCount (ps ++ qs) = Pair.concreteCount ps + Pair.concreteCount qs ∧
      e.boundCount (ps ++ qs) = e.boundCount ps + e.boundCount qs :=
  ⟨List.countP_append, List.countP_append⟩

/-- The ends of a walk are concrete, bound or dropped; a concrete one gives one type, and a bound one
at least one. -/
theorem bindFinals_balance {ps : List Pair} : ∀ {types : List TypeRef} {bound dropped : Nat},
    e.bindFinals ps = .ok (types, bound, dropped) →
      ps.length = Pair.concreteCount ps + e.boundCount ps + dropped ∧
      e.boundCount ps ≤ bound ∧ types.length = Pair.concreteCount ps + bound := by
  induction ps with
  | nil =>
      intro types bound dropped h
      cases h
      exact ⟨rfl, Nat.le_refl _, rfl⟩
  | cons p ps ih =>
      intro types bound dropped h
      obtain ⟨rest, bound', dropped', hrest, hp⟩ := bindFinals_cons h
      obtain ⟨hlength, hbound, htypes⟩ := ih hrest
      rcases hp with ⟨hc, -⟩ | ⟨hc, more, hmore, -⟩
      · rw [bindFinals_concrete hc, hrest] at h
        cases h
        obtain ⟨hconcrete, hsome⟩ := counts_concrete (e := e) hc ps
        simp only [List.length_cons]
        omega
      · rw [bindFinals_generic hc hmore, hrest] at h
        cases h
        obtain ⟨hconcrete, hsome⟩ := counts_generic hc hmore ps
        simp only [List.length_cons, List.length_append]
        cases more with
        | nil =>
            rw [if_pos rfl] at hsome ⊢
            simp only [List.length_nil]
            omega
        | cons t more =>
            rw [if_neg (List.cons_ne_nil t more)] at hsome ⊢
            simp only [List.length_cons]
            omega

/-! ## Joining -/

/-- A type that joins is kept or counted, and no other counter changes. -/
theorem joinOne_balance (r : Resolution) (t : TypeRef) :
    (joinOne r t).stats = { r.stats with duplicates := (joinOne r t).stats.duplicates } ∧
      (joinOne r t).types.length + (joinOne r t).stats.duplicates
        = r.types.length + r.stats.duplicates + 1 := by
  by_cases h : t.fullName ∈ r.names
  · rw [joinOne_taken h]
    refine ⟨rfl, ?_⟩
    dsimp only
    omega
  · rw [joinOne_free h]
    refine ⟨rfl, ?_⟩
    simp only [List.length_append, List.length_singleton]
    omega

theorem foldl_joinOne_balance (types : List TypeRef) : ∀ r : Resolution,
    (types.foldl joinOne r).stats
        = { r.stats with duplicates := (types.foldl joinOne r).stats.duplicates } ∧
      (types.foldl joinOne r).types.length + (types.foldl joinOne r).stats.duplicates
        = r.types.length + r.stats.duplicates + types.length := by
  induction types with
  | nil => exact fun r => ⟨rfl, (Int.add_zero _).symm⟩
  | cons t types ih =>
      intro r
      obtain ⟨hone, hkept⟩ := joinOne_balance r t
      obtain ⟨hrest, htotal⟩ := ih (joinOne r t)
      rw [List.foldl_cons, List.length_cons]
      refine ⟨?_, by omega⟩
      rw [hrest, hone]

/-- Joining a seed's types keeps the balance. -/
theorem Balanced.join {n : Nat} {ps : List Pair} {r : Resolution} (h : e.Balanced n ps r)
    {p : Pair} {types : List TypeRef} {stats : Stats}
    (hseed : e.resolveSeed p = .ok (types, stats)) :
    e.Balanced (n + 1) (ps ++ Walk.finals e.callers e.maxDepth p) (join r types stats) := by
  obtain ⟨bound, dropped, hfinals, rfl⟩ := resolveSeed_ok hseed
  obtain ⟨hlength, hbound, htypes⟩ := bindFinals_balance hfinals
  obtain ⟨hconcrete, hsome⟩ := counts_append (e := e) ps (Walk.finals e.callers e.maxDepth p)
  obtain ⟨hseeds, hends, hpool, htotal⟩ := h
  rw [join_eq_foldl]
  obtain ⟨hout, hjoined⟩ := foldl_joinOne_balance types { r with stats := r.stats.add _ }
  constructor
  · rw [hout]
    simp only [Stats.add, hseeds]
    omega
  · rw [hout]
    simp only [Stats.add]
    omega
  · rw [hout]
    simp only [Stats.add]
    omega
  · rw [hjoined, hout]
    simp only [Stats.add]
    omega

/-! ## All seeds -/

theorem Balanced.resolveFrom {cancelled : Bool} {out : Resolution} {calls : List CallRef} :
    ∀ {i n : Nat} {ps : List Pair} {r : Resolution}, e.Balanced n ps r →
      e.resolveFrom cancelled i calls r = .ok out →
        e.Balanced (n + calls.length) (ps ++ e.ends calls) out := by
  induction calls with
  | nil =>
      intro i n ps r h hout
      cases hout
      simpa [ends] using h
  | cons c calls ih =>
      intro i n ps r h hout
      rw [Engine.resolveFrom] at hout
      split at hout
      · cases hout
      · split at hout
        · cases hout
        · rename_i p hp
          split at hout
          · cases hout
          · rename_i types stats hseed
            have hends : e.ends (c :: calls)
                = Walk.finals e.callers e.maxDepth p ++ e.ends calls := by
              simp [ends, hp]
            rw [hends, ← List.append_assoc, List.length_cons, Nat.add_comm calls.length,
              ← Nat.add_assoc]
            exact ih (h.join hseed) hout

/-- A seed that does not resolve faults. -/
theorem faults_of_error {p : Pair} {f : Fault} (h : e.resolveSeed p = .error f) : e.Faults p := by
  by_contra hsafe
  obtain ⟨hwalk, hpool⟩ := not_or.mp hsafe
  have hunfaulted := eq_false_of_ne_true hwalk
  have hbound : ∀ q ∈ Walk.finals e.callers e.maxDepth p, q.Generic →
      ∃ ts, e.bindFromPool q = .ok ts := by
    intro q hq hgeneric
    cases hbind : e.bindFromPool q with
    | ok ts => exact ⟨ts, rfl⟩
    | error f => exact absurd ⟨q, hq, hgeneric, f, hbind⟩ hpool
  obtain ⟨r, hr⟩ := bindFinals_ok hbound
  rw [resolveSeed_eq hunfaulted, hr] at h
  cases h

/-- **Nothing disappears uncounted.** For every program view and every list of complete seeds: they
resolve, and the counters account for every end of every seed's walk and for every type that the
ends have given; or one of the seeds faults, and nothing resolves. -/
theorem resolve_balanced (e : Engine) (calls : List CallRef) (hcalls : ∀ c ∈ calls, c.Complete) :
    (∃ out, e.resolve calls = .ok out ∧ e.Balanced calls.length (e.ends calls) out ∧
        out.stats.finals - out.stats.dropped ≤ out.types.length + out.stats.duplicates) ∨
      e.resolve calls = .error .fault ∧ ∃ c ∈ calls, ∃ p, pair? c = some p ∧ e.Faults p := by
  cases hout : e.resolve calls with
  | ok out =>
      have hempty : e.Balanced 0 [] {} := ⟨rfl, rfl, Int.le_refl 0, rfl⟩
      have hbalanced := hempty.resolveFrom hout
      rw [Nat.zero_add, List.nil_append] at hbalanced
      have hkept : out.stats.finals - out.stats.dropped
          ≤ out.types.length + out.stats.duplicates := by
        have hfinals := hbalanced.finals
        have hpool := hbalanced.poolBound
        have htypes := hbalanced.types
        omega
      exact Or.inl ⟨out, rfl, hbalanced, hkept⟩
  | error f =>
      refine Or.inr ⟨by rw [resolveFrom_complete_error hcalls hout], ?_⟩
      by_contra hnone
      have hresolves : ∀ c ∈ calls, ∃ ts, e.Resolves c ts := by
        intro c hc
        obtain ⟨p, hp⟩ := exists_pair_of_complete (hcalls c hc)
        cases hseed : e.resolveSeed p with
        | ok out => exact ⟨out.1, p, out.2, hp, hseed⟩
        | error f => exact absurd ⟨c, hc, p, hp, faults_of_error hseed⟩ hnone
      obtain ⟨out, hok⟩ := resolve_ok_iff.mpr hresolves
      exact nomatch hout.symm.trans hok

end Engine

namespace Sample

/-- The engine over the pool sample. -/
def poolEngine : Engine := .ofModules [some pool.module] 64

/-- A `Box` of something as a seed in `Wrapper<T>.Run`. -/
def runCall (t : TypeRef) : CallRef :=
  { type := .applied "App.Box`1" [t], entry := some { type := 3, index := 1 } }

/-- One seed that the pool binds twice, one that it cannot bind, and one that is concrete. -/
def runCalls : List CallRef :=
  [runCall (.typeParam "T" 0 "App.Wrapper`1"), runCall (.methodParam "U" 0 "App.Wrapper`1::Run"),
    runCall foo]

end Sample

open Sample in
/-- Three ends, one of each kind: two types come from the pool, and the concrete one is one of them
again. -/
theorem Engine.resolve_balanced_run :
    (∀ c ∈ runCalls, c.Complete) ∧
    ∃ out, poolEngine.resolve runCalls = .ok out ∧
      poolEngine.Balanced 3 (poolEngine.ends runCalls) out ∧
      Pair.concreteCount (poolEngine.ends runCalls) = 1 ∧
      poolEngine.boundCount (poolEngine.ends runCalls) = 1 ∧
      out.stats.finals = 3 ∧ out.stats.dropped = 1 ∧ out.stats.poolBound = 2 ∧
      out.types.length = 2 ∧ out.stats.duplicates = 1 := by
  have hcomplete : ∀ c ∈ runCalls, c.Complete := by
    simp [CallRef.Complete, runCalls, runCall, TypeRef.isPresent, TypeRef.applied]
  have hrun : ∃ out, poolEngine.resolve runCalls = .ok out ∧ out.stats.finals = 3 ∧
      out.stats.dropped = 1 ∧ out.stats.poolBound = 2 ∧ out.types.length = 2 ∧
      out.stats.duplicates = 1 := ⟨_, rfl, rfl, rfl, rfl, rfl, rfl⟩
  obtain ⟨out, hout, hcounts⟩ := hrun
  obtain ⟨out', hout', hbalanced, -⟩ | ⟨hfault, -⟩ :=
    resolve_balanced poolEngine runCalls hcomplete
  · obtain rfl : out' = out := Except.ok.inj (hout'.symm.trans hout)
    exact ⟨hcomplete, out', hout, hbalanced, rfl, rfl, hcounts⟩
  · rw [hout] at hfault
    cases hfault

end Monomorph
