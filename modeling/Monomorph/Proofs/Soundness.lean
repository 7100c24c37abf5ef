import Monomorph.Proofs.Engine
import Monomorph.Proofs.Substitution
import Monomorph.Sample

/-!
# Soundness of resolution

Every resolved type is concrete, named once, and derived from a seed: the seed's type is carried
through a chain of call sites, and what is generic at the end of the chain is bound to the
arguments of a pooled instance of the declaring type. Memory, stack and depth limit of the walk
change which derivations are found, never what counts as one.
-/

namespace Monomorph

namespace Engine

/-- The ways in which a seed gives a type. -/
inductive Derives (e : Engine) (seed : Pair) (t : TypeRef) : Prop where
  /-- Call sites carry the seed to the type. -/
  | carried {n : Nat} {p : Pair} (chain : Pair.Chain e.callers Pair.Generic n seed p)
      (type : p.type = t)
  /-- Call sites carry the seed to a pair that is still generic. The method's declaring type is
  generic too, and its parameters take the arguments of an instance of it that a pooled type is or
  inherits from. -/
  | pooled {n : Nat} {p : Pair} {d : Definition} {candidate u : TypeRef}
      (chain : Pair.Chain e.callers Pair.Generic n seed p) (generic : p.Generic)
      (declaring : e.program.declaring? p.entry = some d) (isGeneric : d.isGeneric = true)
      (mem : candidate ∈ e.pool.types) (inherits : e.registry.Inherits candidate u)
      (inst : u.isInstance = true) (name : u.name = d.fullName)
      (bound : (Bindings.ofTypeArgs u.args).apply p.type = .ok t)

variable {e : Engine}

/-- The shape that substitution keeps: an instance of one definition with one number of
arguments. -/
def SameInstance (t u : TypeRef) : Prop :=
  u.isInstance = true ∧ u.name = t.name ∧ u.args.length = t.args.length

theorem SameInstance.apply {b : Bindings} {t u v : TypeRef} (h : SameInstance t u)
    (ha : b.apply u = .ok v) : SameInstance t v := by
  obtain ⟨hinst, hname, hlen⟩ := h
  obtain ⟨hinst', hname', hlen'⟩ := Bindings.apply_keeps_instance hinst ha
  exact ⟨hinst', hname'.trans hname, hlen'.trans hlen⟩

theorem chain_sameInstance {n : Nat} {seed p : Pair} (hseed : seed.type.isInstance = true)
    (h : Pair.Chain e.callers Pair.Generic n seed p) : SameInstance seed.type p.type := by
  have hstep : ∀ q r : Pair, SameInstance seed.type q.type → q.Steps e.callers r →
      SameInstance seed.type r.type := by
    rintro q r hq ⟨site, -, happly, -⟩
    exact hq.apply happly
  exact h.invariant hstep ⟨hseed, rfl, rfl⟩

/-- A derived type of an instance is an instance of the same definition. -/
theorem Derives.sameInstance {seed : Pair} {t : TypeRef} (h : e.Derives seed t)
    (hseed : seed.type.isInstance = true) : SameInstance seed.type t := by
  cases h with
  | carried chain type => exact type ▸ chain_sameInstance hseed chain
  | pooled chain _ _ _ _ _ _ _ bound => exact (chain_sameInstance hseed chain).apply bound

theorem generic_chain_of_mem_finals {seed p : Pair}
    (h : p ∈ Walk.finals e.callers e.maxDepth seed) :
    ∃ n, Pair.Chain e.callers Pair.Generic n seed p := by
  obtain ⟨n, -, chain⟩ := Walk.chain_of_mem_finals h
  exact ⟨n, chain.imp fun q hq => hq.generic⟩

/-- What an end of the seed's walk contributes is concrete and derived from the seed. -/
theorem Gives.derives {seed p : Pair} {t : TypeRef}
    (hp : p ∈ Walk.finals e.callers e.maxDepth seed) (h : e.Gives p t) :
    t.isConcrete = true ∧ e.Derives seed t := by
  obtain ⟨n, chain⟩ := generic_chain_of_mem_finals hp
  -- A concrete end is the type itself; a generic one is bound through its declaring type.
  rcases h with ⟨hc, rfl⟩ | ⟨hgen, more, hmore, ht⟩
  · exact ⟨hc, .carried chain rfl⟩
  · obtain ⟨d, hd, hdgen, c, hc, u, hu, hinst, hname, hbound, hconc⟩ := mem_bindFromPool hmore ht
    exact ⟨hconc, .pooled chain hgen hd hdgen hc hu hinst hname hbound⟩

theorem Resolves.derives {c : CallRef} {ts : List TypeRef} (h : e.Resolves c ts) {t : TypeRef}
    (ht : t ∈ ts) : ∃ seed, pair? c = some seed ∧ t.isConcrete = true ∧ e.Derives seed t := by
  obtain ⟨seed, hpair, hmem⟩ := h.mem
  obtain ⟨p, hp, hgives⟩ := (hmem t).mp ht
  exact ⟨seed, hpair, hgives.derives hp⟩

end Engine

/-- **Soundness of resolution.** Whatever the modules, the seeds and the depth limit: when
resolution succeeds, its types are concrete, no two share a full name, and each is derived from one
of the seeds, as an instance of the seed's definition with as many arguments when the seed is an
instance. -/
theorem resolveProgram_sound (modules : List (Option Module)) (calls : List CallRef)
    (maxDepth : Nat) (cancelled : Bool) (out : Resolution)
    (h : resolveProgram modules calls maxDepth cancelled = .ok out) :
    (∀ t ∈ out.types, t.isConcrete = true) ∧
      (out.types.map TypeRef.fullName).Nodup ∧
      ∀ t ∈ out.types, ∃ c ∈ calls, ∃ seed, Engine.pair? c = some seed ∧
        (Engine.ofModules modules maxDepth).Derives seed t ∧
        (seed.type.isInstance = true →
          t.isInstance = true ∧ t.name = seed.type.name ∧
            t.args.length = seed.type.args.length) := by
  have hout := resolveProgram_outcome h
  have hderives : ∀ t ∈ out.types, ∃ c ∈ calls, ∃ seed, Engine.pair? c = some seed ∧
      t.isConcrete = true ∧ (Engine.ofModules modules maxDepth).Derives seed t := by
    intro t ht
    obtain ⟨c, hc, ts, hres, hts⟩ := hout.origin t ht
    obtain ⟨seed, hpair, hconc, hder⟩ := hres.derives hts
    exact ⟨c, hc, seed, hpair, hconc, hder⟩
  refine ⟨?_, hout.nodup, ?_⟩
  · intro t ht
    obtain ⟨_, _, _, _, hconc, _⟩ := hderives t ht
    exact hconc
  · intro t ht
    obtain ⟨c, hc, seed, hpair, -, hder⟩ := hderives t ht
    exact ⟨c, hc, seed, hpair, hder, hder.sameInstance⟩

/-- Soundness where both bindings come from the pool, one of them through a derived class. -/
theorem resolveProgram_sound_pool :
    let modules := [some Sample.pool.module]
    let calls := CallRef.collect (Registry.ofModules modules) ["App.Box`1"]
    ∃ out, resolveProgram modules calls 64 = .ok out ∧
      out.types.map TypeRef.fullName
        = [("App.Box`1<App.Bar>" : Text), ("App.Box`1<App.Foo>" : Text)] ∧
      (∀ t ∈ out.types, t.isConcrete = true) ∧
      (out.types.map TypeRef.fullName).Nodup ∧
      ∀ t ∈ out.types, ∃ c ∈ calls, ∃ seed, Engine.pair? c = some seed ∧
        (Engine.ofModules modules 64).Derives seed t ∧
        (seed.type.isInstance = true →
          t.isInstance = true ∧ t.name = seed.type.name ∧
            t.args.length = seed.type.args.length) := by
  intro modules calls
  have hrun : ∃ out, resolveProgram modules calls 64 = .ok out ∧
      out.types.map TypeRef.fullName
        = [("App.Box`1<App.Bar>" : Text), ("App.Box`1<App.Foo>" : Text)] := ⟨_, rfl, rfl⟩
  obtain ⟨out, hout, hnames⟩ := hrun
  exact ⟨out, hout, hnames, resolveProgram_sound modules calls 64 false out hout⟩

end Monomorph
