import Monomorph.Proofs.Engine
import Monomorph.Sample

/-!
# What the depth limit cuts

The limit is meant for chains that are longer than it. The memory of a walk is blind to depth,
though: a pair that is first met near the limit is remembered with the results of a chain that was
cut below it, and these results answer a later visit that has substitutions left. So a short chain
can be lost to a longer one that passes through the same pairs first.

What survives is exact: a concrete type is an end of the walk if and only if some chain to it runs
through pairs that the walk expands, and a pair stays unexpanded only where the walk meets its key
with nothing left.
-/

namespace Monomorph

/-- **What the depth limit spares.** For every seed of a successful resolution:

* the concrete type at the end of a chain of expanded pairs is resolved;
* the concrete pairs that the seed's walk ends on are no others than the ends of such chains, and
  the resolved full names no others than what the ends of the seeds' walks contribute;
* a generic pair with call sites is expanded under its key as soon as the walk meets it with
  substitutions left. -/
theorem depth_limit_spares (modules : List (Option Module)) (calls : List CallRef)
    (maxDepth : Nat) (out : Resolution) (h : resolveProgram modules calls maxDepth = .ok out)
    (c : CallRef) (hc : c ∈ calls) (seed : Pair) (hseed : Engine.pair? c = some seed) :
    let e := Engine.ofModules modules maxDepth
    let expanded := Walk.Expanded e.callers maxDepth seed
    (∀ n (q : Pair), q.type.isConcrete = true → Pair.Chain e.callers expanded n seed q →
      q.type.fullName ∈ out.types.map TypeRef.fullName) ∧
    (∀ q : Pair, q.type.isConcrete = true →
      (q ∈ Walk.finals e.callers maxDepth seed ↔
        ∃ n, n ≤ maxDepth ∧ Pair.Chain e.callers expanded n seed q)) ∧
    (∀ name, name ∈ out.types.map TypeRef.fullName ↔
      ∃ c' ∈ calls, ∃ seed', Engine.pair? c' = some seed' ∧
        ∃ p ∈ Walk.finals e.callers maxDepth seed', ∃ t, e.Gives p t ∧ t.fullName = name) ∧
    (∀ left (p : Pair) s, Walk.Call e.callers maxDepth seed (left + 1) p s → p.Generic →
      e.callers p.entry ≠ [] → ∃ q, expanded q ∧ q.key = p.key) := by
  intro e expanded
  have hout := resolveProgram_outcome h
  refine ⟨?_, ?_, hout.mem_names, ?_⟩
  · intro n q hq hchain
    have hcall := Walk.mem_finals_of_chain (Or.inl hq) hchain
    exact hout.fullName_mem hc hseed hcall hq
  · intro q hq
    exact Walk.mem_finals_iff (Or.inl hq)
  · intro left p s hcall hp hsites
    exact hcall.expanded hp hsites (Or.inl (Nat.succ_ne_zero left))

namespace Sample

/-- `A<T>` mentions `Box<T>`. `B<T>` and `C<T>` call it, `C` calls `B` too, `D<T>` calls `C`, and
`Main` calls `D<Foo>`: three calls lead from `Main` to `A`, and four by way of `B`. -/
def relay : Sample :=
  let param (owner : Text) := TypeRef.methodParam "T" 0 owner
  let seed := TypeRef.applied "App.Box`1" [param "App.Host::A"]
  { seed,
    module := hostModule
      [staticMethod "A" ["T"] [withType .ldtoken seed, plain .pop],
        staticMethod "B" ["T"] [hostCall "A" (param "App.Host::B")],
        staticMethod "C" ["T"]
          [hostCall "A" (param "App.Host::C"), hostCall "B" (param "App.Host::C")],
        staticMethod "D" ["T"] [hostCall "C" (param "App.Host::D")],
        staticMethod "Main" [] [hostCall "D" foo]] }

/-- The box of the parameter of the method at an index of `Host`. -/
def relayPair (owner : Text) (index : Nat) : Pair :=
  { type := .applied "App.Box`1" [.methodParam "T" 0 owner], entry := { type := 2, index } }

/-- The seed in `A`. -/
def relayCall : CallRef := { type := relay.seed, entry := some { type := 2, index := 0 } }

end Sample

/-- With a limit of four nothing is cut, and the ends of the walk are those of its chains. -/
theorem depth_limit_spares_relay :
    ∃ out, resolveProgram [some Sample.relay.module] [Sample.relayCall] 4 = .ok out ∧
      Sample.relayCall ∈ [Sample.relayCall] ∧
      Engine.pair? Sample.relayCall = some (Sample.relayPair "App.Host::A" 0) ∧
      out.types.map TypeRef.fullName = [("App.Box`1<App.Foo>" : Text)] ∧
      ∀ q : Pair, q.type.isConcrete = true →
        (q ∈ Walk.finals (Engine.ofModules [some Sample.relay.module] 4).callers 4
            (Sample.relayPair "App.Host::A" 0) ↔
          ∃ n, n ≤ 4 ∧ Pair.Chain (Engine.ofModules [some Sample.relay.module] 4).callers
            (Walk.Expanded (Engine.ofModules [some Sample.relay.module] 4).callers 4
              (Sample.relayPair "App.Host::A" 0)) n (Sample.relayPair "App.Host::A" 0) q) := by
  have hrun : ∃ out, resolveProgram [some Sample.relay.module] [Sample.relayCall] 4 = .ok out ∧
      out.types.map TypeRef.fullName = [("App.Box`1<App.Foo>" : Text)] := ⟨_, rfl, rfl⟩
  obtain ⟨out, hout, hnames⟩ := hrun
  have hmem : Sample.relayCall ∈ [Sample.relayCall] := List.mem_singleton_self _
  have hspares := depth_limit_spares [some Sample.relay.module] [Sample.relayCall] 4 out hout
    Sample.relayCall hmem (Sample.relayPair "App.Host::A" 0) rfl
  exact ⟨out, hout, hmem, rfl, hnames, hspares.2.1⟩

/-- With a limit of three the chain by way of `B` is cut at `D`. What is remembered for `C` then
hides the chain of three substitutions from `A` through `C` and `D` to `Main`. -/
theorem short_chain_lost :
    ∃ out q, resolveProgram [some Sample.relay.module] [Sample.relayCall] 3 = .ok out ∧
      Engine.pair? Sample.relayCall = some (Sample.relayPair "App.Host::A" 0) ∧
      q.type.isConcrete = true ∧
      Pair.Chain (Engine.ofModules [some Sample.relay.module] 3).callers Pair.Generic 3
        (Sample.relayPair "App.Host::A" 0) q ∧
      q.type.fullName ∉ out.types.map TypeRef.fullName := by
  have hrun : ∃ out, resolveProgram [some Sample.relay.module] [Sample.relayCall] 3 = .ok out ∧
      out.types = [] := ⟨_, rfl, rfl⟩
  obtain ⟨out, hout, htypes⟩ := hrun
  let q : Pair := { type := .applied "App.Box`1" [Sample.foo], entry := { type := 2, index := 4 } }
  have hC : (Sample.relayPair "App.Host::A" 0).Steps
      (Engine.ofModules [some Sample.relay.module] 3).callers
      (Sample.relayPair "App.Host::C" 2) := ⟨_, .tail _ (.head _), rfl, rfl⟩
  have hD : (Sample.relayPair "App.Host::C" 2).Steps
      (Engine.ofModules [some Sample.relay.module] 3).callers
      (Sample.relayPair "App.Host::D" 3) := ⟨_, .head _, rfl, rfl⟩
  have hMain : (Sample.relayPair "App.Host::D" 3).Steps
      (Engine.ofModules [some Sample.relay.module] 3).callers q := ⟨_, .head _, rfl, rfl⟩
  refine ⟨out, q, hout, rfl, rfl, ?_, by simp [htypes]⟩
  exact .snoc (.snoc (.snoc (.refl _) rfl hC) rfl hD) rfl hMain

end Monomorph
