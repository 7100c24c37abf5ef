import Monomorph.Proofs.Accepted
import Monomorph.Proofs.Origin
import Monomorph.Proofs.RoundTrip
import Monomorph.Proofs.Soundness
import Monomorph.Sample

/-!
# Resolution of decoded programs

A program is decoded when each of its modules was read from bytes. Then everything that resolution
looks at keeps the promises of reading: call sites, seeds, base types and pooled types. From the
widths alone it follows that no substitution reaches in front of its arguments, so that seeds
collected from a decoded program always resolve (`Decoded.resolves`).

What a rule says about the references in the code it also says about the types that resolution
derives from them (`Engine.Derives.obeys`).
-/

namespace Monomorph

/-- Every module was read from bytes. -/
def Decoded (modules : List (Option Module)) : Prop :=
  ∀ m, some m ∈ modules → ∃ bytes, Module.decode bytes = .ok m

namespace Decoded

variable {modules : List (Option Module)} (h : Decoded modules)

include h

theorem definition {d : Definition} (hd : d ∈ (Registry.ofModules modules).definitions) :
    d.Accepted := by
  obtain ⟨m, hm, hd⟩ := Registry.mem_definitions_iff.mp hd
  obtain ⟨bytes, hbytes⟩ := h m hm
  exact Module.accepted_of_decode hbytes d hd

theorem instruction {i : Instruction} (hi : (Registry.ofModules modules).Runs i) :
    i.Valid ∧ i.Narrow := by
  obtain ⟨d, hd, x, hx, hi⟩ := hi
  exact (h.definition hd).code x hx i hi

theorem site {maxDepth : Nat} {id : MethodId} {s : Site}
    (hs : s ∈ (Engine.ofModules modules maxDepth).callers id) :
    s.ref.Valid ∧ s.ref.declaring.Obeys .narrow := by
  obtain ⟨i, hi, hmethod⟩ := Engine.origin_of_mem_callers hs
  obtain ⟨hvalid, hnarrow⟩ := h.instruction hi
  exact ⟨hvalid.method _ hmethod, (hnarrow.method _ hmethod).declaring.obeys⟩

theorem seed {seeds : List Text} {c : CallRef}
    (hc : c ∈ CallRef.collect (Registry.ofModules modules) seeds) :
    c.type.Obeys (.format False) := by
  obtain ⟨-, hinst, i, hi, hcand⟩ := CallRef.origin_of_mem_collect hc
  obtain ⟨hvalid, -⟩ := h.instruction hi
  rcases List.mem_cons.mp hcand with htype | hdecl
  · rw [htype] at hinst ⊢
    exact hvalid.type.obeys_of_present (TypeRef.isPresent_of_isInstance hinst)
  · split at hdecl
    · cases hm : i.operand.method with
      | none => simp [hm] at hdecl
      | some r =>
          have hr : c.type = r.declaring := by simpa [hm] using hdecl
          rw [hr]
          exact (hvalid.method r hm).declaring
    · simp at hdecl

theorem pooled {t : TypeRef} (ht : t ∈ (Pool.ofModules modules).types) :
    t.Obeys (.format False) ∧ t.Obeys .narrow := by
  obtain ⟨hinst, horigin⟩ := Pool.origin_of_mem_ofModules ht
  have hpresent := TypeRef.isPresent_of_isInstance hinst
  rcases horigin with ⟨i, hi, rfl | ⟨r, hr, rfl⟩⟩ | ⟨d, hd, rfl⟩
  · obtain ⟨hvalid, hnarrow⟩ := h.instruction hi
    exact ⟨hvalid.type.obeys_of_present hpresent, hnarrow.type.obeys⟩
  · obtain ⟨hvalid, hnarrow⟩ := h.instruction hi
    exact ⟨(hvalid.method r hr).declaring, (hnarrow.method r hr).declaring.obeys⟩
  · have hd := h.definition hd
    exact ⟨hd.base.obeys_of_present hpresent, hd.narrow.obeys⟩

end Decoded

/-! ## Rules along derivations -/

/-- The chain of base types keeps the rules that the base types obey. -/
theorem Registry.Inherits.obeys {R : Rules} {r : Registry}
    (hbase : ∀ d ∈ r.definitions, d.head.base.isPresent = true → d.head.base.Obeys R)
    {t u : TypeRef} (h : r.Inherits t u) (ht : t.Obeys R) : u.Obeys R := by
  induction h with
  | refl => exact ht
  | @base t b u hb _ ih =>
      refine ih ?_
      unfold Registry.baseType? at hb
      split at hb
      · cases hb
      · rename_i d hd
        have hmem := Registry.mem_definitions_of_resolveType? hd
        split at hb
        · cases hb
        · rename_i hpresent
          have hobeys := hbase d hmem (by simpa using hpresent)
          split at hb
          · cases hb
            exact hobeys
          · rename_i hinst
            split at hb
            · cases hb
            · cases hb
              exact .fillIn (ht.args (by simpa using hinst)) hobeys

/-- A chain of call sites keeps the rules that the arguments of the call sites obey. -/
theorem Pair.Chain.obeys {R : Rules} {callers : MethodId → List Site} {via : Pair → Prop}
    (hsites : ∀ id, ∀ s ∈ callers id, ∀ a ∈ (Bindings.ofSite s.ref).args, a.Obeys R) {n : Nat}
    {p q : Pair} (h : Pair.Chain callers via n p q) (hp : p.type.Obeys R) : q.type.Obeys R := by
  refine h.invariant (P := fun q => q.type.Obeys R) ?_ hp
  rintro q r hq ⟨site, hsite, happly, -⟩
  exact Bindings.apply_obeys (hsites _ site hsite) hq happly

/-- Where no base type has a parameter that reaches in front of the arguments, every base type can be
looked up. -/
theorem Registry.baseType?_ok {r : Registry}
    (h : ∀ d ∈ r.definitions, d.head.base.reachesBefore = false) (t : TypeRef) :
    ∃ o, r.baseType? t = .ok o := by
  unfold baseType?
  split
  · exact ⟨none, rfl⟩
  · rename_i d hd
    rw [h d (mem_definitions_of_resolveType? hd)]
    split
    · exact ⟨none, rfl⟩
    · split
      · exact ⟨_, rfl⟩
      · exact ⟨_, rfl⟩

namespace Engine

variable {e : Engine}

/-- A derived type obeys the rules that the seed, the arguments of the call sites, the base types
and the pooled types obey. -/
theorem Derives.obeys {R : Rules}
    (hsites : ∀ id, ∀ s ∈ e.callers id, ∀ a ∈ (Bindings.ofSite s.ref).args, a.Obeys R)
    (hbase : ∀ d ∈ e.registry.definitions, d.head.base.isPresent = true → d.head.base.Obeys R)
    (hpool : ∀ t ∈ e.pool.types, t.Obeys R) {seed : Pair} {t : TypeRef} (h : e.Derives seed t)
    (hseed : seed.type.Obeys R) : t.Obeys R := by
  cases h with
  | carried chain type => exact type ▸ chain.obeys hsites hseed
  | pooled chain _ _ _ mem inherits inst _ bound =>
      have hu := inherits.obeys hbase (hpool _ mem)
      exact Bindings.apply_obeys (hu.args inst) (chain.obeys hsites hseed) bound

/-! ## Nothing faults -/

theorem bindTypeArgs_ok {t : TypeRef} {args : List TypeRef} (ht : t.Obeys .placed)
    (hargs : args.length < 4294967296) : ∃ o, bindTypeArgs t args = .ok o := by
  have hrange := Bindings.apply_ne_outOfRange (Bindings.narrow_ofTypeArgs hargs) ht
  unfold bindTypeArgs
  split
  · exact ⟨_, rfl⟩
  · exact ⟨_, rfl⟩
  · rename_i hout
    exact absurd hout hrange

/-- Binding against a pool of narrow types does not fault. -/
theorem bindFromPool_ok
    (hplaced : ∀ d ∈ e.registry.definitions, d.head.base.Obeys .placed)
    (hnarrow : ∀ d ∈ e.registry.definitions, d.head.base.Obeys .narrow)
    (hpool : ∀ t ∈ e.pool.types, t.Obeys .narrow) {p : Pair} (hp : p.type.Obeys .placed) :
    ∃ ts, e.bindFromPool p = .ok ts := by
  unfold bindFromPool
  split
  · exact ⟨[], rfl⟩
  · rename_i d hd
    split
    · exact ⟨[], rfl⟩
    · have hbind : ∀ c ∈ e.pool.types, ∃ o, e.bindWith d.fullName p.type c = .ok o := by
        intro c hc
        rw [bindWith, argsFor_eq (Registry.baseType?_ok
          fun d hd => TypeRef.reachesBefore_of_placed (hplaced d hd))]
        cases hu : e.registry.firstInstance? d.fullName maxBaseDepth c with
        | none => exact ⟨none, rfl⟩
        | some u =>
            obtain ⟨hinherits, hinst, -⟩ := Registry.firstInstance?_some hu
            have hobeys := hinherits.obeys (fun d hd _ => hnarrow d hd) (hpool c hc)
            exact bindTypeArgs_ok hp (hobeys.inst_rule hinst)
      obtain ⟨rs, hrs⟩ := mapM_ok hbind
      exact ⟨_, by rw [hrs]; rfl⟩

end Engine

namespace Decoded

variable {modules : List (Option Module)} (h : Decoded modules)

include h

theorem siteArgs (maxDepth : Nat) (id : MethodId) :
    ∀ s ∈ (Engine.ofModules modules maxDepth).callers id,
      ∀ a ∈ (Bindings.ofSite s.ref).args, a.Obeys (.format True) := by
  intro s hs
  obtain ⟨hvalid, -⟩ := h.site hs
  exact Bindings.ofSite_obeys hvalid.declaring.allow_holes fun a ha => (hvalid.typeArgs a ha).obeys

/-- A seed collected from a decoded program resolves. -/
theorem resolves {maxDepth : Nat} {seeds : List Text} {c : CallRef}
    (hc : c ∈ CallRef.collect (Registry.ofModules modules) seeds) :
    ∃ ts, (Engine.ofModules modules maxDepth).Resolves c ts := by
  obtain ⟨p, hpair, htype⟩ := CallRef.pair?_of_mem_collect hc
  have hseed : p.type.Obeys (.format True) := htype ▸ (h.seed hc).allow_holes
  let e := Engine.ofModules modules maxDepth
  have hfault : (Walk.walk e.callers e.maxDepth p {}).2.counts.faulted = false := by
    refine Walk.faulted_walk (P := fun q => q.type.Obeys (.format True)) ?_ ?_ e.maxDepth p {} hseed
    · rintro q r hq ⟨site, hsite, happly, -⟩
      exact Bindings.apply_obeys (h.siteArgs maxDepth _ site hsite) hq happly
    · intro q hq site hsite
      exact Bindings.apply_ne_outOfRange (Bindings.narrow_ofSite (h.site hsite).2) hq.placed
  have hfinals : ∀ q ∈ Walk.finals e.callers e.maxDepth p, q.Generic →
      ∃ ts, e.bindFromPool q = .ok ts := by
    intro q hq _
    obtain ⟨n, -, hchain⟩ := Walk.chain_of_mem_finals hq
    have hobeys := hchain.obeys (h.siteArgs maxDepth) hseed
    refine Engine.bindFromPool_ok ?_ ?_ ?_ hobeys.placed
    · exact fun d hd => (h.definition hd).base.obeys.placed
    · exact fun d hd => (h.definition hd).narrow.obeys
    · exact fun t ht => (h.pooled ht).2
  -- No call site faults on the walk and no end of it faults in the pool.
  obtain ⟨r, hr⟩ := Engine.bindFinals_ok hfinals
  exact ⟨_, p, _, hpair, by rw [Engine.resolveSeed_eq hfault, hr]; rfl⟩

end Decoded

/-- A module that can be written and marks no list as spelled out is decoded: its own file is read
back to it. -/
theorem decoded_of_fileBytes {m : Module} (h : m.formatFault? = none ∧ m.Narrow ∧ m.unmarked = m) :
    Decoded [some m] := by
  obtain ⟨hfault, hnarrow, hunmarked⟩ := h
  intro m' hm'
  cases List.mem_singleton.mp hm'
  exact ⟨m.fileBytes, by rw [Module.decode_fileBytes hfault hnarrow, hunmarked]⟩

theorem Decoded.append {modules modules' : List (Option Module)} (h : Decoded modules)
    (h' : Decoded modules') : Decoded (modules ++ modules') := by
  intro m hm
  rcases List.mem_append.mp hm with hm | hm
  · exact h m hm
  · exact h' m hm

theorem Decoded.perm {modules modules' : List (Option Module)} (h : Decoded modules)
    (hperm : modules.Perm modules') : Decoded modules' :=
  fun m hm => h m (hperm.mem_iff.mpr hm)

namespace Sample

/-- `A<T>` mentions `Box<T>`, `A` and `B<T>` call each other, and `Main` calls `B<Foo>`. -/
def ring : Sample :=
  let a := TypeRef.methodParam "T" 0 "App.Host::A"
  let b := TypeRef.methodParam "T" 0 "App.Host::B"
  let seed := TypeRef.applied "App.Box`1" [a]
  { seed,
    module := hostModule
      [staticMethod "A" ["T"] [withType .ldtoken seed, plain .pop, hostCall "B" a],
        staticMethod "B" ["T"] [hostCall "A" b], staticMethod "Main" [] [hostCall "B" foo]] }

/-- The seed in `A`. -/
def ringPair : Pair := { type := ring.seed, entry := { type := 2, index := 0 } }

theorem decoded_ring : Decoded [some ring.module] := decoded_of_fileBytes (by decide +kernel)

end Sample

end Monomorph
