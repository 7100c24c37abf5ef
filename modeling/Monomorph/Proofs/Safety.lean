import Monomorph.Proofs.Emission
import Monomorph.Proofs.Guarded
import Monomorph.Proofs.Refusal

/-!
# Decoded modules do not crash the analysis

The analysis with every access checked (`Monomorph.Guarded`) is run on modules that were read from
bytes. Reading leaves places empty that nothing looks into without asking first, and it lets
references through unchecked that nothing substitutes into. So no part of the checked analysis
crashes, and each gives what the analysis itself gives.

For resolution the argument follows the run: `Engine.Safe` says what the call sites, the base types
and the pool have to satisfy, and a pair that fits keeps fitting along every chain of calls.
-/

namespace Monomorph

namespace Guarded

/-! ## Agreement: resolution -/

theorem baseType_of_ok {r : Registry} {t : TypeRef} {o : Option TypeRef}
    (h : r.baseType? t = .ok o) : baseType r t = .ok o := by
  unfold Registry.baseType? at h
  unfold baseType
  cases hd : r.resolveType? t with
  | none =>
      rw [hd] at h
      cases h
      rfl
  | some d =>
      rw [hd] at h
      dsimp only at h ⊢
      split at h
      · rename_i hbase
        cases h
        rw [if_pos hbase]
      · rename_i hbase
        rw [if_neg hbase]
        split at h
        · rename_i hinst
          cases h
          rw [if_pos hinst]
        · rename_i hinst
          rw [if_neg hinst]
          split at h
          · cases h
          · rename_i hbefore
            cases h
            cases t with
            | absent => exact absurd rfl hinst
            | node kind name own position param owner =>
                rw [args, ok_bind, fillIn_eq own _ (by simpa using hbefore)]
                rfl

theorem ownArgs_eq (declaring : Text) (t : TypeRef) : ownArgs declaring t =
    .ok (if t.isInstance && t.name == declaring then some t.args else none) := by
  unfold ownArgs
  cases t with
  | absent => rfl
  | node kind name own position param owner =>
      by_cases hi : (TypeRef.node kind name own position param owner).isInstance = true
      · rw [if_pos hi, Guarded.name, ok_bind, hi, Bool.true_and, TypeRef.name]
        by_cases hname : (name == declaring) = true
        · rw [if_pos hname, if_pos hname]
          rfl
        · rw [if_neg hname, if_neg hname]
          rfl
      · rw [if_neg hi, if_neg (by simp [hi])]

theorem argsFor_of_ok {e : Engine} {declaring : Text} {o : Option (List TypeRef)} :
    ∀ {left : Nat} {t : TypeRef}, e.argsFor declaring left t = .ok o →
      argsFor e.registry declaring left t = .ok o
  | 0, _, h => by
      cases h
      rfl
  | left + 1, t, h => by
      rw [Engine.argsFor] at h
      rw [argsFor, ownArgs_eq, ok_bind]
      split at h
      · rename_i hfound
        cases h
        rw [if_pos hfound]
        rfl
      · rename_i hfound
        rw [if_neg hfound]
        dsimp only
        split at h
        · cases h
        · rename_i hbase
          cases h
          rw [baseType_of_ok hbase]
          rfl
        · rename_i base hbase
          rw [baseType_of_ok hbase]
          exact argsFor_of_ok h

theorem bindWith_of_ok {e : Engine} {declaring : Text} {t c : TypeRef} {o : Option TypeRef}
    (ht : t.Obeys .placed)
    (hown : ∀ own, e.argsFor declaring maxBaseDepth c = .ok (some own) → own.length < 4294967296)
    (h : e.bindWith declaring t c = .ok o) : bindWith e.registry declaring t c = .ok o := by
  unfold Engine.bindWith at h
  unfold bindWith
  split at h
  · cases h
  · rename_i hargs
    cases h
    rw [argsFor_of_ok hargs]
    rfl
  · rename_i own hargs
    rw [argsFor_of_ok hargs, ok_bind]
    dsimp only
    rw [apply_eq (Bindings.narrow_ofTypeArgs (hown own hargs)) ht, ok_bind]
    unfold Engine.bindTypeArgs at h
    split at h
    · rename_i u hu
      cases h
      rw [hu]
      rfl
    · rename_i hunbound
      cases h
      rw [hunbound]
      rfl
    · cases h

theorem mapM_of_ok {ε ε' α β : Type} {f : α → Except ε β} {g : α → Except ε' β} :
    ∀ {l : List α} {bs : List β}, (∀ a ∈ l, ∀ b, f a = .ok b → g a = .ok b) →
      l.mapM f = .ok bs → l.mapM g = .ok bs
  | [], _, _, h => by
      rw [List.mapM_nil] at h ⊢
      cases h
      rfl
  | a :: l, bs, hfg, h => by
      obtain ⟨ha, hl⟩ := List.forall_mem_cons.mp hfg
      rw [List.mapM_cons] at h ⊢
      cases hf : f a with
      | error e => rw [hf] at h; cases h
      | ok b =>
          cases hrest : l.mapM f with
          | error e => rw [hf, hrest] at h; cases h
          | ok bs' =>
              rw [hf, hrest] at h
              cases h
              rw [ha b hf, mapM_of_ok hl hrest]
              rfl

theorem bindFromPool_of_ok {e : Engine} {p : Pair} {m : Member} {ts : List TypeRef}
    (hentry : e.program.member? p.entry = some m)
    (hbind : ∀ declaring, ∀ c ∈ e.pool.types, ∀ o, e.bindWith declaring p.type c = .ok o →
      bindWith e.registry declaring p.type c = .ok o)
    (h : e.bindFromPool p = .ok ts) : bindFromPool e p = .ok ts := by
  unfold Engine.bindFromPool at h
  unfold bindFromPool
  rw [hentry, present, ok_bind]
  cases hd : e.program.declaring? p.entry with
  | none =>
      rw [hd] at h
      cases h
      rfl
  | some d =>
      rw [hd] at h
      dsimp only at h ⊢
      split at h
      · rename_i hgeneric
        cases h
        rw [if_pos hgeneric]
        rfl
      · rename_i hgeneric
        rw [if_neg hgeneric]
        cases hmap : e.pool.types.mapM fun c => e.bindWith d.fullName p.type c with
        | error f => rw [hmap] at h; cases h
        | ok rs =>
            rw [hmap] at h
            cases h
            rw [mapM_of_ok (hbind d.fullName) hmap]
            rfl

/-- The checked walk follows the walk as long as every call site on the way binds without a crash.
`P` holds of the pairs on the way. -/
theorem walk_eq {callers : MethodId → List Site} {P : Pair → Prop}
    (hstep : ∀ p q, P p → p.Steps callers q → P q)
    (hbind : ∀ p, P p → ∀ site ∈ callers p.entry,
      substitute site p.type = .ok ((Bindings.ofSite site.ref).apply p.type).toOption ∧
        (Bindings.ofSite site.ref).apply p.type ≠ .error .outOfRange) (left : Nat) :
    ∀ (p : Pair) (s : WalkState), P p →
      walk callers left p s = .ok (Walk.walk callers left p s) := by
  induction left with
  | zero =>
      intro p s _
      rw [walk.eq_def, Walk.walk.eq_def]
      dsimp only
      by_cases hconc : p.type.isConcrete = true
      · rw [if_pos hconc, if_pos hconc]
      rw [if_neg hconc, if_neg hconc]
      cases s.memo.lookup p.key with
      | some out => rfl
      | none =>
          dsimp only
          by_cases hstack : s.onStack.contains p.key = true
          · rw [if_pos hstack, if_pos hstack]
          · rw [if_neg hstack, if_neg hstack]
  | succ left ih =>
      intro p s hp
      rw [walk.eq_def, Walk.walk.eq_def]
      dsimp only
      by_cases hconc : p.type.isConcrete = true
      · rw [if_pos hconc, if_pos hconc]
      rw [if_neg hconc, if_neg hconc]
      cases s.memo.lookup p.key with
      | some out => rfl
      | none =>
          dsimp only
          by_cases hstack : s.onStack.contains p.key = true
          · rw [if_pos hstack, if_pos hstack]
          rw [if_neg hstack, if_neg hstack]
          cases hc : callers p.entry with
          | nil => rfl
          | cons site sites =>
              dsimp only
              rw [foldlM_eq_ok (g := Walk.visit callers left p.type)]
              · rfl
              -- One call site: it binds nothing, or the walk goes on from the calling method.
              · intro acc x hx
                obtain ⟨hsub, hrange⟩ := hbind p hp x (hc ▸ hx)
                rw [hsub, ok_bind]
                cases happly : (Bindings.ofSite x.ref).apply p.type with
                | error f =>
                    cases f with
                    | outOfRange => exact absurd happly hrange
                    | unbound =>
                        rw [Walk.visit_error happly]
                        rfl
                | ok t =>
                    have hnext := ih { type := t, entry := x.caller } acc.2
                      (hstep p _ hp ⟨x, hc ▸ hx, happly, rfl⟩)
                    rw [Walk.visit_ok happly]
                    dsimp only [Except.toOption]
                    rw [hnext]
                    rfl

theorem bindFinals_of_ok {e : Engine} : ∀ {ps : List Pair} {out : List TypeRef × Nat × Nat},
    (∀ p ∈ ps, ∀ ts, e.bindFromPool p = .ok ts → bindFromPool e p = .ok ts) →
      e.bindFinals ps = .ok out → bindFinals e ps = .ok out
  | [], _, _, h => by
      cases h
      rfl
  | p :: ps, out, hps, h => by
      obtain ⟨hp, hrest⟩ := List.forall_mem_cons.mp hps
      rw [Engine.bindFinals] at h
      rw [bindFinals]
      cases hr : e.bindFinals ps with
      | error f => rw [hr] at h; cases h
      | ok r =>
          rw [hr, ok_bind] at h
          rw [bindFinals_of_ok hrest hr, ok_bind]
          dsimp only at h ⊢
          split at h
          · rename_i hconc
            rw [if_pos hconc]
            cases h
            rfl
          · rename_i hconc
            rw [if_neg hconc]
            cases hb : e.bindFromPool p with
            | error f => rw [hb] at h; cases h
            | ok more =>
                rw [hb, ok_bind] at h
                rw [hp more hb, ok_bind]
                cases more with
                | nil =>
                    cases h
                    rfl
                | cons t more =>
                    cases h
                    rfl

end Guarded

/-! ## Engines that do not crash -/

/-- What the call sites, the base types and the pool of an engine have to satisfy: argument lists
are narrow, the positions in the arguments of a call site fit, and call sites stand in methods. -/
structure Engine.Safe (e : Engine) : Prop where
  narrow : ∀ id, ∀ s ∈ e.callers id, s.ref.declaring.Obeys .narrow
  placed : ∀ id, ∀ s ∈ e.callers id, ∀ a ∈ (Bindings.ofSite s.ref).args, a.Obeys .placed
  caller : ∀ id, ∀ s ∈ e.callers id, ∃ m, e.program.member? s.caller = some m
  bases : ∀ d ∈ e.registry.definitions, d.head.base.Obeys .narrow
  pool : ∀ t ∈ e.pool.types, t.Obeys .narrow

/-- The positions in the type of a pair fit, and its entry is a method. -/
structure Pair.Safe (e : Engine) (p : Pair) : Prop where
  type : p.type.Obeys .placed
  entry : ∃ m, e.program.member? p.entry = some m

namespace Engine.Safe

variable {e : Engine} (h : e.Safe)
include h

/-- A call site keeps a pair safe. -/
theorem step {p q : Pair} (hp : p.Safe e) (hq : p.Steps e.callers q) : q.Safe e := by
  obtain ⟨site, hsite, happly, hcaller⟩ := hq
  refine ⟨Bindings.apply_obeys (h.placed _ site hsite) hp.type happly, ?_⟩
  rw [hcaller]
  exact h.caller _ site hsite

theorem walk_eq {p : Pair} (hp : p.Safe e) : Guarded.walk e.callers e.maxDepth p {} =
    .ok (Walk.walk e.callers e.maxDepth p {}) := by
  refine Guarded.walk_eq (P := Pair.Safe e) (fun _ _ => h.step) ?_ e.maxDepth p {} hp
  intro q hq site hsite
  have hb := Bindings.narrow_ofSite (h.narrow _ site hsite)
  rw [Guarded.substitute, Guarded.bindings_eq, Guarded.ok_bind]
  exact ⟨Guarded.apply_eq hb hq.type, Bindings.apply_ne_outOfRange hb hq.type⟩

theorem bindFromPool_of_ok {p : Pair} (hp : p.Safe e) {ts : List TypeRef}
    (hts : e.bindFromPool p = .ok ts) : Guarded.bindFromPool e p = .ok ts := by
  obtain ⟨m, hm⟩ := hp.entry
  refine Guarded.bindFromPool_of_ok hm ?_ hts
  intro declaring c hc o ho
  refine Guarded.bindWith_of_ok hp.type ?_ ho
  intro own hown
  obtain ⟨u, hu, hinst, -, rfl⟩ := argsFor_some hown
  have hobeys := hu.obeys (fun d hd _ => h.bases d hd) (h.pool c hc)
  exact hobeys.inst_rule hinst

/-- A seed resolves with every access checked to what it resolves to. -/
theorem resolveSeed_of_ok {p : Pair} (hp : p.Safe e) {out : List TypeRef × Stats}
    (hout : e.resolveSeed p = .ok out) : Guarded.resolveSeed e p = .ok out := by
  have hfinals : ∀ q ∈ Walk.finals e.callers e.maxDepth p, q.Safe e := by
    intro q hq
    obtain ⟨n, -, hchain⟩ := Walk.chain_of_mem_finals hq
    exact hchain.invariant (fun _ _ => h.step) hp
  cases hf : (Walk.walk e.callers e.maxDepth p {}).2.counts.faulted with
  | true => rw [resolveSeed_fault hf] at hout; cases hout
  | false =>
      rw [resolveSeed_eq hf] at hout
      rw [Guarded.resolveSeed, h.walk_eq hp, Guarded.ok_bind]
      cases hb : e.bindFinals (Walk.finals e.callers e.maxDepth p) with
      | error f => rw [hb] at hout; cases hout
      | ok r =>
          rw [hb] at hout
          cases hout
          have hbound := Guarded.bindFinals_of_ok
            (fun q hq ts hts => h.bindFromPool_of_ok (hfinals q hq) hts) hb
          dsimp only
          rw [show (Walk.walk e.callers e.maxDepth p {}).1 =
            Walk.finals e.callers e.maxDepth p from rfl, hbound]
          rfl

theorem resolveFrom_of_ok {calls : List CallRef}
    (hcalls : ∀ c ∈ calls, ∀ p, pair? c = some p → p.Safe e) {out : Resolution} :
    ∀ {i : Nat} {r : Resolution}, e.resolveFrom false i calls r = .ok out →
      Guarded.resolveFrom e i calls r = .ok (.ok out) := by
  induction calls with
  | nil =>
      intro i r hout
      cases hout
      rfl
  | cons c calls ih =>
      intro i r hout
      obtain ⟨hc, hrest⟩ := List.forall_mem_cons.mp hcalls
      rw [resolveFrom, if_neg Bool.false_ne_true] at hout
      rw [Guarded.resolveFrom]
      cases hpair : pair? c with
      | none => rw [hpair] at hout; cases hout
      | some p =>
          rw [hpair] at hout
          dsimp only at hout ⊢
          cases hseed : e.resolveSeed p with
          | error f => rw [hseed] at hout; cases hout
          | ok found =>
              rw [hseed] at hout
              rw [h.resolveSeed_of_ok (hc p hpair) hseed, Guarded.ok_bind]
              exact ih hrest hout

end Engine.Safe

/-! ## Decoded modules -/

namespace TypeDef

mutual
theorem isComplete_of_sound : ∀ t : TypeDef, (∀ o ∈ t.places, TypeHead.Sound o) →
    t.isComplete = true
  | .absent, h => by
      obtain ⟨head, hhead, -⟩ := h none (List.mem_singleton_self none)
      cases hhead
  | .node head nested, h => by
      rw [places, List.forall_mem_cons] at h
      obtain ⟨⟨head', hhead, hvalid⟩, hnested⟩ := h
      cases hhead
      rw [isComplete, Bool.and_eq_true, List.all_eq_true]
      refine ⟨?_, allComplete_of_sound nested hnested⟩
      intro o ho
      obtain ⟨m, rfl, -⟩ := hvalid.methods o ho
      rfl

theorem allComplete_of_sound : ∀ ts : List TypeDef, (∀ o ∈ placesOf ts, TypeHead.Sound o) →
    allComplete ts = true
  | [], _ => rfl
  | t :: ts, h => by
      rw [placesOf, List.forall_mem_append] at h
      rw [allComplete, isComplete_of_sound t h.1, allComplete_of_sound ts h.2, Bool.and_self]
end

/-- The methods of a definition are those at its places, linked to it. -/
theorem members_eq_placed (module : Text) (outer : Option Text) (t : TypeDef) :
    ∀ d ∈ t.definitions module outer, d.members = Guarded.placedMembers d := by
  induction t using TypeDef.induction generalizing outer with
  | absent => simp [definitions]
  | node head nested ih =>
      intro d hd
      have hinner : ∀ outer, ∀ d ∈ definitionsOf module outer nested,
          d.members = Guarded.placedMembers d := by
        intro outer d hd
        rw [definitionsOf_eq_flatMap] at hd
        obtain ⟨t, ht, hd⟩ := List.mem_flatMap.mp hd
        exact ih t ht outer d hd
      rw [definitions] at hd
      split at hd
      · exact hinner _ d hd
      · rcases List.mem_cons.mp hd with rfl | hd
        · rfl
        · exact hinner _ d hd

end TypeDef

theorem Guarded.constructorRef_eq {r : Registry}
    (hr : ∀ d ∈ r.definitions, members d = .ok d.members) (t : TypeRef) :
    constructorRef r t = .ok (Emit.constructorRef? r t) := by
  unfold constructorRef Emit.constructorRef?
  cases hd : r.resolveType? t with
  | none => rfl
  | some d =>
      dsimp only
      rw [hr d (Registry.mem_definitions_of_resolveType? hd), ok_bind]
      cases t with
      | absent => cases hd
      | node kind name own position param owner =>
          show _ = Except.ok (d.defaultConstructor?.bind fun c => (c.instantiate own).toOption)
          unfold Definition.defaultConstructor? Definition.constructors
          cases (d.members.filter fun m => m.method.isConstructor).find? fun m =>
            m.method.params.isEmpty with
          | none => rfl
          | some c => rfl

namespace Decoded

variable {modules : List (Option Module)} (h : Decoded modules)
include h

theorem complete : ∀ m, some m ∈ modules → m.isComplete = true := by
  intro m hm
  obtain ⟨bytes, hbytes⟩ := h m hm
  have hvalid := Module.formatFault?_eq_none_iff.mp (Module.checked_of_decode hbytes).1
  exact TypeDef.allComplete_of_sound m.types hvalid.types

theorem members_eq : ∀ d ∈ (Registry.ofModules modules).definitions,
    Guarded.members d = .ok d.members := by
  intro d hd
  obtain ⟨m, hm, hd⟩ := Registry.mem_definitions_iff.mp hd
  obtain ⟨bytes, hbytes⟩ := h m hm
  have hvalid : ∀ t ∈ m.types, t.Every TypeHead.Valid := by
    have hfault := (Module.checked_of_decode hbytes).1
    unfold Module.formatFault? at hfault
    split at hfault
    · cases hfault
    · exact TypeDef.every_of_formatFaultIn? hfault
  have hhead := (Module.definitions_of_every hvalid d hd).1
  have hplaced : d.members = Guarded.placedMembers d := by
    rw [Module.definitions, TypeDef.definitionsOf_eq_flatMap] at hd
    obtain ⟨t, -, hd⟩ := List.mem_flatMap.mp hd
    exact t.members_eq_placed m.name none d hd
  rw [hplaced]
  apply Guarded.members_eq
  rw [List.all_eq_true]
  intro o ho
  obtain ⟨f, rfl, -⟩ := hhead.methods o ho
  rfl

/-- The engine over decoded modules does not crash. -/
theorem safe (maxDepth : Nat) : (Engine.ofModules modules maxDepth).Safe where
  narrow _ _ hs := (h.site hs).2
  placed id s hs a ha := (h.siteArgs maxDepth id s hs a ha).placed
  caller _ _ hs := by
    obtain ⟨⟨m, hm, -⟩, -⟩ := Engine.mem_callers.mp hs
    exact ⟨m, hm⟩
  bases _ hd := (h.definition hd).narrow.obeys
  pool _ ht := (h.pooled ht).2

theorem seed_safe {maxDepth : Nat} {names : List Text} {c : CallRef}
    (hc : c ∈ CallRef.collect (Registry.ofModules modules) names) {p : Pair}
    (hp : Engine.pair? c = some p) : p.Safe (Engine.ofModules modules maxDepth) := by
  obtain ⟨id, d, m, hd, hm, hmem⟩ := CallRef.seeds_of_mem_collect hc
  obtain ⟨hentry, hinst, -⟩ := CallRef.mem_ofMember hmem
  have hpair : p = { type := c.type, entry := id } := by
    rw [Engine.pair?, if_pos (TypeRef.isPresent_of_isInstance hinst), hentry] at hp
    exact (Option.some.inj hp).symm
  subst hpair
  refine ⟨(h.seed hc).allow_holes.placed, m, ?_⟩
  show (Registry.ofModules modules).member? id = some m
  unfold Registry.declaring? at hd
  rw [Registry.member?, hd]
  exact hm

end Decoded

/-! ## Result -/

/-- **Accepted modules do not crash the analysis.** Take modules that were read from bytes, names
of seeds, a depth limit and a name for the module to be made. With every look into a place, every
index and every sum of words checked, no step crashes, and each result is that of the analysis
itself: the registry, the call index for both extractors, the pool, the seeds, the resolved types,
the module made of them, and the listing of each module with its bodies. -/
theorem analysis_crash_free (modules : List (Option Module)) (h : Decoded modules)
    (names : List Text) (maxDepth : Int) (target : Text) :
    let r := Registry.ofModules modules
    let calls := CallRef.collect r names
    Guarded.registry modules = .ok r ∧
    (∀ x, Guarded.index r x modules = .ok (CallIndex.build r x modules)) ∧
    Guarded.pool modules = .ok (Pool.ofModules modules) ∧
    Guarded.seeds modules names = .ok calls ∧
    (∃ out, resolveProgram modules calls (depthLimit maxDepth) = .ok out ∧
      Guarded.resolveProgram modules calls (depthLimit maxDepth) = .ok (.ok out) ∧
      Guarded.build target out.types r = .ok (Emit.build target out.types r)) ∧
    ∀ m, some m ∈ modules → Guarded.listing m = .ok (m.listing true) := by
  intro r calls
  have hregistry : Guarded.registry modules = .ok r := Guarded.registry_eq h.complete
  have hindex := Guarded.index_eq h.complete r
  have hpool := Guarded.pool_eq h.complete
  refine ⟨hregistry, hindex, hpool, Guarded.seeds_eq h.complete names, ?_,
    fun m hm => Guarded.listing_eq h.complete hm⟩
  have hresolves : ∀ c ∈ calls, ∃ ts,
      (Engine.ofModules modules (depthLimit maxDepth)).Resolves c ts := fun c hc => h.resolves hc
  obtain ⟨out, hout⟩ := resolveProgram_succeeds hresolves
  refine ⟨out, hout, ?_, ?_⟩
  · rw [Guarded.resolveProgram, hregistry, Guarded.ok_bind, hindex, Guarded.ok_bind, hpool,
      Guarded.ok_bind]
    exact (h.safe _).resolveFrom_of_ok (fun c hc p hp => h.seed_safe hc hp)
      (resolve_of_resolveProgram hout)
  · rw [Guarded.build, mapM_eq_ok fun t _ => Guarded.constructorRef_eq h.members_eq t]
    rfl

/-- The program whose seed lacks a type argument is accepted, and its analysis ends. -/
theorem analysis_crash_free_gap :
    Decoded [some Sample.gap.module] ∧
      (∃ out,
        Guarded.resolveProgram [some Sample.gap.module]
          (CallRef.collect (Registry.ofModules [some Sample.gap.module]) ["App.Box`1"])
          (depthLimit 0) = .ok (.ok out)) ∧
      ∀ m, some m ∈ [some Sample.gap.module] → Guarded.listing m = .ok (m.listing true) := by
  obtain ⟨-, -, -, -, ⟨out, -, hout, -⟩, hlisting⟩ :=
    analysis_crash_free [some Sample.gap.module] Sample.decoded_gap ["App.Box`1"] 0 "Gen"
  exact ⟨Sample.decoded_gap, ⟨out, hout⟩, hlisting⟩

end Monomorph
