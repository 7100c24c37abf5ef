import Monomorph.Proofs.Decoded
import Monomorph.Proofs.Key

/-!
# Completeness of the chain walk

A walk that makes no cut at the depth limit misses nothing, whatever cycles the calls form. The
memory may hold the results of a pair that was met again while it was still being walked, and these
results are incomplete; but such a pair is expanded further up, and what it ends on is returned
there. So the argument does not follow what the memory holds. It follows the calls: every pair that
a chain reaches is called, up to its key, because the pair before it on the chain is expanded under
its key.

For pairs with one key to be exchangeable, keys have to be readable. `Legible` says what that asks
of the names in a program.
-/

namespace Monomorph

/-- The name of a declared type that keys can be read with: not empty, none of the bytes that
structure a key, and not the mark of a parameter in front. -/
def Text.Legible (name : Text) : Prop := name ≠ [] ∧ Plain name ∧ name.head? ≠ some 33

/-- The rules for the names in a reference under which its key can be read back. -/
def Rules.legible : Rules where
  inst name _ := name.Legible
  leaf kind name _ _ owner :=
    (kind = .parameter → Text.Plain owner) ∧ (kind ≠ .parameter → name.Legible)

/-- The references of an instruction that resolution looks at. -/
def Instruction.refs (i : Instruction) : List TypeRef :=
  i.operand.type :: (i.operand.method.map fun r => r.declaring :: r.typeArgs).getD []

/-- The names in the code of the program are legible. -/
def Legible (modules : List (Option Module)) : Prop :=
  ∀ i ∈ Pool.instructions (Registry.ofModules modules).definitions, ∀ t ∈ i.refs,
    t.Obeys .legible

section Decidable

instance (name : Text) : Decidable (Text.Plain name) :=
  inferInstanceAs (Decidable (∀ b ∈ name, ¬ (b = 60 ∨ b = 62 ∨ b = 44)))

instance (name : Text) : Decidable name.Legible :=
  inferInstanceAs (Decidable (name ≠ [] ∧ Text.Plain name ∧ name.head? ≠ some 33))

instance : Decidable Rules.legible.hole := inferInstanceAs (Decidable True)

instance (name : Text) (n : Nat) : Decidable (Rules.legible.inst name n) :=
  inferInstanceAs (Decidable name.Legible)

instance (kind : TypeKind) (name : Text) (position : Int64) (param : ParamKind) (owner : Text) :
    Decidable (Rules.legible.leaf kind name position param owner) :=
  inferInstanceAs (Decidable
    ((kind = .parameter → Text.Plain owner) ∧ (kind ≠ .parameter → name.Legible)))

instance (modules : List (Option Module)) : Decidable (Legible modules) :=
  inferInstanceAs (Decidable
    (∀ i ∈ Pool.instructions (Registry.ofModules modules).definitions, ∀ t ∈ i.refs,
      t.Obeys .legible))

end Decidable

/-- A reference that obeys the rules of the format and has legible names can be read back. -/
theorem TypeRef.Obeys.readable {t : TypeRef} (hf : t.Obeys (.format True))
    (hl : t.Obeys .legible) : t.Obeys (.readable True) := by
  refine (hf.and hl).imp ?_ ?_ fun _ => trivial
  · rintro name n ⟨hn, hne, hplain, hhead⟩
    exact ⟨hplain, hhead, fun _ => hne, hn⟩
  · rintro kind name position param owner ⟨hformat, howner, hname⟩
    rcases hformat with rfl | ⟨rfl, hparam, hfits⟩
    · obtain ⟨hne, hplain, hhead⟩ := hname (by decide)
      exact Or.inl ⟨rfl, hplain, hhead, fun _ => hne⟩
    · have hpos : 0 ≤ position.toInt ∧ position.toInt < 65536 := by
        simpa [TypeRef.fitsPosition] using hfits
      exact Or.inr ⟨rfl, hparam, hpos.1, howner rfl⟩

namespace Pair

/-- The pair as a call. -/
def call (p : Pair) : CallRef := { type := p.type, entry := some p.entry }

/-- Pairs are equal as calls exactly if their keys agree. -/
theorem equal_call_iff {p q : Pair} : CallRef.equal p.call q.call = true ↔ p.key = q.key := by
  simp [CallRef.equal, call, key, PairKey.mk.injEq]

/-- Pairs with one tree in one method. -/
structure Alike (p q : Pair) : Prop where
  type : p.type.tree = q.type.tree
  entry : p.entry = q.entry

theorem Alike.key {p q : Pair} (h : p.Alike q) : p.key = q.key := by
  rw [Pair.key, Pair.key, ← TypeRef.key_tree p.type, h.type, TypeRef.key_tree, h.entry]

theorem Alike.of_key {p q : Pair} (hp : p.type.Obeys (.readable True))
    (hq : q.type.Obeys (.readable True)) (h : p.key = q.key) : p.Alike q :=
  ⟨TypeRef.tree_eq_of_key_eq hp hq (congrArg PairKey.type h), congrArg PairKey.entry h⟩

theorem Alike.symm {p q : Pair} (h : p.Alike q) : q.Alike p := ⟨h.type.symm, h.entry.symm⟩

theorem Alike.trans {p q r : Pair} (h : p.Alike q) (h' : q.Alike r) : p.Alike r :=
  ⟨h.type.trans h'.type, h.entry.trans h'.entry⟩

theorem Alike.generic {p q : Pair} (h : p.Alike q) (hq : q.Generic) : p.Generic :=
  (TypeRef.isConcrete_eq_of_tree_eq h.type).trans hq

end Pair

namespace Walk

variable {callers : MethodId → List Site} {limit : Nat} {root : Pair}

/-- In a walk without depth cuts through readable pairs, every pair that a chain reaches is called
up to its tree. -/
theorem called_of_chain
    (hread : ∀ n p, Pair.Chain callers Pair.Generic n root p → p.type.Obeys (.readable True))
    (hdepth : (walk callers limit root {}).2.counts.depth = 0) {n : Nat} {q : Pair}
    (h : Pair.Chain callers Pair.Generic n root q) :
    ∃ p, Called callers limit root p ∧ p.Alike q := by
  have hcalled : ∀ {left p s}, Call callers limit root left p s →
      p.type.Obeys (.readable True) := by
    intro left p s hcall
    obtain ⟨n, -, hchain⟩ := hcall.chain
    exact hread n p (hchain.imp fun _ hx => hx.generic)
  induction h with
  | refl p => exact ⟨p, ⟨limit, {}, .root⟩, rfl, rfl⟩
  | @snoc n _ q r _ hq hstep ih =>
      obtain ⟨p, ⟨left, s, hcall⟩, halike⟩ := ih hread hdepth hcalled
      obtain ⟨site, hsite, happly, hentry⟩ := hstep
      have hsites : callers p.entry ≠ [] := by
        rw [halike.entry]
        exact List.ne_nil_of_mem hsite
      -- The pair `p` itself may have been met before. What counts is a pair with its key that was
      -- entered, and that one has the tree of `q` too.
      obtain ⟨x, ⟨left', s', hx, henters⟩, hkey⟩ :=
        hcall.expanded (halike.generic hq) hsites (Or.inr hdepth)
      have hxp : x.Alike p := .of_key (hcalled hx) (hcalled hcall) hkey
      have hxq : x.Alike q := hxp.trans halike
      obtain ⟨t, ht, htree⟩ := Bindings.apply_tree_eq hxq.type.symm happly
      rw [← hxq.entry] at hsite
      obtain ⟨pre, post, hsplit⟩ := List.append_of_mem hsite
      exact ⟨_, ⟨_, _, .site hx henters hsplit ht⟩, htree.symm, hentry.symm⟩

theorem Terminal.alike {p q : Pair} (h : Terminal callers q) (hpq : p.Alike q) :
    Terminal callers p := by
  rcases h with hconc | hnil
  · exact Or.inl ((TypeRef.isConcrete_eq_of_tree_eq hpq.type).trans hconc)
  · exact Or.inr (hpq.entry ▸ hnil)

/-- Such a walk ends on every pair that a chain reaches and nothing can follow, up to its tree. -/
theorem alike_mem_finals
    (hread : ∀ n p, Pair.Chain callers Pair.Generic n root p → p.type.Obeys (.readable True))
    (hdepth : (walk callers limit root {}).2.counts.depth = 0) {n : Nat} {q : Pair}
    (h : Pair.Chain callers Pair.Generic n root q) (hq : Terminal callers q) :
    ∃ p ∈ finals callers limit root, p.Alike q := by
  obtain ⟨p, ⟨left, s, hcall⟩, halike⟩ := called_of_chain hread hdepth h
  exact ⟨p, hcall.returns.out (hcall.mem_walk_of_terminal (hq.alike halike)), halike⟩

end Walk

/-! ## What the references in the code obey -/

section Code

variable {R : Rules} {modules : List (Option Module)}
  (h : ∀ i ∈ Pool.instructions (Registry.ofModules modules).definitions, ∀ t ∈ i.refs, t.Obeys R)

include h

theorem Engine.siteArgs_obey (maxDepth : Nat) (id : MethodId) :
    ∀ s ∈ (Engine.ofModules modules maxDepth).callers id,
      ∀ a ∈ (Bindings.ofSite s.ref).args, a.Obeys R := by
  intro s hs
  obtain ⟨i, hi, hmethod⟩ := Engine.origin_of_mem_callers hs
  have hrefs := h i (Registry.runs_iff.mp hi)
  refine Bindings.ofSite_obeys (hrefs _ ?_) fun a ha => hrefs a ?_
  · simp [Instruction.refs, hmethod]
  · simp [Instruction.refs, hmethod, ha]

theorem CallRef.seed_obeys {seeds : List Text} {c : CallRef}
    (hc : c ∈ CallRef.collect (Registry.ofModules modules) seeds) : c.type.Obeys R := by
  obtain ⟨-, -, i, hi, hcand⟩ := CallRef.origin_of_mem_collect hc
  refine h i (Registry.runs_iff.mp hi) c.type ?_
  rcases List.mem_cons.mp hcand with htype | hdecl
  · exact List.mem_cons.mpr (Or.inl htype)
  · split at hdecl
    · cases hm : i.operand.method with
      | none => simp [hm] at hdecl
      | some r =>
          have hr : c.type = r.declaring := by simpa [hm] using hdecl
          simp [Instruction.refs, hm, hr]
    · simp at hdecl

end Code

/-- The pairs that chains reach from a collected seed can be read back. -/
theorem Legible.chain_readable {modules : List (Option Module)} (hl : Legible modules)
    (hd : Decoded modules) {maxDepth : Nat} {seeds : List Text} {c : CallRef}
    (hc : c ∈ CallRef.collect (Registry.ofModules modules) seeds) {p : Pair}
    (hp : p.type = c.type) {via : Pair → Prop} {n : Nat} {q : Pair}
    (h : Pair.Chain (Engine.ofModules modules maxDepth).callers via n p q) :
    q.type.Obeys (.readable True) := by
  have hformat := h.obeys (hd.siteArgs maxDepth) (hp ▸ (hd.seed hc).allow_holes)
  have hlegible := h.obeys (Engine.siteArgs_obey hl maxDepth) (hp ▸ CallRef.seed_obeys hl hc)
  exact hformat.readable hlegible

/-- **Completeness of the chain walk.** Take a decoded program with legible names and seeds that
were collected from it. The seeds resolve. If the walk of one of them makes no cut at the depth
limit, then, whatever cycles the calls form and with pairs compared as calls:

* the concrete pairs that the walk ends on are those that chains of generic pairs reach;
* every generic pair without call sites that a chain reaches is among the ends;
* the full name of every concrete type that a chain reaches is among the resolved ones. -/
theorem walk_complete (modules : List (Option Module)) (hdecoded : Decoded modules)
    (hlegible : Legible modules) (seeds : List Text) (calls : List CallRef)
    (hcalls : calls ⊆ CallRef.collect (Registry.ofModules modules) seeds) (maxDepth : Nat)
    (c : CallRef) (hc : c ∈ calls) :
    let e := Engine.ofModules modules maxDepth
    ∃ out seed, resolveProgram modules calls maxDepth = .ok out ∧ Engine.pair? c = some seed ∧
      ((Walk.walk e.callers maxDepth seed {}).2.counts.depth = 0 →
        (∀ q : Pair,
          (∃ p ∈ Walk.finals e.callers maxDepth seed, p.type.isConcrete = true ∧
            CallRef.equal p.call q.call = true) ↔
          ∃ n p, Pair.Chain e.callers Pair.Generic n seed p ∧ p.type.isConcrete = true ∧
            CallRef.equal p.call q.call = true) ∧
        (∀ n q, Pair.Chain e.callers Pair.Generic n seed q → q.Generic → e.callers q.entry = [] →
          ∃ p ∈ Walk.finals e.callers maxDepth seed, CallRef.equal p.call q.call = true) ∧
        ∀ n q, Pair.Chain e.callers Pair.Generic n seed q → q.type.isConcrete = true →
          q.type.fullName ∈ out.types.map TypeRef.fullName) := by
  intro e
  have hresolves : ∀ c ∈ calls, ∃ ts, e.Resolves c ts :=
    fun c hc => hdecoded.resolves (hcalls hc)
  obtain ⟨out, hout⟩ := resolveProgram_succeeds hresolves
  obtain ⟨seed, hseed, htype⟩ := CallRef.pair?_of_mem_collect (hcalls hc)
  refine ⟨out, seed, hout, hseed, ?_⟩
  intro hdepth
  have hread : ∀ n p, Pair.Chain e.callers Pair.Generic n seed p →
      p.type.Obeys (.readable True) :=
    fun n p hchain => hlegible.chain_readable hdecoded (hcalls hc) htype hchain
  have hends : ∀ n q, Pair.Chain e.callers Pair.Generic n seed q → Walk.Terminal e.callers q →
      ∃ p ∈ Walk.finals e.callers maxDepth seed, p.Alike q :=
    fun n q hchain hq => Walk.alike_mem_finals hread hdepth hchain hq
  refine ⟨?_, ?_, ?_⟩
  · intro q
    constructor
    · rintro ⟨p, hp, hconc, hpq⟩
      obtain ⟨n, -, hchain⟩ := Walk.chain_of_mem_finals hp
      exact ⟨n, p, hchain.imp fun _ hx => hx.generic, hconc, hpq⟩
    · rintro ⟨n, p, hchain, hconc, hpq⟩
      obtain ⟨p', hp', halike⟩ := hends n p hchain (Or.inl hconc)
      refine ⟨p', hp', (TypeRef.isConcrete_eq_of_tree_eq halike.type).trans hconc, ?_⟩
      rw [Pair.equal_call_iff] at hpq ⊢
      exact halike.key.trans hpq
  · intro n q hchain _ hsites
    obtain ⟨p, hp, halike⟩ := hends n q hchain (Or.inr hsites)
    exact ⟨p, hp, Pair.equal_call_iff.mpr halike.key⟩
  · intro n q hchain hconc
    obtain ⟨p, hp, halike⟩ := hends n q hchain (Or.inl hconc)
    have hpconc : p.type.isConcrete = true :=
      (TypeRef.isConcrete_eq_of_tree_eq halike.type).trans hconc
    rw [← TypeRef.fullName_eq_of_tree_eq halike.type hpconc]
    exact (resolveProgram_outcome hout).fullName_mem hc hseed hp hpconc

/-- Completeness where the walk runs into a cycle on its way to the one concrete type. -/
theorem walk_complete_ring :
    Decoded [some Sample.ring.module] ∧ Legible [some Sample.ring.module] ∧
      Sample.ringPair.call ∈
        CallRef.collect (Registry.ofModules [some Sample.ring.module]) ["App.Box`1"] ∧
      ∃ out, resolveProgram [some Sample.ring.module] [Sample.ringPair.call] 64 = .ok out ∧
        (Walk.walk (Engine.ofModules [some Sample.ring.module] 64).callers 64
          Sample.ringPair {}).2.counts.cycles = 1 ∧
        (Walk.walk (Engine.ofModules [some Sample.ring.module] 64).callers 64
          Sample.ringPair {}).2.counts.depth = 0 ∧
        out.types.map TypeRef.fullName = [("App.Box`1<App.Foo>" : Text)] ∧
        ∀ n q, Pair.Chain (Engine.ofModules [some Sample.ring.module] 64).callers Pair.Generic n
          Sample.ringPair q → q.type.isConcrete = true →
            q.type.fullName ∈ out.types.map TypeRef.fullName := by
  have hlegible : Legible [some Sample.ring.module] := by decide +kernel
  have hcollect : CallRef.collect (Registry.ofModules [some Sample.ring.module]) ["App.Box`1"]
      = [Sample.ringPair.call] := rfl
  have hmem : Sample.ringPair.call ∈ [Sample.ringPair.call] := List.mem_singleton_self _
  obtain ⟨out, seed, hout, hseed, hcomplete⟩ := walk_complete [some Sample.ring.module]
    Sample.decoded_ring hlegible ["App.Box`1"] [Sample.ringPair.call]
    (hcollect ▸ List.Subset.refl _) 64 Sample.ringPair.call hmem
  obtain rfl : Sample.ringPair = seed := Option.some.inj hseed
  have hrun : ∃ out, resolveProgram [some Sample.ring.module] [Sample.ringPair.call] 64 = .ok out ∧
      out.types.map TypeRef.fullName = [("App.Box`1<App.Foo>" : Text)] := ⟨_, rfl, rfl⟩
  obtain ⟨out', hout', hnames⟩ := hrun
  obtain rfl : out' = out := Except.ok.inj (hout'.symm.trans hout)
  exact ⟨Sample.decoded_ring, hlegible, hcollect ▸ hmem, out', hout, rfl, rfl, hnames,
    (hcomplete rfl).2.2⟩

end Monomorph
