import Mathlib.Logic.Equiv.Defs
import Monomorph.Proofs.Origin
import Monomorph.Proofs.Walk

/-!
# Programs in another order

A method is told apart by where it stands, so listing the modules of a program in another order
renumbers its methods. When no full name is declared in two modules, that is all it does: each
look-up finds the same definition under its new number (`Registry.Relabels`), the same call sites
lead to a method, and the same methods hold seeds.
-/

namespace Monomorph

/-- A call site of a method is a generic call in the code of the calling method that the registry
resolves to it. -/
theorem Engine.mem_callers {modules : List (Option Module)} {maxDepth : Nat} {id : MethodId}
    {s : Site} :
    s ∈ (Engine.ofModules modules maxDepth).callers id ↔
      (∃ m, (Registry.ofModules modules).member? s.caller = some m ∧
        ∃ c ∈ m.method.code, Extractor.genericOnly.pick? c.operand = some s.ref) ∧
      (Registry.ofModules modules).resolveMethod? s.ref = some id :=
  CallIndex.mem_callers_build

/-! ## What is collected -/

namespace CallRef

/-- One of equal calls is kept. -/
theorem exists_equal_mem_dedup {cs : List CallRef} {c : CallRef} (hc : c ∈ cs) :
    ∃ c' ∈ dedup cs, equal c c' = true := by
  have hfold : ∀ (cs kept : List CallRef),
      let all := cs.foldl (fun kept c => if kept.any (equal c) then kept else kept ++ [c]) kept
      kept ⊆ all ∧ ∀ c ∈ cs, ∃ c' ∈ all, equal c c' = true := by
    intro cs
    induction cs with
    | nil => exact fun kept => ⟨List.Subset.refl _, by simp⟩
    | cons c cs ih =>
        intro kept
        rw [List.foldl_cons]
        split
        · rename_i hany
          obtain ⟨c', hc', hequal⟩ := List.any_eq_true.mp hany
          obtain ⟨hkept, hall⟩ := ih kept
          exact ⟨hkept, List.forall_mem_cons.mpr ⟨⟨c', hkept hc', hequal⟩, hall⟩⟩
        · obtain ⟨hkept, hall⟩ := ih (kept ++ [c])
          have hself : equal c c = true := by simp [equal]
          refine ⟨List.Subset.trans (List.subset_append_left _ _) hkept, ?_⟩
          exact List.forall_mem_cons.mpr ⟨⟨c, hkept (by simp), hself⟩, hall⟩
  exact (hfold cs []).2 c hc

/-- The method at a place and the definition around it seed the call. -/
def Seeds (r : Registry) (seeds : List Text) (c : CallRef) : Prop :=
  ∃ id d m, r.declaring? id = some d ∧ d.members[id.index]? = some m ∧ c ∈ ofMember seeds d id m

theorem seeds_iff {r : Registry} {seeds : List Text} {c : CallRef} :
    Seeds r seeds c ↔
      c ∈ (r.definitions.mapIdx fun i d => (d.members.mapIdx fun k m =>
        ofMember seeds d { type := i, index := k } m).flatten).flatten := by
  simp only [Seeds, Registry.declaring?, List.mem_flatten, List.mem_mapIdx]
  constructor
  · rintro ⟨⟨i, k⟩, d, m, hd, hm, hc⟩
    obtain ⟨hi, rfl⟩ := List.getElem?_eq_some_iff.mp hd
    obtain ⟨hk, rfl⟩ := List.getElem?_eq_some_iff.mp hm
    exact ⟨_, ⟨i, hi, rfl⟩, List.mem_flatten.mpr ⟨_, List.mem_mapIdx.mpr ⟨k, hk, rfl⟩, hc⟩⟩
  · rintro ⟨_, ⟨i, hi, rfl⟩, hc⟩
    obtain ⟨_, hl, hc⟩ := List.mem_flatten.mp hc
    obtain ⟨k, hk, rfl⟩ := List.mem_mapIdx.mp hl
    exact ⟨⟨i, k⟩, _, _, List.getElem?_eq_getElem hi, List.getElem?_eq_getElem hk, hc⟩

theorem seeds_of_mem_collect {r : Registry} {seeds : List Text} {c : CallRef}
    (h : c ∈ collect r seeds) : Seeds r seeds c := seeds_iff.mpr (mem_of_mem_dedup h)

theorem exists_mem_collect {r : Registry} {seeds : List Text} {c : CallRef}
    (h : Seeds r seeds c) : ∃ c' ∈ collect r seeds, equal c c' = true :=
  exists_equal_mem_dedup (seeds_iff.mp h)

end CallRef

/-! ## Renumbering -/

/-- The method at the new number of its type. -/
def MethodId.move (ρ : Nat ≃ Nat) (id : MethodId) : MethodId := { id with type := ρ id.type }

/-- Renumbers what stands behind the first `n` places. -/
def keepFront (n : Nat) (ρ : Nat ≃ Nat) : Nat ≃ Nat where
  toFun i := if i < n then i else n + ρ (i - n)
  invFun i := if i < n then i else n + ρ.symm (i - n)
  left_inv i := by
    dsimp only
    split
    · rfl
    · rw [if_neg (by omega), Nat.add_sub_cancel_left, ρ.symm_apply_apply]
      omega
  right_inv i := by
    dsimp only
    split
    · rfl
    · rw [if_neg (by omega), Nat.add_sub_cancel_left, ρ.apply_symm_apply]
      omega

theorem keepFront_lt {n i : Nat} (ρ : Nat ≃ Nat) (h : i < n) : keepFront n ρ i = i := if_pos h

theorem keepFront_ge {n i : Nat} (ρ : Nat ≃ Nat) (h : ¬ i < n) :
    keepFront n ρ i = n + ρ (i - n) := if_neg h

/-- Exchanges the first `a` places and the `b` places behind them. -/
def exchange (a b : Nat) : Nat ≃ Nat where
  toFun i := if i < a then b + i else if i < a + b then i - a else i
  invFun i := if i < b then a + i else if i < a + b then i - b else i
  left_inv i := by
    dsimp only
    split_ifs <;> omega
  right_inv i := by
    dsimp only
    split_ifs <;> omega

namespace Registry

/-- The second registry holds the definitions of the first under new numbers, and a full name leads
to the same definition in both. -/
structure Relabels (r r' : Registry) (ρ : Nat ≃ Nat) : Prop where
  get : ∀ i, r'.definitions[ρ i]? = r.definitions[i]?
  find : ∀ name, r'.typeIndex? name = (r.typeIndex? name).map ρ

namespace Relabels

variable {r r' : Registry} {ρ : Nat ≃ Nat}

theorem symm (h : r.Relabels r' ρ) : r'.Relabels r ρ.symm := by
  constructor
  · intro i
    rw [← h.get, ρ.apply_symm_apply]
  · intro name
    rw [h.find]
    cases r.typeIndex? name <;> simp

theorem declaring? (h : r.Relabels r' ρ) (id : MethodId) :
    r'.declaring? (id.move ρ) = r.declaring? id := h.get id.type

theorem member? (h : r.Relabels r' ρ) (id : MethodId) :
    r'.member? (id.move ρ) = r.member? id := by
  simp only [Registry.member?, MethodId.move, h.get]

theorem resolveMethod? (h : r.Relabels r' ρ) (ref : MethodRef) :
    r'.resolveMethod? ref = (r.resolveMethod? ref).map (MethodId.move ρ) := by
  unfold Registry.resolveMethod?
  split
  · rfl
  · rw [h.find]
    cases r.typeIndex? ref.declaring.definitionName with
    | none => rfl
    | some i =>
        simp only [Option.map_some, Option.bind_eq_bind, Option.bind_some, h.get]
        cases r.definitions[i]? with
        | none => rfl
        | some d =>
            dsimp only [Option.bind_some]
            cases d.members.findIdx? fun m => m.signature == ref.signature <;> rfl

theorem type? (h : r.Relabels r' ρ) (name : Text) : r'.type? name = r.type? name := by
  have hfind : ∀ r : Registry,
      r.type? name = (r.typeIndex? name).bind fun i => r.definitions[i]? :=
    fun r => List.find?_eq_bind_findIdx?_getElem?
  rw [hfind, hfind, h.find]
  cases r.typeIndex? name with
  | none => rfl
  | some i => exact h.get i

theorem baseType? (h : r.Relabels r' ρ) (t : TypeRef) : r'.baseType? t = r.baseType? t := by
  simp only [Registry.baseType?, Registry.resolveType?, h.type?]

/-- Putting the same definitions in front of both. -/
theorem append (h : r.Relabels r' ρ) (defs : List Definition) :
    Relabels ⟨defs ++ r.definitions⟩ ⟨defs ++ r'.definitions⟩ (keepFront defs.length ρ) := by
  constructor
  · intro i
    by_cases hi : i < defs.length
    · rw [keepFront_lt ρ hi, List.getElem?_append_left hi, List.getElem?_append_left hi]
    · rw [keepFront_ge ρ hi, List.getElem?_append_right (by omega),
        List.getElem?_append_right (by omega), Nat.add_sub_cancel_left, h.get]
  · intro name
    have hrest := h.find name
    unfold typeIndex? at hrest ⊢
    rw [List.findIdx?_append, List.findIdx?_append, hrest]
    cases hfront : defs.findIdx? fun d => d.fullName == name with
    | some i =>
        have hi := (List.findIdx?_eq_some_iff_getElem.mp hfront).1
        simp [keepFront_lt ρ hi]
    | none =>
        cases r.definitions.findIdx? fun d => d.fullName == name with
        | none => rfl
        | some i =>
            have hi : ¬ i + defs.length < defs.length := by omega
            simp [keepFront_ge ρ hi, Nat.add_comm]

/-- Exchanging two blocks of definitions that share no full name. -/
theorem swap {a b : List Definition} (h : ∀ x ∈ a, ∀ y ∈ b, x.fullName ≠ y.fullName)
    (defs : List Definition) :
    Relabels ⟨a ++ (b ++ defs)⟩ ⟨b ++ (a ++ defs)⟩ (exchange a.length b.length) := by
  constructor
  · intro i
    simp only [exchange, Equiv.coe_fn_mk, List.getElem?_append]
    split_ifs <;> first | omega | congr 1 <;> omega
  · intro name
    unfold typeIndex?
    simp only [List.findIdx?_append]
    cases ha : a.findIdx? fun d => d.fullName == name with
    | some i =>
        -- The name is declared in the first block, so not in the second.
        obtain ⟨hi, hname, -⟩ := List.findIdx?_eq_some_iff_getElem.mp ha
        have hb : b.findIdx? (fun d => d.fullName == name) = none := by
          rw [List.findIdx?_eq_none_iff]
          intro y hy
          have hne := h _ (List.getElem_mem hi) y hy
          rw [beq_iff_eq.mp hname] at hne
          simpa using hne.symm
        simp [hb, exchange, hi, Nat.add_comm]
    | none =>
        cases hb : b.findIdx? fun d => d.fullName == name with
        | some j =>
            have hj := (List.findIdx?_eq_some_iff_getElem.mp hb).1
            have hmove : exchange a.length b.length (j + a.length) = j := by
              simp only [exchange, Equiv.coe_fn_mk]
              split_ifs <;> omega
            simp [hmove]
        | none =>
            cases defs.findIdx? fun d => d.fullName == name with
            | none => rfl
            | some k =>
                have hmove : exchange a.length b.length (k + b.length + a.length) =
                    k + a.length + b.length := by
                  simp only [exchange, Equiv.coe_fn_mk]
                  split_ifs <;> omega
                simp [hmove]

theorem trans {r'' : Registry} {σ : Nat ≃ Nat} (h : r.Relabels r' ρ) (h' : r'.Relabels r'' σ) :
    r.Relabels r'' (ρ.trans σ) := by
  constructor
  · intro i
    rw [Equiv.trans_apply, h'.get, h.get]
  · intro name
    rw [h'.find, h.find, Option.map_map]
    rfl

end Relabels

/-- The modules declare no common full name. -/
def Apart (m m' : Option Module) : Prop :=
  ∀ d ∈ (m.map Module.definitions).getD [], ∀ d' ∈ (m'.map Module.definitions).getD [],
    d.fullName ≠ d'.fullName

/-- **Order only renumbers.** Modules without common full names, in another order, hold the same
definitions under other numbers. -/
theorem exists_relabels {modules modules' : List (Option Module)} (h : modules.Perm modules')
    (hapart : modules.Pairwise Apart) :
    ∃ ρ, (ofModules modules).Relabels (ofModules modules') ρ := by
  induction h with
  | nil => exact ⟨Equiv.refl _, fun i => rfl, fun name => by simp⟩
  | cons m _ ih =>
      obtain ⟨ρ, hρ⟩ := ih (List.pairwise_cons.mp hapart).2
      exact ⟨_, hρ.append ((m.map Module.definitions).getD [])⟩
  | swap m m' ms =>
      have hpair := (List.pairwise_cons.mp hapart).1 m (List.mem_cons_self ..)
      exact ⟨_, Relabels.swap hpair (ofModules ms).definitions⟩
  | trans h _ ih ih' =>
      obtain ⟨ρ, hρ⟩ := ih hapart
      have hsymm : ∀ m m' : Option Module, Apart m m' → Apart m' m :=
        fun m m' hm d hd d' hd' heq => hm d' hd' d hd heq.symm
      obtain ⟨σ, hσ⟩ := ih' (h.pairwise hapart (fun {m m'} => hsymm m m'))
      exact ⟨_, hρ.trans hσ⟩

end Registry

/-! ## Call sites, chains and seeds under new numbers -/

theorem MethodId.move_symm_move (ρ : Nat ≃ Nat) (id : MethodId) :
    (id.move ρ).move ρ.symm = id := by
  simp [move]

/-- The pair at the new number of its method's type. -/
def Pair.move (ρ : Nat ≃ Nat) (p : Pair) : Pair := { p with entry := p.entry.move ρ }

/-- The call at the new number of its method's type. -/
def CallRef.move (ρ : Nat ≃ Nat) (c : CallRef) : CallRef :=
  { c with entry := c.entry.map (MethodId.move ρ) }

namespace Registry.Relabels

variable {modules modules' : List (Option Module)} {ρ : Nat ≃ Nat} {maxDepth : Nat}
  (h : (ofModules modules).Relabels (ofModules modules') ρ)

include h

theorem mem_callers {id : MethodId} {s : Site}
    (hs : s ∈ (Engine.ofModules modules maxDepth).callers id) :
    { s with caller := s.caller.move ρ } ∈
      (Engine.ofModules modules' maxDepth).callers (id.move ρ) := by
  obtain ⟨⟨m, hm, hcode⟩, hcallee⟩ := Engine.mem_callers.mp hs
  refine Engine.mem_callers.mpr ⟨⟨m, (h.member? s.caller).trans hm, hcode⟩, ?_⟩
  rw [h.resolveMethod?, hcallee]
  rfl

theorem callers_eq_nil {id : MethodId}
    (hid : (Engine.ofModules modules maxDepth).callers id = []) :
    (Engine.ofModules modules' maxDepth).callers (id.move ρ) = [] := by
  refine List.eq_nil_iff_forall_not_mem.mpr fun s hs => ?_
  have hback := h.symm.mem_callers hs
  rw [MethodId.move_symm_move, hid] at hback
  exact List.not_mem_nil hback

theorem steps {p q : Pair} (hstep : p.Steps (Engine.ofModules modules maxDepth).callers q) :
    (p.move ρ).Steps (Engine.ofModules modules' maxDepth).callers (q.move ρ) := by
  obtain ⟨site, hsite, happly, hentry⟩ := hstep
  exact ⟨_, h.mem_callers hsite, happly, congrArg (MethodId.move ρ) hentry⟩

theorem chain {n : Nat} {p q : Pair}
    (hchain : Pair.Chain (Engine.ofModules modules maxDepth).callers Pair.Generic n p q) :
    Pair.Chain (Engine.ofModules modules' maxDepth).callers Pair.Generic n (p.move ρ)
      (q.move ρ) := by
  induction hchain with
  | refl p => exact .refl _
  | snoc _ hq hstep ih => exact .snoc ih hq (h.steps hstep)

theorem seeds {seeds : List Text} {c : CallRef} (hc : CallRef.Seeds (ofModules modules) seeds c) :
    CallRef.Seeds (ofModules modules') seeds (c.move ρ) := by
  obtain ⟨id, d, m, hd, hm, hc⟩ := hc
  refine ⟨id.move ρ, d, m, (h.declaring? id).trans hd, hm, ?_⟩
  unfold CallRef.ofMember at hc ⊢
  split at hc
  · rename_i hgeneric
    obtain ⟨t, ht, rfl⟩ := List.mem_map.mp hc
    rw [if_pos hgeneric]
    exact List.mem_map.mpr ⟨t, ht, rfl⟩
  · cases hc

end Registry.Relabels

end Monomorph
