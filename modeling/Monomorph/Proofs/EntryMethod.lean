import Monomorph.Module.Check
import Monomorph.Proofs.Harvest

/-!
# The method that touches every type

The body of the synthetic module's one method is a row of blocks, a block for each type in order,
and a return. A block that constructs its type needs nothing of the body around it. A block that
initialises a local names it by index, and the index is the number of such blocks before it; so the
layout of a block depends on the types before it, but its effect on the stack does not.

The chain runs from a block (`block_blockOf`, `BlockOf.restores`, `BlockOf.sound`) over one more
type (`touch_eq`) to the body of a whole list (`foldl_touch_eq`, `entryBody_touches`).
-/

namespace Monomorph

/-! ## What the checks ask of a body -/

/-- The checks find nothing wrong with an instruction, in a body with so many locals. -/
structure Instruction.Sound (locals : Nat) (i : Instruction) : Prop where
  known : i.op.isKnown = true
  short : i.op = .ldlocaShort → 0 ≤ i.operand.int.toInt ∧ i.operand.int.toInt ≤ 255
  index : i.op.takesLocal = true → 0 ≤ i.operand.int.toInt ∧ i.operand.int.toInt < locals
  method : i.op.isCall = true → i.operand.method.isSome = true

theorem Instruction.fault?_eq_none_iff {locals index : Nat} {i : Instruction} :
    i.fault? locals index = none ↔ i.Sound locals := by
  unfold fault?
  constructor
  · intro h
    dsimp only at h
    split at h
    · cases h
    rename_i hknown
    split at h
    · cases h
    rename_i hshort
    split at h
    · cases h
    rename_i hindex
    split at h
    · cases h
    rename_i hmethod
    constructor
    · simpa using hknown
    · intro hop
      simp only [hop, decide_true, Bool.true_and, Bool.or_eq_true, decide_eq_true_eq] at hshort
      omega
    · intro hop
      simp only [hop, Bool.true_and, Bool.or_eq_true, decide_eq_true_eq] at hindex
      omega
    · intro hop
      simpa [hop, Option.isSome_iff_ne_none] using hmethod
  · rintro ⟨hknown, hshort, hindex, hmethod⟩
    have hshort' : ¬ (i.op = .ldlocaShort ∧
        (i.operand.int.toInt < 0 ∨ 255 < i.operand.int.toInt)) := by
      rintro ⟨hop, h⟩
      have := hshort hop
      omega
    have hindex' : ¬ (i.op.takesLocal = true ∧
        (i.operand.int.toInt < 0 ∨ (locals : Int) ≤ i.operand.int.toInt)) := by
      rintro ⟨hop, h⟩
      have := hindex hop
      omega
    have hmethod' : ¬ (i.op.isCall = true ∧ i.operand.method.isNone = true) := by
      rintro ⟨hop, h⟩
      have := hmethod hop
      cases hm : i.operand.method <;> simp_all
    simp only [hknown, Bool.not_true, Bool.false_eq_true, if_false, Bool.and_eq_true,
      Bool.or_eq_true, decide_eq_true_eq, if_neg hshort', if_neg hindex', if_neg hmethod']

/-- A body of sound instructions that ends with a return passes the checks. -/
theorem Body.fault?_eq_none {b : Body} {front : List Instruction}
    (hcode : b.code = front ++ [{ op := .ret }]) (h : ∀ i ∈ front, i.Sound b.locals.length) :
    b.fault? = none := by
  have hret : ({ op := .ret } : Instruction).Sound b.locals.length :=
    ⟨rfl, nofun, nofun, nofun⟩
  have hsound : ∀ i ∈ b.code, i.Sound b.locals.length := by
    rw [hcode]
    exact List.forall_mem_append.mpr ⟨h, by simpa using hret⟩
  have hlast : b.code.getLast? = some { op := .ret } := by rw [hcode, List.getLast?_concat]
  unfold fault?
  rw [hlast]
  show (if OpCode.ret ≠ .ret then _ else _) = none
  rw [if_neg (by simp), List.findSome?_eq_none_iff]
  intro o ho
  obtain ⟨n, hn, rfl⟩ := List.mem_mapIdx.mp ho
  exact Instruction.fault?_eq_none_iff.mpr (hsound _ (List.getElem_mem hn))

theorem Member.fault?_eq_none {m : Member} (hlinked : m.linked = true)
    (h : ∀ b, m.method.body = some b → b.fault? = none) : m.fault? = none := by
  rw [fault?, hlinked]
  cases hbody : m.method.body with
  | none => rfl
  | some b =>
      show (b.fault?.map _ : Option ModuleFault) = none
      rw [h b hbody]
      rfl

/-! ## The stack -/

/-- What an operation adds to the stack where a type is touched. -/
def OpCode.effect (op : OpCode) : Int :=
  if op = .newobj ∨ op = .ldloca ∨ op = .ldlocaShort ∨ op = .dup then 1
  else if op = .initobj ∨ op = .pop then -1
  else 0

/-- The depth of the stack behind a run of instructions. -/
def stackDepth (code : List Instruction) : Int := (code.map fun i => i.op.effect).sum

@[simp] theorem stackDepth_nil : stackDepth [] = 0 := rfl

@[simp] theorem stackDepth_append (xs ys : List Instruction) :
    stackDepth (xs ++ ys) = stackDepth xs + stackDepth ys := by simp [stackDepth]

/-- Code that takes nothing from below the stack that it finds, and leaves it as high. -/
structure Restores (code : List Instruction) : Prop where
  nonneg : ∀ n, 0 ≤ stackDepth (code.take n)
  ends : stackDepth code = 0

theorem restores_nil : Restores [] := by
  constructor
  · simp
  · rfl

/-- Whether code restores the stack shows in the row of its effects. -/
theorem restores_of_effects {code : List Instruction} (effects : List Int)
    (h : code.map (fun i => i.op.effect) = effects)
    (hnonneg : ∀ n ≤ effects.length, 0 ≤ (effects.take n).sum) (hends : effects.sum = 0) :
    Restores code := by
  subst h
  constructor
  · intro n
    have hmin := hnonneg (min n (code.map fun i => i.op.effect).length) (Nat.min_le_right ..)
    rw [← List.take_eq_take_min] at hmin
    rw [stackDepth, List.map_take]
    exact hmin
  · exact hends

/-- Either code starts where the stack is empty, so neither reaches below it. -/
theorem Restores.append {xs ys : List Instruction} (hx : Restores xs) (hy : Restores ys) :
    Restores (xs ++ ys) := by
  constructor
  · intro n
    have hxs : 0 ≤ stackDepth (xs.take n) := hx.nonneg n
    have hys : 0 ≤ stackDepth (ys.take (n - xs.length)) := hy.nonneg _
    rw [List.take_append, stackDepth_append]
    omega
  · rw [stackDepth_append, hx.ends, hy.ends, Int.add_zero]

theorem Restores.flatten {blocks : List (List Instruction)} (h : ∀ b ∈ blocks, Restores b) :
    Restores blocks.flatten := by
  induction blocks with
  | nil => exact restores_nil
  | cons b blocks ih =>
      obtain ⟨hb, hrest⟩ := List.forall_mem_cons.mp h
      exact hb.append (ih hrest)

/-! ## What the registry can construct -/

/-- The type that a definition is when it is applied to arguments. -/
def Definition.appliedTo (d : Definition) (args : List TypeRef) : TypeRef :=
  if args.isEmpty then .define d.fullName else .applied d.fullName args

theorem Definition.defaultConstructor?_spec {d : Definition} {c : Member}
    (h : d.defaultConstructor? = some c) :
    c ∈ d.members ∧ c.method.isConstructor = true ∧ c.method.params = [] := by
  obtain ⟨hmem, hctor⟩ := List.mem_filter.mp (List.mem_of_find?_eq_some h)
  exact ⟨hmem, hctor, by simpa using List.find?_some h⟩

theorem Definition.defaultConstructor?_isSome_iff {d : Definition} :
    d.defaultConstructor?.isSome = true ↔
      ∃ c ∈ d.members, c.method.isConstructor = true ∧ c.method.params = [] := by
  rw [defaultConstructor?, List.find?_isSome]
  constructor
  · rintro ⟨c, hc, hparams⟩
    obtain ⟨hmem, hctor⟩ := List.mem_filter.mp hc
    exact ⟨c, hmem, hctor, by simpa using hparams⟩
  · rintro ⟨c, hmem, hctor, hparams⟩
    exact ⟨c, List.mem_filter.mpr ⟨hmem, hctor⟩, by simpa using hparams⟩

namespace Emit

/-- Whether the registry resolves the type to a definition that has an instance constructor without
parameters and takes as many arguments as the type has. -/
def constructible (r : Registry) (t : TypeRef) : Bool :=
  match r.resolveType? t with
  | none => false
  | some d =>
    d.members.any (fun c => c.method.isConstructor && c.method.params.isEmpty)
      && d.head.generic.length == t.args.length

/-- The types for which a local is initialised. -/
def fallbacks (r : Registry) (ts : List TypeRef) : List TypeRef :=
  ts.filter fun t => !constructible r t

section Blocks

variable {r : Registry} {t : TypeRef}

theorem constructible_iff : constructible r t = true ↔
    ∃ d, r.resolveType? t = some d ∧ d.defaultConstructor?.isSome = true ∧
      d.head.generic.length = t.args.length := by
  unfold constructible
  split
  · rename_i hnone
    simp [hnone]
  · rename_i d hd
    simp [hd, Definition.defaultConstructor?_isSome_iff]

/-- In a linked definition, a constructor is applied to the arguments of the definition. -/
theorem instantiate_eq {d : Definition} {c : Member} (hlink : c.owner = some d.owner)
    (args : List TypeRef) :
    (c.instantiate args).toOption =
      if d.head.generic.length = args.length then some (c.refOn (d.appliedTo args)) else none := by
  rw [Member.instantiate, hlink]
  show ((d.owner.instantiate args).map c.refOn).toOption = _
  rw [Owner.instantiate]
  by_cases hlen : d.head.generic.length = args.length
  · rw [if_neg (by simpa [Definition.owner] using hlen), if_pos hlen, Definition.appliedTo]
    split <;> rfl
  · rw [if_pos (by simpa [Definition.owner] using hlen), if_neg hlen]
    rfl

theorem constructorRef?_of_resolved (hr : r.Linked) {d : Definition} {c : Member}
    (hd : r.resolveType? t = some d) (hc : d.defaultConstructor? = some c) :
    constructorRef? r t =
      if d.head.generic.length = t.args.length then some (c.refOn (d.appliedTo t.args))
      else none := by
  have hmem := (Definition.defaultConstructor?_spec hc).1
  have hlink : c.owner = some d.owner := hr d (Registry.mem_definitions_of_resolveType? hd) c hmem
  rw [← instantiate_eq hlink, constructorRef?]
  simp [hd, hc]

/-- A constructor is found for the types that the registry can construct, and for no other. -/
theorem constructorRef?_isSome (hr : r.Linked) :
    (constructorRef? r t).isSome = constructible r t := by
  rw [Bool.eq_iff_iff, constructible_iff]
  constructor
  · intro h
    obtain ⟨ref, href⟩ := Option.isSome_iff_exists.mp h
    have href' := href
    simp only [constructorRef?, Option.bind_eq_bind, Option.bind_eq_some_iff] at href'
    obtain ⟨d, hd, c, hc, -⟩ := href'
    rw [constructorRef?_of_resolved hr hd hc] at href
    refine ⟨d, hd, by simp [hc], ?_⟩
    by_contra hlen
    rw [if_neg hlen] at href
    cases href
  · rintro ⟨d, hd, hctor, hlen⟩
    obtain ⟨c, hc⟩ := Option.isSome_iff_exists.mp hctor
    rw [constructorRef?_of_resolved hr hd hc, if_pos hlen]
    rfl

/-! ## Blocks -/

/-- The code that touches a type behind so many blocks with a local of their own. -/
inductive BlockOf (r : Registry) (k : Nat) (t : TypeRef) : List Instruction → Prop
  /-- The type is constructed. -/
  | construct (d : Definition) (c : Member) (hd : r.resolveType? t = some d)
      (hc : d.defaultConstructor? = some c) (hlen : d.head.generic.length = t.args.length) :
      BlockOf r k t
        [{ op := .nop },
          { op := .newobj, operand := { method := some (c.refOn (d.appliedTo t.args)) } },
          { op := .pop }]
  /-- A local is initialised, and turned into text. -/
  | initialise (load : Instruction) (h : constructible r t = false)
      (hop : load.op = if k < 256 then .ldlocaShort else .ldloca)
      (hindex : load.operand.int.toInt = k) :
      BlockOf r k t
        [{ op := .nop }, load, { op := .dup }, { op := .initobj, operand := { type := t } },
          { op := .constrained, operand := { type := t } },
          { op := .callvirt, operand := { method := some toStringRef } }, { op := .pop }]

theorem block_blockOf (hr : r.Linked) {k : Nat} (hk : k < 2 ^ 63) :
    BlockOf r k t (block r k t) := by
  have hsome := constructorRef?_isSome (t := t) hr
  cases hc : constructible r t with
  | true =>
      obtain ⟨d, hd, hctor, hlen⟩ := constructible_iff.mp hc
      obtain ⟨c, hc⟩ := Option.isSome_iff_exists.mp hctor
      have href := constructorRef?_of_resolved hr hd hc
      rw [if_pos hlen] at href
      rw [block, href]
      exact .construct d c hd hc hlen
  | false =>
      rw [hc, Option.isSome_eq_false_iff, Option.isNone_iff_eq_none] at hsome
      rw [block, hsome]
      exact .initialise (loadLocal k) hc rfl (Int64.toInt_ofNat_of_lt hk)

variable {k : Nat} {code : List Instruction}

/-- A block keeps one thing on the stack at a time, or two, and drops it. -/
theorem BlockOf.restores (h : BlockOf r k t code) : Restores code := by
  cases h with
  | construct d c hd hc hlen =>
      exact restores_of_effects [0, 1, -1] rfl (by decide) rfl
  | initialise load h hop hindex =>
      have hload : load.op.effect = 1 := by
        rw [hop]
        split <;> rfl
      refine restores_of_effects [0, 1, 1, -1, 0, 0, -1] ?_ (by decide) rfl
      rw [List.map_cons, List.map_cons, hload]
      rfl

/-- A block passes the checks in every body that has a local for it. -/
theorem BlockOf.sound (h : BlockOf r k t code) {locals : Nat}
    (hlocals : constructible r t = false → k < locals) : ∀ i ∈ code, i.Sound locals := by
  have hplain : ∀ {op : OpCode} {operand : Operand}, op.isKnown = true → op.takesLocal = false →
      (op.isCall = true → operand.method.isSome = true) →
      ({ op, operand } : Instruction).Sound locals := by
    intro op operand hknown hlocal hcall
    refine ⟨hknown, ?_, ?_, hcall⟩
    · rintro rfl
      cases hlocal
    · intro h
      cases hlocal.symm.trans h
  cases h with
  | construct d c hd hc hlen =>
      simpa using ⟨hplain rfl rfl nofun, hplain rfl rfl fun _ => rfl, hplain rfl rfl nofun⟩
  | initialise load h hop hindex =>
      have hload : load.Sound locals := by
        have hk := hlocals h
        refine ⟨?_, ?_, ?_, ?_⟩
        · rw [hop]
          split <;> rfl
        · intro hshort
          have hsmall : k < 256 := by
            by_contra hlarge
            rw [hop, if_neg hlarge] at hshort
            cases hshort
          omega
        · intro _
          omega
        · intro hcall
          rw [hop] at hcall
          split at hcall <;> cases hcall
      simpa using ⟨hplain rfl rfl nofun, hload, hplain rfl rfl nofun, hplain rfl rfl nofun,
        hplain rfl rfl nofun, hplain rfl rfl fun _ => rfl, hplain rfl rfl nofun⟩

end Blocks

/-! ## The body -/

section Bodies

variable {r : Registry}

theorem fallbacks_cons (t : TypeRef) (ts : List TypeRef) :
    fallbacks r (t :: ts) = fallbacks r [t] ++ fallbacks r ts := by
  rw [fallbacks, fallbacks, fallbacks, ← List.filter_append, List.singleton_append]

theorem length_fallbacks_le (ts : List TypeRef) : (fallbacks r ts).length ≤ ts.length :=
  List.length_filter_le _ _

/-- Each type that falls back has its local at the number of those before it. -/
theorem getElem?_fallbacks {ts : List TypeRef} {i : Nat} {t : TypeRef} (ht : ts[i]? = some t)
    (hfall : constructible r t = false) :
    (fallbacks r ts)[(fallbacks r (ts.take i)).length]? = some t := by
  obtain ⟨hi, rfl⟩ := List.getElem?_eq_some_iff.mp ht
  have hsplit : ts = ts.take i ++ ts[i] :: ts.drop (i + 1) := by
    rw [List.getElem_cons_drop, List.take_append_drop]
  have hself : fallbacks r [ts[i]] = [ts[i]] := by simp [fallbacks, hfall]
  have hall : fallbacks r ts =
      fallbacks r (ts.take i) ++ (ts[i] :: fallbacks r (ts.drop (i + 1))) := by
    calc fallbacks r ts
        = fallbacks r (ts.take i ++ ts[i] :: ts.drop (i + 1)) := congrArg _ hsplit
      _ = fallbacks r (ts.take i) ++ fallbacks r (ts[i] :: ts.drop (i + 1)) :=
          List.filter_append ..
      _ = _ := by rw [fallbacks_cons, hself, List.singleton_append]
  rw [hall, List.getElem?_append_right (Nat.le_refl _), Nat.sub_self]
  rfl

/-- The blocks of types in order, behind so many blocks with a local of their own. -/
def blocks (r : Registry) : Nat → List TypeRef → List (List Instruction)
  | _, [] => []
  | k, t :: ts => block r k t :: blocks r (k + (fallbacks r [t]).length) ts

theorem length_blocks (k : Nat) (ts : List TypeRef) : (blocks r k ts).length = ts.length := by
  induction ts generalizing k with
  | nil => rfl
  | cons t ts ih => rw [blocks, List.length_cons, List.length_cons, ih]

theorem getElem?_blocks {k i : Nat} {ts : List TypeRef} {t : TypeRef} (ht : ts[i]? = some t) :
    (blocks r k ts)[i]? = some (block r (k + (fallbacks r (ts.take i)).length) t) := by
  induction ts generalizing k i with
  | nil => cases ht
  | cons u ts ih =>
      cases i with
      | zero =>
          cases ht
          rfl
      | succ i =>
          rw [List.getElem?_cons_succ] at ht
          have hcount : (fallbacks r (u :: ts.take i)).length =
              (fallbacks r [u]).length + (fallbacks r (ts.take i)).length := by
            rw [fallbacks_cons, List.length_append]
          rw [blocks, List.getElem?_cons_succ, ih ht, List.take_succ_cons, hcount, Nat.add_assoc]

theorem touch_eq (hr : r.Linked) (b : Body) (t : TypeRef) :
    touch r b t =
      { locals := b.locals ++ fallbacks r [t],
        stream := some (b.code ++ block r b.locals.length t) } := by
  have hsome := constructorRef?_isSome (t := t) hr
  unfold touch
  split
  · rename_i c hc
    rw [hc] at hsome
    simp [fallbacks, ← hsome]
  · rename_i hc
    rw [hc] at hsome
    simp [fallbacks, ← hsome]

/-- A run over types appends a block for each, and a local for each that falls back. -/
theorem foldl_touch_eq (hr : r.Linked) (ts : List TypeRef) (b : Body) :
    (ts.foldl (touch r) b).locals = b.locals ++ fallbacks r ts ∧
      (ts.foldl (touch r) b).code = b.code ++ (blocks r b.locals.length ts).flatten := by
  induction ts generalizing b with
  | nil => simp [fallbacks, blocks]
  | cons t ts ih =>
      obtain ⟨hlocals, hcode⟩ := ih (touch r b t)
      rw [List.foldl_cons, hlocals, hcode, touch_eq hr]
      constructor
      · rw [fallbacks_cons t ts, List.append_assoc]
      · show b.code ++ block r b.locals.length t ++ _ = _
        rw [List.append_assoc, List.length_append, blocks, List.flatten_cons]

/-- The body is the row of blocks that touch the types, and a return. A type has a local exactly if
its block initialises one, and the stack is empty between blocks. -/
structure Touches (r : Registry) (ts : List TypeRef) (blocks : List (List Instruction))
    (body : Body) : Prop where
  code : body.code = blocks.flatten ++ [{ op := .ret }]
  length : blocks.length = ts.length
  block : ∀ i t, ts[i]? = some t →
    ∃ b, blocks[i]? = some b ∧ BlockOf r (fallbacks r (ts.take i)).length t b
  declared : ∀ i t, ts[i]? = some t → constructible r t = false →
    body.locals[(fallbacks r (ts.take i)).length]? = some t
  nonneg : ∀ n, 0 ≤ stackDepth (body.code.take n)
  before : ∀ i, stackDepth (blocks.take i).flatten = 0
  ends : stackDepth body.code = 0

theorem entryBody_locals (hr : r.Linked) (ts : List TypeRef) :
    (entryBody r ts).locals = fallbacks r ts := (foldl_touch_eq hr ts {}).1

theorem entryBody_code (hr : r.Linked) (ts : List TypeRef) :
    (entryBody r ts).code = (blocks r 0 ts).flatten ++ [{ op := .ret }] := by
  show (ts.foldl (touch r) {}).code ++ [{ op := .ret }] = _
  rw [(foldl_touch_eq hr ts {}).2]
  rfl

/-- Every type has its block, behind the locals of the types before it. -/
theorem blockOf_of_getElem? (hr : r.Linked) {ts : List TypeRef} (hlen : ts.length < 2 ^ 63)
    {i : Nat} {t : TypeRef} (ht : ts[i]? = some t) :
    ∃ b, (blocks r 0 ts)[i]? = some b ∧ BlockOf r (fallbacks r (ts.take i)).length t b := by
  have hcount : (fallbacks r (ts.take i)).length ≤ ts.length :=
    (length_fallbacks_le _).trans (List.length_take_le' i ts)
  refine ⟨_, getElem?_blocks ht, ?_⟩
  rw [Nat.zero_add]
  exact block_blockOf hr (by omega)

/-- Every block is that of a type. -/
theorem blockOf_of_mem (hr : r.Linked) {ts : List TypeRef} (hlen : ts.length < 2 ^ 63)
    {b : List Instruction} (hb : b ∈ blocks r 0 ts) :
    ∃ i t, ts[i]? = some t ∧ BlockOf r (fallbacks r (ts.take i)).length t b := by
  obtain ⟨i, hi⟩ := List.mem_iff_getElem?.mp hb
  have hlt : i < ts.length := length_blocks (r := r) 0 ts ▸ (List.getElem?_eq_some_iff.mp hi).1
  have ht : ts[i]? = some ts[i] := List.getElem?_eq_getElem hlt
  obtain ⟨b', hb', hblock⟩ := blockOf_of_getElem? hr hlen ht
  obtain rfl : b' = b := Option.some.inj (hb'.symm.trans hi)
  exact ⟨i, ts[i], ht, hblock⟩

theorem entryBody_touches (hr : r.Linked) {ts : List TypeRef} (hlen : ts.length < 2 ^ 63) :
    Touches r ts (blocks r 0 ts) (entryBody r ts) := by
  have hcode := entryBody_code hr ts
  have hrestores : ∀ b ∈ blocks r 0 ts, Restores b := by
    intro b hb
    obtain ⟨i, t, -, hblock⟩ := blockOf_of_mem hr hlen hb
    exact hblock.restores
  have hret : Restores [{ op := .ret }] := restores_of_effects [0] rfl (by decide) rfl
  have hbody : Restores (entryBody r ts).code := by
    rw [hcode]
    exact (Restores.flatten hrestores).append hret
  constructor
  · exact hcode
  · exact length_blocks 0 ts
  · intro i t ht
    exact blockOf_of_getElem? hr hlen ht
  · intro i t ht hfall
    rw [entryBody_locals hr]
    exact getElem?_fallbacks ht hfall
  · exact hbody.nonneg
  · intro i
    exact (Restores.flatten fun b hb => hrestores b (List.mem_of_mem_take hb)).ends
  · exact hbody.ends

/-- The body passes the checks: a block that names a local comes with it. -/
theorem entryBody_fault? (hr : r.Linked) {ts : List TypeRef} (hlen : ts.length < 2 ^ 63) :
    (entryBody r ts).fault? = none := by
  refine Body.fault?_eq_none (entryBody_code hr ts) ?_
  intro i hi
  obtain ⟨b, hb, hi⟩ := List.mem_flatten.mp hi
  obtain ⟨n, t, ht, hblock⟩ := blockOf_of_mem hr hlen hb
  refine hblock.sound ?_ i hi
  intro hfall
  rw [entryBody_locals hr]
  exact (List.getElem?_eq_some_iff.mp (getElem?_fallbacks ht hfall)).1

/-- The module passes the checks if the body of its one method does. -/
theorem entry_fault? {name : Text} {ts : List TypeRef} (h : (entryBody r ts).fault? = none) :
    (Module.new name [.node (entryHead r name ts) []]).fault? = none := by
  rw [Module.fault?, firstFault?, List.findSome?_eq_none_iff]
  by_cases hplace : (entryHead r name ts).name = placeholderName
  · -- A class of the placeholder's name does not count as a definition.
    intro d hd
    rw [Module.definitions, Module.new, Module.types, Option.getD_some, TypeDef.definitionsOf,
      TypeDef.definitionsOf, TypeDef.definitionsOf, TypeDef.definitions, TypeDef.definitions,
      if_pos rfl, if_pos hplace] at hd
    cases hd
  · intro d hd
    rw [Module.definitions, Module.new, Module.types, Option.getD_some, TypeDef.definitionsOf,
      TypeDef.definitionsOf, TypeDef.definitionsOf, TypeDef.definitions, TypeDef.definitions,
      if_pos rfl, if_neg hplace] at hd
    obtain rfl := List.mem_singleton.mp hd
    have hctor : ({ stream := some [{ op := .ret }] } : Body).fault? = none := by decide
    have hgeneric : ¬ 65535 < (entryHead r name ts).generic.length := by
      show ¬ 65535 < 0
      omega
    unfold Definition.fault?
    rw [if_neg (by simp), if_neg hgeneric, List.findSome?_eq_none_iff]
    intro x hx
    rcases List.mem_cons.mp hx with rfl | hx
    · refine Member.fault?_eq_none rfl fun b hb => ?_
      cases hb
      exact hctor
    · obtain rfl := List.mem_singleton.mp hx
      refine Member.fault?_eq_none rfl fun b hb => ?_
      cases hb
      exact h

end Bodies

/-- **The synthetic module is well formed.** Take a registry whose methods are linked to their types
and any number of concrete types. The module that touches them is built and passes the structural
checks, and its static method has one block for each type in order and then a return: a constructor
call where the registry knows a constructor without parameters for the arguments of the type, a
local initialised in place everywhere else. Such a block names the local whose index is the number
of earlier blocks of its kind, which has the type, by the short form as long as the index fits in a
byte. The stack is empty before every block and at the end, and never below that.

Indices are machine integers, so the list must be one that a machine can hold. -/
theorem build_wellFormed {r : Registry} (hr : r.Linked) {name : Text} (hname : name ≠ [])
    {ts : List TypeRef} (hts : ∀ t ∈ ts, t.isConcrete = true) (hlen : ts.length < 2 ^ 63) :
    ∃ (m : Module) (head : TypeHead) (entry : MethodDef) (body : Body)
      (blocks : List (List Instruction)),
      build name ts r = .ok m ∧ m.fault? = none ∧
      m = Module.new name [.node head []] ∧ head.name = name ∧
      head.methods = [some (MethodDef.newConstructor []), some entry] ∧
      entry.name = name ∧ entry.isStatic = true ∧ entry.body = some body ∧
      Touches r ts blocks body := by
  have hstatic : (MethodAttr.isStatic ||| MethodAttr.isPublic) &&& MethodAttr.isStatic ≠ 0 := by
    decide
  refine ⟨_, entryHead r name ts, _, entryBody r ts, blocks r 0 ts, build_eq hname hts, ?_, rfl,
    rfl, rfl, rfl, decide_eq_true hstatic, rfl, ?_⟩
  · exact entry_fault? (entryBody_fault? hr hlen)
  · exact entryBody_touches hr hlen

/-- A constructor, and then two locals: of the second block of its kind, the index is one. -/
theorem build_wellFormed_touched :
    (Sample.touched.map (constructible (Registry.ofModules [some Sample.ring.module]))) =
      [true, false, false] ∧
    ∃ m head entry body blocks,
      build "Gen" Sample.touched (Registry.ofModules [some Sample.ring.module]) = .ok m ∧
      m.fault? = none ∧ m = Module.new "Gen" [.node head []] ∧ head.name = "Gen" ∧
      head.methods = [some (MethodDef.newConstructor []), some entry] ∧
      entry.name = "Gen" ∧ entry.isStatic = true ∧ entry.body = some body ∧
      Touches (Registry.ofModules [some Sample.ring.module]) Sample.touched blocks body :=
  ⟨by decide, build_wellFormed (Registry.linked_ofModules _) (by decide) (by decide) (by decide)⟩

end Emit

end Monomorph
