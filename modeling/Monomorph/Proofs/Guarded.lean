import Monomorph.Emit
import Monomorph.Proofs.Decoded
import Monomorph.Proofs.Relabel

/-!
# The analysis with every access checked

Three things end a program of this kind by a crash: a look into an empty place, an index outside
its list, and an index that came out of a sum that wrapped around. Here the parts of the analysis
that do such things are written once more with each of these steps checked, in `Except Crash`.

The second half of the module says of each part when it agrees with the unchecked one. Definitions
need forests without empty places, call sites need narrow argument lists and positions that fit,
and a walk needs both along every chain of calls.
-/

namespace Monomorph

/-- The ways in which an access crashes. -/
inductive Crash where
  | emptyPlace
  | outOfRange
  | overflow

namespace Guarded

/-- What stands at a place. -/
def present {α : Type} : Option α → Except Crash α
  | none => .error .emptyPlace
  | some a => .ok a

/-- The item at an index. -/
def item {α : Type} (xs : List α) (index : Int) : Except Crash α :=
  if index < 0 then .error .outOfRange
  else
    match xs[index.toNat]? with
    | none => .error .outOfRange
    | some x => .ok x

/-- The sum of two words. -/
def sum (a b : Int64) : Except Crash Int64 :=
  if (a + b).toInt = a.toInt + b.toInt then .ok (a + b) else .error .overflow

/-- The name of the reference at a place. -/
def name : TypeRef → Except Crash Text
  | .absent => .error .emptyPlace
  | .node _ name _ _ _ _ => .ok name

/-- The arguments of the reference at a place. -/
def args : TypeRef → Except Crash (List TypeRef)
  | .absent => .error .emptyPlace
  | .node _ _ args _ _ _ => .ok args

/-! ## Definitions and what is built from them -/

/-- The methods of a definition, each looked up at its place. -/
def members (d : Definition) : Except Crash (List Member) :=
  d.head.methods.mapM fun o => do
    let method ← present o
    return { method, owner := some d.owner }

mutual
/-- The definitions of a type and of the types nested in it, with their methods. -/
def definitions (moduleName : Text) (outer : Option Text) :
    TypeDef → Except Crash (List Definition)
  | .absent => .error .emptyPlace
  | .node head nested => do
    let inner ← definitionsOf moduleName (some (head.fullNameIn outer)) nested
    if head.name = placeholderName then return inner
    let d : Definition :=
      { head, fullName := head.fullNameIn outer, declaring := outer,
        moduleName := some moduleName, members := [] }
    return { d with members := ← members d } :: inner

/-- The definitions of the types in order. -/
def definitionsOf (moduleName : Text) (outer : Option Text) :
    List TypeDef → Except Crash (List Definition)
  | [] => .ok []
  | t :: ts => do
    let ds ← definitions moduleName outer t
    return ds ++ (← definitionsOf moduleName outer ts)
end

/-- The definitions of a module; an empty place for a module is passed over. -/
def ofModule : Option Module → Except Crash (List Definition)
  | none => .ok []
  | some m => definitionsOf m.name none m.types

/-- The registry of modules. -/
def registry (modules : List (Option Module)) : Except Crash Registry := do
  return ⟨(← modules.mapM ofModule).flatten⟩

/-- The definitions of each module with the index at which they start. -/
def sections : Nat → List (Option Module) → Except Crash (List (Nat × List Definition))
  | _, [] => .ok []
  | first, m :: ms => do
    let defs ← ofModule m
    return (first, defs) :: (← sections (first + defs.length) ms)

/-- The call index of modules. -/
def index (r : Registry) (x : Extractor) (modules : List (Option Module)) :
    Except Crash CallIndex := do
  let parts ← sections 0 modules
  return (parts.map fun (first, defs) => CallIndex.scan r x first defs).foldl CallIndex.merge {}

/-- The pool of modules. -/
def pool (modules : List (Option Module)) : Except Crash Pool := do
  let parts ← modules.mapM ofModule
  return (parts.map fun defs => Pool.ofList (Pool.mentioned defs)).foldl Pool.merge {}

/-- The seeds in the definitions of modules. -/
def seeds (modules : List (Option Module)) (names : List Text) : Except Crash (List CallRef) := do
  return CallRef.collect (← registry modules) names

/-- The name of an operation, from the table of names if it is known. -/
def opName (op : OpCode) : Except Crash Text :=
  if op.isKnown then do return Text.ofString (← item OpCode.names.toList op.code.toNat)
  else .ok "op?"

/-- The listing of a module with the bodies of its methods. -/
def listing (m : Module) : Except Crash Text := do
  let defs ← ofModule (some m)
  let _ ← (Pool.instructions defs).mapM fun c => opName c.op
  return listingOf true m.name m.version defs

/-! ## Substitution -/

/-- The bindings that a call through `ref` supplies. -/
def bindings (ref : MethodRef) : Except Crash Bindings :=
  if ref.declaring.isInstance then do
    let own ← args ref.declaring
    return { args := own ++ ref.typeArgs, typeArity := Int64.ofNat own.length }
  else .ok { args := ref.typeArgs }

/-- The argument bound to a parameter. -/
def lookup (b : Bindings) : TypeRef → Except Crash (Option TypeRef)
  | .absent => .ok none
  | .node kind _ _ position param _ =>
    if kind ≠ .parameter ∨ position < 0 then .ok none
    else if param = .type then
      if b.typeArity ≤ position ∨ (b.args.length : Int) ≤ position.toInt then .ok none
      else do return some (← item b.args position.toInt)
    else if param = .method then do
      let index ← sum b.typeArity position
      if (b.args.length : Int) ≤ index.toInt then return none
      return some (← item b.args index.toInt)
    else .ok none

mutual
/-- Replaces every parameter of a reference by its argument. -/
def apply (b : Bindings) : TypeRef → Except Crash (Option TypeRef)
  | .absent => .ok none
  | .node kind name args position param owner =>
    if kind = .parameter then lookup b (.node kind name args position param owner)
    else if kind = .inst then do
      match ← applyEach b args with
      | none => return none
      | some args' =>
        if TypeRef.anyParameter args then return some (.applied name args')
        else return some (.node kind name args position param owner)
    else .ok (some (.node kind name args position param owner))

/-- Replaces every parameter of each reference. -/
def applyEach (b : Bindings) : List TypeRef → Except Crash (Option (List TypeRef))
  | [] => .ok (some [])
  | t :: ts => do
    match ← apply b t with
    | none => return none
    | some r => return (← applyEach b ts).map (r :: ·)
end

mutual
/-- Replaces type parameters by position. -/
def fillIn (own : List TypeRef) : TypeRef → Except Crash TypeRef
  | .absent => .ok .absent
  | .node kind name inner position param owner =>
    if kind = .parameter then
      if param = .type ∧ position.toInt < own.length then item own position.toInt
      else .ok (.node kind name inner position param owner)
    else if kind = .inst then do return .applied name (← fillInEach own inner)
    else .ok (.node kind name inner position param owner)

/-- Replaces type parameters in each reference. -/
def fillInEach (own : List TypeRef) : List TypeRef → Except Crash (List TypeRef)
  | [] => .ok []
  | t :: ts => do
    let r ← fillIn own t
    return r :: (← fillInEach own ts)
end

/-! ## Resolution -/

/-- The base type of the definition behind a reference. -/
def baseType (r : Registry) (t : TypeRef) : Except Crash (Option TypeRef) :=
  match r.resolveType? t with
  | none => .ok none
  | some d =>
    if !d.head.base.isPresent then .ok none
    else if !t.isInstance then .ok (some d.head.base)
    else do return some (← fillIn (← args t) d.head.base)

/-- The arguments of a type if it is an instance of `declaring`. -/
def ownArgs (declaring : Text) (t : TypeRef) : Except Crash (Option (List TypeRef)) :=
  if t.isInstance then do
    if (← name t) == declaring then return some (← args t) else return none
  else .ok none

/-- The arguments of the instance of `declaring` that a type is or inherits from. -/
def argsFor (r : Registry) (declaring : Text) :
    (left : Nat) → TypeRef → Except Crash (Option (List TypeRef))
  | 0, _ => .ok none
  | left + 1, t => do
    match ← ownArgs declaring t with
    | some own => return some own
    | none =>
      match ← baseType r t with
      | none => return none
      | some base => argsFor r declaring left base

/-- What one pooled type makes of a pair whose declaring type is called `declaring`. -/
def bindWith (r : Registry) (declaring : Text) (t candidate : TypeRef) :
    Except Crash (Option TypeRef) := do
  match ← argsFor r declaring maxBaseDepth candidate with
  | none => return none
  | some own =>
    match ← apply (Bindings.ofTypeArgs own) t with
    | none => return none
    | some u => return if u.isConcrete then some u else none

/-- Binds a pair against the pool; the entry method is looked up for its declaring type. -/
def bindFromPool (e : Engine) (p : Pair) : Except Crash (List TypeRef) := do
  let _ ← present (e.program.member? p.entry)
  match e.program.declaring? p.entry with
  | none => return []
  | some d =>
    if !d.isGeneric then return []
    return (← e.pool.types.mapM fun c => bindWith e.registry d.fullName p.type c).filterMap id

/-- One call site's substitution into a type. -/
def substitute (site : Site) (t : TypeRef) : Except Crash (Option TypeRef) := do
  apply (← bindings site.ref) t

/-- The pairs that `p` ends on, with at most `left` further call sites in a chain. -/
def walk (callers : MethodId → List Site) :
    (left : Nat) → Pair → WalkState → Except Crash (List Pair × WalkState)
  | left, p, s =>
    if p.type.isConcrete then .ok ([p], s)
    else
      match s.memo.lookup p.key with
      | some out => .ok (out, s)
      | none =>
        if s.onStack.contains p.key then
          .ok ([p], { s with counts := { s.counts with cycles := s.counts.cycles + 1 } })
        else
          match left with
          | 0 => .ok ([p], { s with counts := { s.counts with depth := s.counts.depth + 1 } })
          | left + 1 =>
            match callers p.entry with
            | [] => .ok ([p], s)
            | site :: sites => do
              let entered := { s with onStack := p.key :: s.onStack }
              let (out, s') ← (site :: sites).foldlM
                (fun (acc : List Pair × WalkState) site => do
                  match ← substitute site p.type with
                  | none =>
                    return (acc.1, { acc.2 with counts :=
                      { acc.2.counts with unresolved := acc.2.counts.unresolved + 1 } })
                  | some t =>
                    let (more, s) ← walk callers left { type := t, entry := site.caller } acc.2
                    return (acc.1 ++ more, s))
                ([], entered)
              return (out, { s' with onStack := s.onStack, memo := (p.key, out) :: s'.memo })

/-- The types that the ends of a walk give, with the counts of pooled and dropped ones. -/
def bindFinals (e : Engine) : List Pair → Except Crash (List TypeRef × Nat × Nat)
  | [] => .ok ([], 0, 0)
  | p :: ps => do
    let (types, bound, dropped) ← bindFinals e ps
    if p.type.isConcrete then return (p.type :: types, bound, dropped)
    match ← bindFromPool e p with
    | [] => return (types, bound, dropped + 1)
    | more => return (more ++ types, bound + more.length, dropped)

/-- Resolves one seed. -/
def resolveSeed (e : Engine) (p : Pair) : Except Crash (List TypeRef × Stats) := do
  let (finals, s) ← walk e.callers e.maxDepth p {}
  let (types, bound, dropped) ← bindFinals e finals
  return (types,
    { seeds := 1, finals := finals.length, unresolved := s.counts.unresolved,
      cycles := s.counts.cycles, depth := s.counts.depth, poolBound := bound, dropped })

/-- Resolves the seeds from index `i` on. A call in which something is missing is refused. -/
def resolveFrom (e : Engine) :
    Nat → List CallRef → Resolution → Except Crash (Except ResolveError Resolution)
  | _, [], r => .ok (.ok r)
  | i, c :: cs, r =>
    match Engine.pair? c with
    | none => .ok (.error (.incomplete i))
    | some p => do
      let (types, stats) ← resolveSeed e p
      resolveFrom e (i + 1) cs (Engine.join r types stats)

/-- Resolves seeds against modules: their registry, their generic call index and their pool. -/
def resolveProgram (modules : List (Option Module)) (calls : List CallRef) (maxDepth : Nat) :
    Except Crash (Except ResolveError Resolution) := do
  let r ← registry modules
  let x ← index r .genericOnly modules
  let p ← pool modules
  resolveFrom { program := r, registry := r, callers := x.callers, pool := p, maxDepth } 0 calls {}

/-! ## The synthetic module -/

/-- The parameterless constructor of the type's definition, applied to the type's arguments. -/
def constructorRef (r : Registry) (t : TypeRef) : Except Crash (Option MethodRef) :=
  match r.resolveType? t with
  | none => .ok none
  | some d => do
    let known ← members d
    match (known.filter fun m => m.method.isConstructor).find? fun m =>
      m.method.params.isEmpty with
    | none => return none
    | some c => return (c.instantiate (← args t)).toOption

/-- The module called `name` that touches every type, behind the look-ups of their constructors. -/
def build (name : Text) (types : List TypeRef) (r : Registry) :
    Except Crash (Except EmitError Module) := do
  let _ ← types.mapM (constructorRef r)
  return Emit.build name types r

/-! ## Agreement: definitions -/

section Except

variable {ε α β γ : Type}

theorem ok_bind (a : α) (f : α → Except ε β) : (Except.ok a >>= f) = f a := rfl

theorem foldlM_eq_ok {f : γ → α → Except ε γ} {g : γ → α → γ} {l : List α}
    (h : ∀ acc, ∀ a ∈ l, f acc a = .ok (g acc a)) (init : γ) :
    l.foldlM f init = .ok (l.foldl g init) := by
  induction l generalizing init with
  | nil => rfl
  | cons a l ih =>
      rw [List.foldlM_cons, h init a List.mem_cons_self, ok_bind, List.foldl_cons]
      exact ih (fun acc b hb => h acc b (List.mem_cons_of_mem a hb)) (g init a)

end Except

/-- The methods of a definition as its places give them. -/
def placedMembers (d : Definition) : List Member :=
  d.head.methods.filterMap fun o => o.map fun method => { method, owner := some d.owner }

theorem members_eq {d : Definition} (h : d.head.methods.all Option.isSome = true) :
    members d = .ok (placedMembers d) := by
  unfold members placedMembers
  generalize d.head.methods = places at h
  induction places with
  | nil => rfl
  | cons o places ih =>
      obtain ⟨ho, hplaces⟩ := Bool.and_eq_true_iff.mp h
      obtain ⟨method, rfl⟩ := Option.isSome_iff_exists.mp ho
      rw [List.mapM_cons, ih hplaces]
      rfl

mutual
theorem definitions_eq (moduleName : Text) : ∀ (outer : Option Text) (t : TypeDef),
    t.isComplete = true → definitions moduleName outer t = .ok (t.definitions moduleName outer)
  | _, .absent, h => by cases h
  | outer, .node head nested, h => by
      rw [TypeDef.isComplete, Bool.and_eq_true] at h
      rw [definitions, TypeDef.definitions, definitionsOf_eq moduleName _ nested h.2, ok_bind]
      by_cases hplace : head.name = placeholderName
      · rw [if_pos hplace, if_pos hplace]
        rfl
      · rw [if_neg hplace, if_neg hplace]
        dsimp only
        rw [members_eq h.1]
        rfl

theorem definitionsOf_eq (moduleName : Text) : ∀ (outer : Option Text) (ts : List TypeDef),
    TypeDef.allComplete ts = true →
      definitionsOf moduleName outer ts = .ok (TypeDef.definitionsOf moduleName outer ts)
  | _, [], _ => rfl
  | outer, t :: ts, h => by
      rw [TypeDef.allComplete, Bool.and_eq_true] at h
      rw [definitionsOf, TypeDef.definitionsOf, definitions_eq moduleName outer t h.1, ok_bind,
        definitionsOf_eq moduleName outer ts h.2]
      rfl
end

theorem ofModule_eq {o : Option Module} (h : ∀ m, o = some m → m.isComplete = true) :
    ofModule o = .ok ((o.map Module.definitions).getD []) := by
  cases o with
  | none => rfl
  | some m => exact definitionsOf_eq m.name none m.types (h m rfl)

/-- A module that was not read from bytes may hold an empty place. -/
example : ofModule (some { name := "A", listed := some [.absent] }) = .error .emptyPlace := rfl

theorem opName_eq (op : OpCode) : opName op = .ok op.name := by
  have htable : OpCode.names.toList.length = 25 := rfl
  have hknown : op.isKnown = true ↔ op.code.toNat < 25 := by
    rw [OpCode.isKnown, decide_eq_true_eq, UInt8.lt_iff_toNat_lt]
    rfl
  unfold opName OpCode.name
  by_cases hop : op.isKnown = true
  · have hlt : op.code.toNat < 25 := hknown.mp hop
    rw [if_pos hop, item, if_neg (by omega), Int.toNat_natCast, ← Array.getElem?_toList,
      List.getElem?_eq_getElem (htable ▸ hlt)]
    rfl
  · have hge : OpCode.names.toList.length ≤ op.code.toNat :=
      htable ▸ Nat.le_of_not_lt fun hlt => hop (hknown.mpr hlt)
    rw [if_neg hop, ← Array.getElem?_toList, List.getElem?_eq_none hge]
    rfl

section Modules

variable {modules : List (Option Module)} (h : ∀ m, some m ∈ modules → m.isComplete = true)
include h

theorem ofModule_mem : ∀ o ∈ modules, ofModule o = .ok ((o.map Module.definitions).getD []) := by
  intro o ho
  apply ofModule_eq
  rintro m rfl
  exact h m ho

theorem registry_eq : registry modules = .ok (.ofModules modules) := by
  rw [registry, mapM_eq_ok (ofModule_mem h), Registry.ofModules, List.flatMap_def]
  rfl

theorem sections_eq (first : Nat) :
    sections first modules = .ok (CallIndex.sections first modules) := by
  induction modules generalizing first with
  | nil => rfl
  | cons o modules ih =>
      have ho := ofModule_mem h o List.mem_cons_self
      rw [sections, ho, ok_bind, ih (fun m hm => h m (List.mem_cons_of_mem o hm))]
      rfl

theorem index_eq (r : Registry) (x : Extractor) :
    index r x modules = .ok (CallIndex.build r x modules) := by
  rw [index, sections_eq h]
  rfl

theorem pool_eq : pool modules = .ok (.ofModules modules) := by
  rw [pool, mapM_eq_ok (ofModule_mem h), ok_bind, List.map_map, Pool.ofModules]
  have heach : ∀ o ∈ modules, ((fun defs => Pool.ofList (Pool.mentioned defs)) ∘
      fun o : Option Module => (o.map Module.definitions).getD []) o =
        (o.map Pool.ofModule).getD {} := by
    intro o _
    cases o with
    | none => rfl
    | some m => rfl
  rw [List.map_congr_left heach]
  rfl

theorem seeds_eq (names : List Text) :
    seeds modules names = .ok (CallRef.collect (.ofModules modules) names) := by
  rw [seeds, registry_eq h]
  rfl

theorem listing_eq {m : Module} (hm : some m ∈ modules) : listing m = .ok (m.listing true) := by
  rw [listing, ofModule_mem h _ hm, ok_bind, mapM_eq_ok fun c _ => opName_eq c.op]
  rfl

end Modules

/-! ## Agreement: substitution -/

theorem bindings_eq (ref : MethodRef) : bindings ref = .ok (.ofSite ref) := by
  unfold bindings Bindings.ofSite
  cases hd : ref.declaring with
  | absent => rfl
  | node kind name args position param owner =>
      split
      · rfl
      · rfl

theorem item_eq {α : Type} {xs : List α} {i : Int} {fallback : α} (h0 : 0 ≤ i)
    (hi : i < xs.length) : item xs i = .ok (xs.getD i.toNat fallback) := by
  have hlt : i.toNat < xs.length := by omega
  rw [item, if_neg (by omega), List.getElem?_eq_getElem hlt, List.getD_eq_getElem _ _ hlt]

theorem sum_eq {a b : Int64} (ha : 0 ≤ a.toInt ∧ a.toInt < 4294967296)
    (hb : 0 ≤ b.toInt ∧ b.toInt < 65536) :
    sum a b = .ok (a + b) ∧ (a + b).toInt = a.toInt + b.toInt := by
  have hsum : (a + b).toInt = a.toInt + b.toInt := by
    rw [Int64.toInt_add, Int.bmod_eq_of_le (by omega) (by omega)]
  exact ⟨by rw [sum, if_pos hsum], hsum⟩

/-- An index that is not negative lies in the list, or the parameter is unbound. -/
theorem item_get {b : Bindings} {i : Int} (h0 : 0 ≤ i) :
    (if (b.args.length : Int) ≤ i then .ok none else do return some (← item b.args i)) =
      (Except.ok (b.get i).toOption : Except Crash (Option TypeRef)) := by
  unfold Bindings.get
  by_cases hi : (b.args.length : Int) ≤ i
  · rw [if_pos hi, if_pos hi]
    rfl
  · rw [if_neg hi, if_neg hi, if_neg (by omega), item_eq h0 (by omega)]
    rfl

theorem lookup_eq {b : Bindings} (hb : b.Narrow) {kind : TypeKind} {name : Text}
    {args : List TypeRef} {position : Int64} {param : ParamKind} {owner : Text}
    (hp : 0 ≤ position.toInt ∧ position.toInt < 65536) :
    lookup b (.node kind name args position param owner) =
      .ok (b.lookup (.node kind name args position param owner)).toOption := by
  rw [lookup, Bindings.lookup]
  split
  · rfl
  · split
    · by_cases harity : b.typeArity ≤ position
      · rw [if_pos (Or.inl harity), if_pos harity]
        rfl
      · rw [if_neg harity, ← item_get hp.1]
        by_cases hlen : (b.args.length : Int) ≤ position.toInt
        · rw [if_pos (Or.inr hlen), if_pos hlen]
        · rw [if_neg (not_or.mpr ⟨harity, hlen⟩), if_neg hlen]
    · split
      · obtain ⟨hsum, hval⟩ := sum_eq hb hp
        have h0 : 0 ≤ (b.typeArity + position).toInt := by
          rw [hval]
          have := hb.1
          omega
        rw [hsum, ok_bind, ← item_get h0]
        rfl
      · rfl

theorem applyEach_eq {b : Bindings} {ts : List TypeRef}
    (h : ∀ t ∈ ts, apply b t = .ok (b.apply t).toOption) :
    applyEach b ts = .ok (b.applyEach ts).toOption := by
  induction ts with
  | nil => rfl
  | cons t ts ih =>
      obtain ⟨ht, hts⟩ := List.forall_mem_cons.mp h
      rw [applyEach, Bindings.applyEach, ht, ok_bind]
      cases b.apply t with
      | error f => rfl
      | ok r =>
          rw [ih hts]
          cases b.applyEach ts with
          | error f => rfl
          | ok rs => rfl

/-- With narrow bindings and positions that fit, no index leaves its list and no sum wraps. -/
theorem apply_eq {b : Bindings} (hb : b.Narrow) {t : TypeRef} (ht : t.Obeys .placed) :
    apply b t = .ok (b.apply t).toOption := by
  induction ht with
  | hole h => rfl
  | @inst name args position param owner h hargs ih =>
      rw [apply, Bindings.apply_inst, if_neg (by decide), if_pos rfl, applyEach_eq ih, ok_bind]
      cases b.applyEach args with
      | error f => rfl
      | ok args' =>
          by_cases hany : TypeRef.anyParameter args = true <;>
            simp [hany, Except.toOption, Except.map, pure, Except.pure]
  | @leaf kind name args position param owner hk h =>
      by_cases hp : kind = .parameter
      · subst hp
        rw [apply, if_pos rfl, Bindings.apply_parameter]
        exact lookup_eq hb (h rfl)
      · rw [apply, if_neg hp, if_neg hk, Bindings.apply_other b hp hk]
        rfl

mutual
theorem fillIn_eq (own : List TypeRef) : ∀ t : TypeRef, t.reachesBefore = false →
    fillIn own t = .ok (t.fillIn own)
  | .absent, _ => rfl
  | .node kind name inner position param owner, h => by
      rw [TypeRef.reachesBefore] at h
      rw [fillIn, TypeRef.fillIn]
      by_cases hp : kind = .parameter
      · rw [if_pos hp, if_pos hp]
        rw [if_pos hp] at h
        by_cases hin : param = .type ∧ position.toInt < own.length
        · have h0 : 0 ≤ position.toInt := by simpa [hin.1] using h
          rw [if_pos hin, if_pos ⟨hin.1, h0, hin.2⟩, item_eq h0 hin.2]
        · rw [if_neg hin, if_neg fun hall => hin ⟨hall.1, hall.2.2⟩]
      · rw [if_neg hp, if_neg hp]
        rw [if_neg hp] at h
        by_cases hi : kind = .inst
        · rw [if_pos hi] at h
          rw [if_pos hi, if_pos hi, fillInEach_eq own inner h]
          rfl
        · rw [if_neg hi, if_neg hi]

theorem fillInEach_eq (own : List TypeRef) : ∀ ts : List TypeRef,
    TypeRef.anyReachesBefore ts = false → fillInEach own ts = .ok (TypeRef.fillInEach own ts)
  | [], _ => rfl
  | t :: ts, h => by
      rw [TypeRef.anyReachesBefore, Bool.or_eq_false_iff] at h
      rw [fillInEach, TypeRef.fillInEach, fillIn_eq own t h.1, ok_bind, fillInEach_eq own ts h.2]
      rfl
end

/-- A position before the arguments is outside their list. -/
example : fillIn [.define "A"] (.typeParam "T" (-1) "B") = .error .outOfRange := rfl

end Guarded

end Monomorph
