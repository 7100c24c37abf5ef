import Mathlib.Data.List.Induction
import Monomorph.Proofs.Pooled
import Monomorph.Proofs.Scan

/-!
# Harvesting is one pass

Modules are harvested one by one into pools of their own, which are then merged. The pool that comes
out is the one that a single pass over all modules would give: of each name that is mentioned the
first mention, in the order of the mentions (`Pool.types_ofModules`). Nothing is lost by dropping
the repetitions of a module early (`Pool.merge_ofList`), since their names are kept.

Workers that harvest in turns come to the pools of their modules as long as there is no cache, since
a worker that asks for one learns that it holds nothing (`Terms.quiet`).
-/

namespace Monomorph

/-! ## One pass -/

/-- The first reference of each full name, in order. -/
def TypeRef.firsts (ts : List TypeRef) : List TypeRef :=
  ts.eraseDupsBy fun t u => t.fullName == u.fullName

/-- The instances without parameters. -/
def TypeRef.concreteInstances (ts : List TypeRef) : List TypeRef :=
  ts.filter fun t => t.isInstance && t.isConcrete

/-- The concrete instances that a module mentions, with repetitions: its type operands in the order
of the instructions, the base types of its plain classes in the order of the definitions, and the
declaring types of the methods that it refers to, again in the order of the instructions. -/
def Module.instances (m : Module) : List TypeRef :=
  let code := m.members.flatMap fun x => x.method.code
  let classes := m.definitions.filter fun d => d.head.isClass && !d.isGeneric
  TypeRef.concreteInstances (code.map fun i => i.operand.type)
    ++ TypeRef.concreteInstances (classes.map fun d => d.head.base)
    ++ TypeRef.concreteInstances (code.filterMap fun i => i.operand.method.map (·.declaring))

/-- The concrete instances that modules mention, with repetitions; an empty place mentions none. -/
def Module.instancesOf (modules : List (Option Module)) : List TypeRef :=
  modules.flatMap fun m => (m.map Module.instances).getD []

namespace TypeRef

theorem firsts_cons (t : TypeRef) (ts : List TypeRef) :
    firsts (t :: ts) = t :: firsts (ts.filter fun u => u.fullName ≠ t.fullName) := by
  rw [firsts, List.eraseDupsBy_cons, firsts]
  simp

end TypeRef

namespace Pool

open TypeRef (firsts)

theorem addAll_append (p : Pool) (ts us : List TypeRef) :
    p.addAll (ts ++ us) = (p.addAll ts).addAll us := List.foldl_append ..

theorem addAll_filter_isConcrete (p : Pool) (ts : List TypeRef) :
    p.addAll (ts.filter TypeRef.isConcrete) = p.addAll ts := by
  induction ts generalizing p with
  | nil => rfl
  | cons t ts ih =>
      rw [List.filter_cons]
      split
      · exact ih (p.add t)
      · rename_i ht
        have hsame : p.add t = p := if_neg fun h => ht (accepts_iff.mp h).1
        show _ = (p.add t).addAll ts
        rw [ih p, hsame]

/-- What concrete types add to a pool: the first of each name that it does not have. -/
theorem types_addAll {ts : List TypeRef} (hts : ∀ t ∈ ts, t.isConcrete = true) (p : Pool) :
    (p.addAll ts).types = p.types ++ firsts (ts.filter fun t => t.fullName ∉ p.names) := by
  induction ts generalizing p with
  | nil => exact (List.append_nil _).symm
  | cons t ts ih =>
      obtain ⟨ht, hts⟩ := List.forall_mem_cons.mp hts
      show ((p.add t).addAll ts).types = _
      by_cases hmem : t.fullName ∈ p.names
      · have hsame : p.add t = p := if_neg fun h => (accepts_iff.mp h).2 hmem
        rw [hsame, ih hts, List.filter_cons_of_neg (by simpa using hmem)]
      · have hadd : p.add t = ⟨p.types ++ [t]⟩ := if_pos (accepts_iff.mpr ⟨ht, hmem⟩)
        have hnames : ∀ name, name ∈ (p.add t).names ↔ name ∈ p.names ∨ name = t.fullName := by
          intro name
          rw [mem_names_add]
          simp [ht, eq_comm]
        -- What is new to the grown pool is new to the old one and not called like `t`.
        have hnew : (ts.filter fun u => u.fullName ∉ (p.add t).names) =
            (ts.filter fun u => u.fullName ∉ p.names).filter fun u => u.fullName ≠ t.fullName := by
          rw [List.filter_filter]
          refine List.filter_congr fun u _ => ?_
          simp only [hnames, not_or, Bool.decide_and, Bool.and_comm]
        rw [ih hts, hnew, List.filter_cons_of_pos (by simpa using hmem), TypeRef.firsts_cons, hadd,
          List.append_assoc, List.singleton_append]

/-- Merging a pool that was made of references is adding the references: of those that the pool
dropped, the name is there by then. -/
theorem merge_ofList (p : Pool) (ts : List TypeRef) : p.merge (ofList ts) = p.addAll ts := by
  induction ts using List.reverseRecOn with
  | nil => rfl
  | append_singleton ts t ih =>
      have hlist : ofList (ts ++ [t]) = (ofList ts).add t := addAll_append _ ts [t]
      have hall : p.addAll (ts ++ [t]) = (p.addAll ts).add t := addAll_append _ ts [t]
      rw [hlist, hall]
      by_cases hacc : (ofList ts).accepts t = true
      · have hadd : (ofList ts).add t = ⟨(ofList ts).types ++ [t]⟩ := if_pos hacc
        rw [hadd, ← ih]
        exact addAll_append p (ofList ts).types [t]
      · have hsame : (ofList ts).add t = ofList ts := if_neg hacc
        have hsame' : (p.addAll ts).add t = p.addAll ts := by
          refine if_neg fun h => hacc ?_
          obtain ⟨hconc, hnew⟩ := accepts_iff.mp h
          refine accepts_iff.mpr ⟨hconc, fun hmem => hnew ?_⟩
          rw [ofList, mem_names_addAll] at hmem
          rw [mem_names_addAll]
          exact Or.inr (hmem.resolve_left (by simp [names]))
        rw [hsame, hsame', ih]

theorem filter_isConcrete_mentioned (m : Module) :
    (mentioned m.definitions).filter TypeRef.isConcrete = m.instances := by
  have hcode : instructions m.definitions = m.members.flatMap fun x => x.method.code := by
    rw [instructions, Module.members, List.flatMap_assoc]
  rw [mentioned, List.filter_filter, List.filter_append, List.filter_append, hcode]
  simp only [Module.instances, TypeRef.concreteInstances, Bool.and_comm]

/-- A pool of modules has the first mention of each name, in the order of the mentions. -/
theorem types_ofModules (modules : List (Option Module)) :
    (ofModules modules).types = firsts (Module.instancesOf modules) := by
  have hone : ∀ (p : Pool) (m : Option Module),
      p.merge ((m.map ofModule).getD {}) = p.addAll ((m.map Module.instances).getD []) := by
    intro p m
    cases m with
    | none => rfl
    | some m =>
        show p.merge (ofList (mentioned m.definitions)) = p.addAll m.instances
        rw [merge_ofList, ← addAll_filter_isConcrete, filter_isConcrete_mentioned]
  have hall : ∀ p : Pool, (modules.map fun m => (m.map ofModule).getD {}).foldl merge p
      = p.addAll (Module.instancesOf modules) := by
    induction modules with
    | nil => exact fun _ => rfl
    | cons m modules ih =>
        intro p
        have hcons : Module.instancesOf (m :: modules)
            = (m.map Module.instances).getD [] ++ Module.instancesOf modules := List.flatMap_cons
        rw [List.map_cons, List.foldl_cons, hone, ih, hcons, addAll_append]
  have hconc : ∀ t ∈ Module.instancesOf modules, t.isConcrete = true := by
    intro t ht
    obtain ⟨m, -, ht⟩ := List.mem_flatMap.mp ht
    cases m with
    | none => cases ht
    | some m =>
        have hmem : t ∈ m.instances := ht
        rw [← filter_isConcrete_mentioned] at hmem
        exact (List.mem_filter.mp hmem).2
  rw [ofModules, hall, types_addAll hconc]
  simp [names]

end Pool

/-! ## Harvests -/

namespace Stage

/-- What the workers of the modules return without a cache, when they succeed, joins to the pool of
the modules; and they succeed if nobody calls the work off. -/
theorem exec_harvestModules (announcing : Nat → Work DiskM StageError Unit) (parent : Nat)
    (modules : List (Option Module)) (turns : Stage → List Turn) (w : Monitor) (d : Disk) :
    let done := (Work.exec (harvestModules announcing parent modules none (.taking turns)) w d).1.1
    (∀ out, done = .ok out → joined out.1 = Pool.ofModules modules) ∧
      (Quiet announcing → (∀ turn ∈ turns .harvest, turn ≠ .cancel) → w.cancelled = false →
        ∃ out, done = .ok out) := by
  refine Work.exec_quiet (fun fails hT => ?_) w d
  -- Nothing comes from a cache, so what is harvested is each module's own pool.
  have hoffers : Offers (Terms.quiet fails) (fun m pool => pool = Pool.ofModule m) 0 modules :=
    fun _ _ _ => ⟨trivial, rfl, nofun⟩
  have hstage : Work.Ensures _
      (harvestModules announcing parent modules none (.taking turns)) _ _ :=
    ensures_harvestModules hT hoffers none
  exact hstage.imp (fun _ _ => id) (fun out _ _ ⟨_, _, _, hpools⟩ => joined_of_forall₂ hpools)
    fun _ _ _ => And.right

/-- **Harvesting is one pass.** Over modules of which some may be missing, let `flat` be what one
pass picks: of the concrete instances that the modules mention in order, as type operands, as base
types of plain classes and as declaring types of methods, the first of each full name.

* The pools of the modules, merged in order, have the types `flat`.
* Whatever turns the workers of the modules take, what they return without a cache when they succeed
  joins to these types; and they succeed if nobody calls the work off. -/
theorem harvestModules_exact (modules : List (Option Module)) :
    let flat := TypeRef.firsts (Module.instancesOf modules)
    (Pool.ofModules modules).types = flat ∧
      ∀ (announcing : Nat → Work DiskM StageError Unit) (parent : Nat) (turns : Stage → List Turn)
        (w : Monitor) (d : Disk),
        let done := (Work.exec (harvestModules announcing parent modules none (.taking turns))
          w d).1.1.map fun out => (joined out.1).types
        (∀ types, done = .ok types → types = flat) ∧
          (Quiet announcing → (∀ turn ∈ turns .harvest, turn ≠ .cancel) → w.cancelled = false →
            done = .ok flat) := by
  intro flat
  have hflat : (Pool.ofModules modules).types = flat := Pool.types_ofModules modules
  refine ⟨hflat, ?_⟩
  intro announcing parent turns w d done
  obtain ⟨hresult, hsuccess⟩ := exec_harvestModules announcing parent modules turns w d
  have htypes : ∀ types, done = .ok types → types = flat := by
    intro types htypes
    cases hexec : (Work.exec (harvestModules announcing parent modules none (.taking turns))
        w d).1.1 with
    | error e =>
        have hdone : done = .error e := congrArg (Except.map _) hexec
        cases hdone.symm.trans htypes
    | ok out =>
        have hdone : done = .ok (joined out.1).types := congrArg (Except.map _) hexec
        cases hdone.symm.trans htypes
        rw [hresult out hexec, hflat]
  refine ⟨htypes, ?_⟩
  intro hquiet hturns hw
  obtain ⟨out, hout⟩ := hsuccess hquiet hturns hw
  have hdone : done = .ok (joined out.1).types := congrArg (Except.map _) hout
  rw [hdone, htypes _ hdone]

end Stage

namespace Sample

/-- Two modules that mention `Box<Foo>`, the first one twice, with an empty place between them. The
first mentions `List<Foo>` later in its code, but as an operand, and derives from it as well. -/
def mentions : List (Option Module) :=
  let box (t : TypeRef) := TypeRef.applied "App.Box`1" [t]
  let list (t : TypeRef) := TypeRef.applied "App.List`1" [t]
  let run := staticMethod "Run" []
    [withMethod .newobj (construct (box foo)), withType .ldtoken (list foo),
      withMethod .newobj (construct (box foo)),
      withType .ldtoken (box (.typeParam "T" 0 "App.A`1"))]
  [some (.new "First" [cls "First" [] [run] (list foo)]), none,
    calling "Second" [withMethod .newobj (construct (list bar)), withType .ldtoken (box foo),
      withType .ldtoken (box bar)]]

end Sample

open Sample in
/-- The second module is harvested before the first, which starts in between. -/
theorem Stage.harvestModules_exact_turns :
    (TypeRef.firsts (Module.instancesOf mentions)).map TypeRef.fullName =
        ["App.List`1<App.Foo>", "App.Box`1<App.Foo>", "App.Box`1<App.Bar>",
          "App.List`1<App.Bar>"] ∧
      (Work.exec (harvestModules (fun _ => return ()) 0 mentions none (.taking fun _ => scanTurns))
        {} {}).1.1.map (fun out => (joined out.1).types)
          = .ok (TypeRef.firsts (Module.instancesOf mentions)) := by
  constructor
  · decide +kernel
  · refine ((harvestModules_exact mentions).2 _ 0 _ {} {}).2 ?_ ?_ rfl
    · exact fun i w d hw => ⟨w, d, rfl, hw⟩
    · rintro _ hcancel rfl
      simp [scanTurns] at hcancel

end Monomorph
