import Monomorph.Proofs.Nesting
import Monomorph.Proofs.RoundTrip

/-!
# Links of assembled modules

A module is assembled by calls that make parts and attach them to each other, in any order. If no
part is attached twice, every type in a module remembers the type around it and every method the
type it belongs to. The module is another matter. A type that is attached to a module, or to a type
that remembers one, passes it on: the first to everything below, the second only to itself. So the
types in a module all remember it exactly if nothing with types nested in it was attached to a type
that already stood in a module (`Draft.links_iff_outerFirst`). In that case the definitions are
those that are read back from the module's file.
-/

namespace Monomorph

namespace Draft

/-! ## Calls -/

/-- The calls that make parts and attach them. -/
inductive Call where
  | newModule (name : Text)
  | newClass (ns name : Text) (generic : List Text)
  | newStruct (ns name : Text) (generic : List Text)
  | newMethod (name : Text) (attrs : UInt16) (generic : List Text)
  | newConstructor (params : List TypeRef)
  | addType (module type : Nat)
  | addNested (outer inner : Nat)
  | addMethod (type method : Nat)

namespace Call

/-- What a call does; it fails where a number names nothing. -/
def step (d : Draft) : Call → Option Draft
  | .newModule name => some (d.newModule name)
  | .newClass ns name generic => some (d.newType (TypeDef.newClass ns name generic))
  | .newStruct ns name generic => some (d.newType (TypeDef.newStruct ns name generic))
  | .newMethod name attrs generic => some (d.newMethod (MethodDef.new name attrs generic))
  | .newConstructor params => some (d.newMethod (MethodDef.newConstructor params))
  | .addType module type => d.attach module type
  | .addNested outer inner => d.addNested outer inner
  | .addMethod type method => d.addMethod type method

/-- The type that a call attaches. -/
def types : Call → List Nat
  | .addType _ type => [type]
  | .addNested _ inner => [inner]
  | _ => []

/-- The method that a call attaches. -/
def methods : Call → List Nat
  | .addMethod _ method => [method]
  | _ => []

/-- The call attaches a type that holds others to a type in a module. -/
def Late (d : Draft) : Call → Prop
  | .addNested outer inner => (∃ k o, d.Stands k o outer) ∧ ∃ x, d.Nests inner x
  | _ => False

end Call

/-- The calls one after the other. -/
def run (d : Draft) (calls : List Call) : Option Draft := calls.foldlM Call.step d

/-- No type and no method is attached twice. -/
def Once (calls : List Call) : Prop :=
  (calls.flatMap Call.types).Nodup ∧ (calls.flatMap Call.methods).Nodup

instance (calls : List Call) : Decidable (Once calls) := inferInstanceAs (Decidable (_ ∧ _))

/-- No type in a module is given a type that holds others already. -/
def OuterFirst : Draft → List Call → Prop
  | _, [] => True
  | d, c :: calls => ¬ c.Late d ∧ ∀ e, c.step d = some e → OuterFirst e calls

theorem outerFirst_cons {d e : Draft} {c : Call} {calls : List Call} (h : c.step d = some e) :
    OuterFirst d (c :: calls) ↔ ¬ c.Late d ∧ OuterFirst e calls := by
  simp only [OuterFirst, h, Option.some.injEq, forall_eq']

/-- Every type that stands in a module remembers it. -/
def Whole (d : Draft) : Prop := ∀ k outer x, d.Stands k outer x → d.moduleLink x = some (some k)

/-! ## Links are kept -/

variable {d d' : Draft} {A M : List Nat}

theorem exists_moduleLink {x : Nat} {link : Option Nat} (h : d.typeLink x = some link) :
    ∃ m, d.moduleLink x = some m := by
  obtain ⟨t, ht, -⟩ := Option.map_eq_some_iff.mp h
  exact ⟨t.module, by rw [moduleLink, ht, Option.map_some]⟩

/-- What is nested in a type that was not attached remembers no module. -/
theorem Tidy.moduleLink_of_free (h : d.Tidy A M) {i x : Nat} (hi : i ∉ A) (hx : d.Nests i x) :
    d.moduleLink x = some none := by
  obtain ⟨-, htype, hmodule⟩ := h.nested hx
  rcases hmodule with hnone | hsame
  · exact hnone
  · obtain ⟨m, hm⟩ := exists_moduleLink htype
    cases m with
    | none => exact hm
    | some k => exact absurd (hsame.symm.trans hm) ((h.free hi).2 k)

theorem Stands.mono (htop : ∀ k x, d.Top k x → d'.Top k x)
    (hnests : ∀ o x, d.Nests o x → d'.Nests o x) {k : Nat} {outer : Option Nat} {x : Nat}
    (h : d.Stands k outer x) : d'.Stands k outer x := by
  induction h with
  | top h => exact .top (htop _ _ h)
  | nested _ h ih => exact .nested ih (hnests _ _ h)

namespace Extends

variable (h : d.Extends d')
include h

theorem keeps_typeLink {x : Nat} {l : Option Nat} (hx : d.typeLink x = some l) :
    d'.typeLink x = some l := by
  rcases h.typeLink x with hsame | ⟨hnone, -⟩
  · rw [hsame, hx]
  · rw [hnone] at hx
    cases hx

theorem keeps_moduleLink {x : Nat} {l : Option Nat} (hx : d.moduleLink x = some l) :
    d'.moduleLink x = some l := by
  rcases h.moduleLink x with hsame | ⟨hnone, -⟩
  · rw [hsame, hx]
  · rw [hnone] at hx
    cases hx

theorem keeps_methodLink {m : Nat} {l : Option Nat} (hm : d.methodLink m = some l) :
    d'.methodLink m = some l := by
  rcases h.methodLink m with hsame | ⟨hnone, -⟩
  · rw [hsame, hm]
  · rw [hnone] at hm
    cases hm

theorem tidy (hd : d.Tidy A M) : d'.Tidy A M := by
  constructor
  · intro k x hx
    obtain ⟨hmem, htype, hmodule⟩ := hd.top ((h.top k x).mp hx)
    exact ⟨hmem, h.keeps_typeLink htype, h.keeps_moduleLink hmodule⟩
  · intro o x hx
    obtain ⟨hmem, htype, hmodule⟩ := hd.nested ((h.nests o x).mp hx)
    refine ⟨hmem, h.keeps_typeLink htype, ?_⟩
    rcases hmodule with hnone | hsame
    · exact Or.inl (h.keeps_moduleLink hnone)
    · obtain ⟨m, hm⟩ := exists_moduleLink htype
      right
      rw [h.keeps_moduleLink hm, h.keeps_moduleLink (hsame.symm.trans hm)]
  · intro x m hm
    obtain ⟨hmem, hlink⟩ := hd.carried ((h.carries x m).mp hm)
    exact ⟨hmem, h.keeps_methodLink hlink⟩
  · intro x hx
    obtain ⟨htype, hmodule⟩ := hd.free hx
    constructor
    · intro o ho
      rcases h.typeLink x with hsame | ⟨-, hnone⟩
      · exact htype o (hsame.symm.trans ho)
      · rw [hnone] at ho
        cases ho
    · intro k hk
      rcases h.moduleLink x with hsame | ⟨-, hnone⟩
      · exact hmodule k (hsame.symm.trans hk)
      · rw [hnone] at hk
        cases hk

theorem whole_iff : d'.Whole ↔ d.Whole := by
  constructor
  · intro hw k outer x hx
    have hlink := hw k outer x
      (hx.mono (fun k x => (h.top k x).mpr) fun o x => (h.nests o x).mpr)
    rcases h.moduleLink x with hsame | ⟨-, hnone⟩
    · rw [← hsame, hlink]
    · rw [hnone] at hlink
      cases hlink
  · intro hw k outer x hx
    exact h.keeps_moduleLink
      (hw k outer x (hx.mono (fun k x => (h.top k x).mp) fun o x => (h.nests o x).mp))

end Extends

namespace Gains

variable {type method : Nat} (h : d.Gains d' type method)
include h

theorem tidy (hd : d.Tidy A M) (hfresh : method ∉ M) : d'.Tidy A (method :: M) := by
  constructor
  · intro k x hx
    rw [h.typeLink, h.moduleLink]
    exact hd.top ((h.top k x).mp hx)
  · intro o x hx
    rw [h.typeLink, h.moduleLink, h.moduleLink]
    exact hd.nested ((h.nests o x).mp hx)
  · intro x m hm
    rw [h.methodLink]
    rcases (h.carries x m).mp hm with hold | ⟨rfl, rfl⟩
    · obtain ⟨hmem, hlink⟩ := hd.carried hold
      have hne : m ≠ method := fun hsame => hfresh (hsame ▸ hmem)
      rw [if_neg hne]
      exact ⟨List.mem_cons_of_mem _ hmem, hlink⟩
    · exact ⟨List.mem_cons_self, if_pos rfl⟩
  · intro x hx
    rw [h.typeLink, h.moduleLink]
    exact hd.free hx

theorem whole_iff : d'.Whole ↔ d.Whole := by
  constructor
  · intro hw k outer x hx
    rw [← h.moduleLink]
    exact hw k outer x (hx.mono (fun k x => (h.top k x).mpr) fun o x => (h.nests o x).mpr)
  · intro hw k outer x hx
    rw [h.moduleLink]
    exact hw k outer x (hx.mono (fun k x => (h.top k x).mp) fun o x => (h.nests o x).mp)

end Gains

namespace Houses

variable {outer inner : Nat} (h : d.Houses d' outer inner)
include h

theorem tidy (hd : d.Tidy A M) (hfresh : inner ∉ A) : d'.Tidy (inner :: A) M := by
  have hne : ∀ {x}, x ∈ A → x ≠ inner := fun hx hsame => hfresh (hsame ▸ hx)
  constructor
  · intro k x hx
    obtain ⟨hmem, htype, hmodule⟩ := hd.top ((h.top k x).mp hx)
    rw [h.typeLink, if_neg (hne hmem), h.moduleLink, if_neg (hne hmem)]
    exact ⟨List.mem_cons_of_mem _ hmem, htype, hmodule⟩
  · intro o x hx
    rcases (h.nests o x).mp hx with hold | ⟨rfl, rfl⟩
    · obtain ⟨hmem, htype, hmodule⟩ := hd.nested hold
      rw [h.typeLink, if_neg (hne hmem), h.moduleLink, if_neg (hne hmem), h.moduleLink]
      refine ⟨List.mem_cons_of_mem _ hmem, htype, ?_⟩
      by_cases ho : o = inner
      · subst ho
        exact Or.inl (hd.moduleLink_of_free hfresh hold)
      · rwa [if_neg ho]
    · rw [h.typeLink, if_pos rfl, h.moduleLink, if_pos rfl, h.moduleLink]
      refine ⟨List.mem_cons_self, rfl, Or.inr ?_⟩
      split_ifs <;> rfl
  · intro x m hm
    rw [h.methodLink]
    exact hd.carried ((h.carries x m).mp hm)
  · intro x hx
    obtain ⟨hxi, hxA⟩ := not_or.mp (List.mem_cons.not.mp hx)
    rw [h.typeLink, if_neg hxi, h.moduleLink, if_neg hxi]
    exact hd.free hxA

/-- Unless the inner type holds others and the outer one stands in a module, only the inner type
comes to stand in it. -/
theorem stands_cases (hlate : ¬ (Call.addNested outer inner).Late d) {k : Nat}
    {around : Option Nat} {x : Nat} (hx : d'.Stands k around x) :
    d.Stands k around x ∨ x = inner ∧ ∃ o, d.Stands k o outer := by
  induction hx with
  | top hx => exact Or.inl (.top ((h.top _ _).mp hx))
  | @nested _ o x _ hnests ih =>
      rcases (h.nests o x).mp hnests with hold | ⟨rfl, rfl⟩
      · rcases ih with ho | ⟨rfl, houter⟩
        · exact Or.inl (.nested ho hold)
        · exact absurd ⟨⟨k, houter⟩, x, hold⟩ hlate
      · rcases ih with ho | ⟨-, houter⟩
        · exact Or.inr ⟨rfl, _, ho⟩
        · exact Or.inr ⟨rfl, houter⟩

theorem whole_iff (hd : d.Tidy A M) (hfresh : inner ∉ A) :
    d'.Whole ↔ d.Whole ∧ ¬ (Call.addNested outer inner).Late d := by
  have hstands : ∀ {k around x}, d.Stands k around x → d'.Stands k around x := fun hx =>
    hx.mono (fun k x => (h.top k x).mpr) fun o x hox => (h.nests o x).mpr (Or.inl hox)
  have hne : ∀ {x}, x ∈ A → x ≠ inner := fun hx hsame => hfresh (hsame ▸ hx)
  constructor
  · intro hw
    refine ⟨?_, ?_⟩
    · intro k around x hx
      have hlink := hw k around x (hstands hx)
      rwa [h.moduleLink, if_neg (hne (hd.mem_of_stands hx))] at hlink
    · rintro ⟨⟨k, o, ho⟩, x, hx⟩
      have hinner : d'.Stands k (some outer) inner :=
        .nested (hstands ho) ((h.nests _ _).mpr (Or.inr ⟨rfl, rfl⟩))
      have hlink := hw k _ x (.nested hinner ((h.nests _ _).mpr (Or.inl hx)))
      rw [h.moduleLink, if_neg (hne (hd.nested hx).1), hd.moduleLink_of_free hfresh hx] at hlink
      cases hlink
  · rintro ⟨hw, hlate⟩ k around x hx
    rw [h.moduleLink]
    rcases h.stands_cases hlate hx with hold | ⟨rfl, o, ho⟩
    · rw [if_neg (hne (hd.mem_of_stands hold))]
      exact hw k around x hold
    · rw [if_pos rfl]
      exact hw k o outer ho

end Houses

namespace Adopts

variable {module type : Nat} (h : d.Adopts d' module type)
include h

theorem moduleLink_of_nests (hd : d.Tidy A M) (hfresh : type ∉ A) {o x : Nat}
    (hx : d.Nests o x) :
    d'.moduleLink x = some none ∨ d'.moduleLink x = d'.moduleLink o := by
  by_cases hbelow : ∃ n, d.Below type n o
  · obtain ⟨n, ho⟩ := hbelow
    right
    rw [h.below n o ho, h.below (n + 1) x (.step ho hx)]
  · have hapart : ∀ n, ¬ d.Below type n x := by
      intro n hn
      cases hn with
      | refl => exact hd.not_nests_of_free hfresh hx
      | @step n o' _ ho' hx' =>
          cases hd.nests_unique hx hx'
          exact hbelow ⟨n, ho'⟩
    rw [h.apart x hapart, h.apart o (not_exists.mp hbelow)]
    exact (hd.nested hx).2.2

theorem tidy (hd : d.Tidy A M) (hfresh : type ∉ A) : d'.Tidy (type :: A) M := by
  constructor
  · intro k x hx
    rw [h.typeLink]
    rcases (h.top k x).mp hx with hold | ⟨rfl, rfl⟩
    · obtain ⟨hmem, htype, hmodule⟩ := hd.top hold
      have hapart : ∀ n, ¬ d.Below type n x := fun n hn =>
        hd.not_stands_of_below hfresh hn (.top hold)
      rw [h.apart x hapart]
      exact ⟨List.mem_cons_of_mem _ hmem, htype, hmodule⟩
    · obtain ⟨link, hlink⟩ := h.made
      refine ⟨List.mem_cons_self, ?_, h.below 0 x .refl⟩
      cases link with
      | none => exact hlink
      | some o => exact absurd hlink ((hd.free hfresh).1 o)
  · intro o x hx
    have hold := (h.nests o x).mp hx
    obtain ⟨hmem, htype, -⟩ := hd.nested hold
    rw [h.typeLink]
    exact ⟨List.mem_cons_of_mem _ hmem, htype, h.moduleLink_of_nests hd hfresh hold⟩
  · intro x m hm
    rw [h.methodLink]
    exact hd.carried ((h.carries x m).mp hm)
  · intro x hx
    obtain ⟨hxt, hxA⟩ := not_or.mp (List.mem_cons.not.mp hx)
    -- A type below another one was attached, so this one is out of reach.
    have hapart : ∀ n, ¬ d.Below type n x := by
      intro n hn
      cases hn with
      | refl => exact hxt rfl
      | step _ hnests => exact hxA (hd.nested hnests).1
    rw [h.typeLink, h.apart x hapart]
    exact hd.free hxA

theorem stands_cases {k : Nat} {around : Option Nat} {x : Nat} (hx : d'.Stands k around x) :
    d.Stands k around x ∨ k = module ∧ ∃ n, d.Below type n x := by
  induction hx with
  | top hx =>
      rcases (h.top _ _).mp hx with hold | ⟨rfl, rfl⟩
      · exact Or.inl (.top hold)
      · exact Or.inr ⟨rfl, 0, .refl⟩
  | nested _ hnests ih =>
      have hold := (h.nests _ _).mp hnests
      rcases ih with ho | ⟨hk, n, ho⟩
      · exact Or.inl (.nested ho hold)
      · exact Or.inr ⟨hk, n + 1, .step ho hold⟩

theorem whole_iff (hd : d.Tidy A M) (hfresh : type ∉ A) : d'.Whole ↔ d.Whole := by
  have hapart : ∀ {k around x}, d.Stands k around x → d'.moduleLink x = d.moduleLink x :=
    fun hx => h.apart _ fun n hn => hd.not_stands_of_below hfresh hn hx
  constructor
  · intro hw k around x hx
    rw [← hapart hx]
    exact hw k around x
      (hx.mono (fun k x hkx => (h.top k x).mpr (Or.inl hkx)) fun o x => (h.nests o x).mpr)
  · intro hw k around x hx
    rcases h.stands_cases hx with hold | ⟨rfl, n, hn⟩
    · rw [hapart hold]
      exact hw k around x hold
    · exact h.below n x hn

end Adopts

/-! ## Runs -/

/-- **One call.** A call that attaches nothing for the second time keeps the links, and it keeps
the modules whole unless it is late. -/
theorem Call.step_tidy {c : Call} (hd : d.Tidy A M) (htypes : ∀ x ∈ c.types, x ∉ A)
    (hmethods : ∀ m ∈ c.methods, m ∉ M) (h : c.step d = some d') :
    d'.Tidy (c.types ++ A) (c.methods ++ M) ∧ (d'.Whole ↔ d.Whole ∧ ¬ c.Late d) := by
  have hmade : d.Extends d' → ¬ c.Late d → d'.Tidy A M ∧ (d'.Whole ↔ d.Whole ∧ ¬ c.Late d) :=
    fun hext hlate => ⟨hext.tidy hd, by rw [hext.whole_iff, and_iff_left hlate]⟩
  cases c with
  | newModule name =>
      cases h
      exact hmade (extends_newModule d name) not_false
  | newClass ns name generic =>
      cases h
      exact hmade (extends_newType d _) not_false
  | newStruct ns name generic =>
      cases h
      exact hmade (extends_newType d _) not_false
  | newMethod name attrs generic =>
      cases h
      exact hmade (extends_newMethod d _) not_false
  | newConstructor params =>
      cases h
      exact hmade (extends_newMethod d _) not_false
  | addType module type =>
      have hfresh : type ∉ A := htypes type (List.mem_singleton_self type)
      have hadopts := adopts_attach hd hfresh h
      refine ⟨hadopts.tidy hd hfresh, ?_⟩
      rw [hadopts.whole_iff hd hfresh]
      exact (and_iff_left not_false).symm
  | addNested outer inner =>
      have hfresh : inner ∉ A := htypes inner (List.mem_singleton_self inner)
      have hhouses := houses_addNested hd.settled h
      exact ⟨hhouses.tidy hd hfresh, hhouses.whole_iff hd hfresh⟩
  | addMethod type method =>
      have hfresh : method ∉ M := hmethods method (List.mem_singleton_self method)
      have hgains := gains_addMethod h
      refine ⟨hgains.tidy hd hfresh, ?_⟩
      rw [hgains.whole_iff]
      exact (and_iff_left not_false).symm

/-- **All calls.** The links are kept, and the modules are whole in the end exactly if they were
at the start and no call was late. -/
theorem run_tidy {calls : List Call} (hd : d.Tidy A M)
    (htypes : (calls.flatMap Call.types).Nodup) (hmethods : (calls.flatMap Call.methods).Nodup)
    (hA : ∀ x ∈ calls.flatMap Call.types, x ∉ A) (hM : ∀ m ∈ calls.flatMap Call.methods, m ∉ M)
    (h : run d calls = some d') :
    (∃ B N, d'.Tidy B N) ∧ (d'.Whole ↔ d.Whole ∧ OuterFirst d calls) := by
  induction calls generalizing d A M with
  | nil =>
      cases h
      exact ⟨⟨A, M, hd⟩, (and_iff_left trivial).symm⟩
  | cons c calls ih =>
      rw [run, List.foldlM_cons] at h
      obtain ⟨e, he, h⟩ := Option.bind_eq_some_iff.mp h
      rw [List.flatMap_cons] at htypes hmethods hA hM
      obtain ⟨-, htypes, hdisjoint⟩ := List.nodup_append.mp htypes
      obtain ⟨-, hmethods, hdisjoint'⟩ := List.nodup_append.mp hmethods
      obtain ⟨htidy, hstep⟩ := Call.step_tidy hd
        (fun x hx => hA x (List.mem_append_left _ hx))
        (fun m hm => hM m (List.mem_append_left _ hm)) he
      have hA' : ∀ x ∈ calls.flatMap Call.types, x ∉ c.types ++ A := by
        intro x hx hmem
        rcases List.mem_append.mp hmem with hc | hc
        · exact hdisjoint x hc x hx rfl
        · exact hA x (List.mem_append_right _ hx) hc
      have hM' : ∀ m ∈ calls.flatMap Call.methods, m ∉ c.methods ++ M := by
        intro m hm hmem
        rcases List.mem_append.mp hmem with hc | hc
        · exact hdisjoint' m hc m hm rfl
        · exact hM m (List.mem_append_right _ hm) hc
      obtain ⟨hend, hwhole⟩ := ih htidy htypes hmethods hA' hM' h
      exact ⟨hend, by rw [hwhole, hstep, outerFirst_cons he, and_assoc]⟩

theorem tidy_empty : ({} : Draft).Tidy [] [] := by
  constructor
  · rintro k x ⟨m, hm, -⟩
    simp at hm
  · rintro o x ⟨t, ht, -⟩
    simp at ht
  · rintro x m ⟨t, ht, -⟩
    simp at ht
  · intro x _
    simp [typeLink, moduleLink]

theorem whole_empty : ({} : Draft).Whole := by
  intro k outer x hx
  exact absurd (tidy_empty.mem_of_stands hx) List.not_mem_nil

/-! ## Definitions -/

/-- On the way up from a type in a module, the bound on the length of the chain is not met. -/
theorem Tidy.fullNameWith_stable (h : d.Tidy A M) {k r n x : Nat} (hr : d.Top k r)
    (hx : d.Below r n x) {f g : Nat} (hf : n < f) (hg : n < g) :
    fullNameWith f d x = fullNameWith g d x := by
  induction hx generalizing f g with
  | refl =>
      obtain ⟨t, ht, hlink⟩ := Option.map_eq_some_iff.mp (h.top hr).2.1
      cases f with
      | zero => exact absurd hf (Nat.not_lt_zero 0)
      | succ f =>
          cases g with
          | zero => exact absurd hg (Nat.not_lt_zero 0)
          | succ g => simp only [fullNameWith, ht, hlink, Option.map_none]
  | @step n o x _ hnests ih =>
      obtain ⟨t, ht, hlink⟩ := Option.map_eq_some_iff.mp (h.nested hnests).2.1
      cases f with
      | zero => exact absurd hf (Nat.not_lt_zero _)
      | succ f =>
          cases g with
          | zero => exact absurd hg (Nat.not_lt_zero _)
          | succ g =>
              have hsame := ih (Nat.lt_of_succ_lt_succ hf) (Nat.lt_of_succ_lt_succ hg)
              simp only [fullNameWith, ht, hlink, Option.map_some, hsame]

/-- The full name of a type in a module is made of its own name and that of the type around it. -/
theorem Tidy.fullName_of_stands (h : d.Tidy A M) {k x : Nat} {outer : Option Nat} {t : DraftType}
    (hx : d.Stands k outer x) (ht : d.types[x]? = some t) :
    d.fullName x = t.head.fullNameIn (outer.map d.fullName) := by
  have hlink : t.declaring = outer := by
    simpa [typeLink, ht] using h.typeLink_of_stands hx
  rw [fullName, fullNameWith, ht]
  dsimp only
  rw [hlink]
  cases hx with
  | top _ => rfl
  | @nested _ o _ ho _ =>
      obtain ⟨r, n, hr, hbelow⟩ := ho.exists_top
      have hlen : n < d.types.length := h.depth_lt (fun _ => h.not_nests_of_top hr)
        (lt_length_of_link (h.top hr).2.1) hbelow
      rw [Option.map_some, Option.map_some, fullName,
        h.fullNameWith_stable hr hbelow hlen (Nat.lt_succ_of_lt hlen)]

/-- The definition that the place of a type in a module gives. -/
def placed (d : Draft) (module : Text) (outer : Option Nat) (t : DraftType) : Definition :=
  let head := d.storedHead t
  let fullName := head.fullNameIn (outer.map d.fullName)
  { head, fullName, declaring := outer.map d.fullName, moduleName := some module,
    members := head.methods.filterMap fun m =>
      m.map fun method => { method, owner := some { fullName, generic := head.generic } } }

/-- A type that remembers the module it stands in has the definition that its place gives. -/
theorem Tidy.definitionIn?_of_stands (h : d.Tidy A M) {k x : Nat} {outer : Option Nat}
    {t : DraftType} {m : DraftModule} (hm : d.modules[k]? = some m) (hx : d.Stands k outer x)
    (ht : d.types[x]? = some t) (hlink : d.moduleLink x = some (some k)) :
    d.definitionIn? (some k) x = some (d.placed m.name outer t) := by
  have hname := h.fullName_of_stands hx ht
  have hdeclaring : t.declaring = outer := by
    simpa [typeLink, ht] using h.typeLink_of_stands hx
  have hmodule : t.module = some k := by simpa [moduleLink, ht] using hlink
  have howner : d.owner x = { fullName := d.fullName x, generic := t.head.generic } := by
    simp [owner, ht]
  have hmembers : (t.methods.filterMap fun j => (d.methods[j]?).map fun f =>
        ({ method := f.method, owner := f.declaring.map d.owner,
           linked := f.declaring == some x } : Member)) =
      (d.storedHead t).methods.filterMap fun o => o.map fun method =>
        ({ method, owner := some (d.owner x) } : Member) := by
    rw [storedHead, List.filterMap_map]
    apply List.filterMap_congr
    intro j hj
    obtain ⟨f, hf, hflink⟩ := Option.map_eq_some_iff.mp (h.carried ⟨t, ht, hj⟩).2
    simp [hf, hflink]
  rw [definitionIn?, ht, Option.map_some, hmembers, howner, hname, hdeclaring, hmodule]
  simp [placed, hm, storedHead, TypeHead.fullNameIn]

/-- The definitions below a type are those of the tree that would be stored. -/
theorem Tidy.filterMap_preorder (h : d.Tidy A M) (hw : d.Whole) {k : Nat} {m : DraftModule}
    (hm : d.modules[k]? = some m) (fuel : Nat) {x : Nat} {outer : Option Nat}
    (hx : d.Stands k outer x) :
    ((preorder fuel d x).filterMap fun y =>
      (d.definitionIn? (some k) y).filter fun e => e.head.name ≠ placeholderName) =
      (tree fuel d x).definitions m.name (outer.map d.fullName) := by
  induction fuel generalizing x outer with
  | zero => rfl
  | succ fuel ih =>
      obtain ⟨t, ht, -⟩ := Option.map_eq_some_iff.mp (h.typeLink_of_stands hx)
      have hhere := h.definitionIn?_of_stands hm hx ht (hw k outer x hx)
      have hname : (d.storedHead t).fullNameIn (outer.map d.fullName) = d.fullName x :=
        (h.fullName_of_stands hx ht).symm
      have hinner : ((t.nested.flatMap (preorder fuel d)).filterMap fun y =>
            (d.definitionIn? (some k) y).filter fun e => e.head.name ≠ placeholderName) =
          TypeDef.definitionsOf m.name (some (d.fullName x)) (t.nested.map (tree fuel d)) := by
        rw [TypeDef.definitionsOf_eq_flatMap, List.flatMap_map, List.filterMap_flatMap]
        apply List.flatMap_congr
        intro y hy
        exact ih (.nested hx ⟨t, ht, hy⟩)
      rw [preorder, ht, Option.map_some, Option.getD_some, List.filterMap_cons, hinner, hhere,
        tree, ht]
      dsimp only
      rw [TypeDef.definitions, hname]
      by_cases hplace : (d.storedHead t).name = placeholderName
      · simp [Option.filter, placed, hplace]
      · simp [Option.filter, placed, hplace, hname]

/-- The definitions of a whole module are those of the module that would be stored. -/
theorem Tidy.definitionsIn_eq (h : d.Tidy A M) (hw : d.Whole) {k : Nat} {m : Module}
    (hm : d.storedIn? k = some m) : d.definitionsIn k = m.definitions := by
  obtain ⟨dm, hdm, rfl⟩ := Option.map_eq_some_iff.mp hm
  have hplaceholder : TypeDef.definitions dm.name none (.node { name := placeholderName } []) =
      [] := by
    rw [TypeDef.definitions, if_pos rfl, TypeDef.definitionsOf]
  rw [definitionsIn, hdm, Option.map_some, Option.getD_some, Module.definitions,
    TypeDef.definitionsOf_eq_flatMap, Module.new, Module.types, Option.getD_some,
    List.flatMap_cons, hplaceholder, List.nil_append, List.flatMap_map]
  apply List.flatMap_congr
  intro x hx
  exact h.filterMap_preorder hw hdm _ (.top ⟨dm, hdm, hx⟩)

/-! ## Heads -/

theorem map_head_modify (types : List DraftType) (i : Nat) (f : DraftType → DraftType)
    (hf : ∀ t, (f t).head = t.head) :
    (types.modify i f).map (·.head) = types.map (·.head) := by
  apply List.ext_getElem?
  intro j
  rw [List.getElem?_map, List.getElem?_map, getElem?_modify_eq_map, Option.map_map]
  congr 1
  funext t
  by_cases hj : j = i <;> simp [hj, hf]

theorem map_head_link (fuel : Nat) (d : Draft) (k : Nat) (outer : Option Nat) (x : Nat) :
    (link fuel d k outer x).types.map (·.head) = d.types.map (·.head) := by
  induction fuel generalizing d outer x with
  | zero => rfl
  | succ fuel ih =>
      rw [link]
      cases ht : d.types[x]? with
      | none => rfl
      | some t =>
          have hnested : ∀ (ns : List Nat) (e : Draft),
              (ns.foldl (fun d n => link fuel d k (some x) n) e).types.map (·.head) =
                e.types.map (·.head) := by
            intro ns
            induction ns with
            | nil => exact fun e => rfl
            | cons n ns ihns =>
                intro e
                rw [List.foldl_cons, ihns, ih]
          dsimp only
          rw [hnested]
          exact map_head_modify d.types x _ fun _ => rfl

/-- The heads of the types are those that the calls made, without marks of empty lists. -/
def Unmarked (d : Draft) : Prop := ∀ head ∈ d.types.map (·.head), head.empties = {}

theorem Call.step_unmarked {c : Call} (hd : d.Unmarked) (h : c.step d = some d') :
    d'.Unmarked := by
  have hmade : ∀ head : TypeHead, head.empties = {} → (d.newType head).Unmarked := by
    intro head hhead
    rw [Unmarked, newType, List.map_append]
    intro g hg
    rcases List.mem_append.mp hg with hg | hg
    · exact hd g hg
    · rw [List.mem_singleton.mp hg]
      exact hhead
  have hsame : d'.types.map (·.head) = d.types.map (·.head) → d'.Unmarked := by
    intro hheads
    rwa [Unmarked, hheads]
  cases c with
  | newModule name =>
      cases h
      exact hd
  | newClass ns name generic =>
      cases h
      exact hmade _ rfl
  | newStruct ns name generic =>
      cases h
      exact hmade _ rfl
  | newMethod name attrs generic =>
      cases h
      exact hd
  | newConstructor params =>
      cases h
      exact hd
  | addType module type =>
      obtain ⟨_, -, h⟩ := Option.bind_eq_some_iff.mp h
      obtain ⟨_, -, h⟩ := Option.bind_eq_some_iff.mp h
      cases h
      exact hsame (map_head_link _ _ _ _ _)
  | addNested outer inner =>
      obtain ⟨_, -, h⟩ := Option.bind_eq_some_iff.mp h
      obtain ⟨_, -, h⟩ := Option.bind_eq_some_iff.mp h
      cases h
      refine hsame ((map_head_modify _ outer _ ?_).trans (map_head_modify _ inner _ ?_)) <;>
        exact fun _ => rfl
  | addMethod type method =>
      obtain ⟨_, -, h⟩ := Option.bind_eq_some_iff.mp h
      obtain ⟨_, -, h⟩ := Option.bind_eq_some_iff.mp h
      cases h
      exact hsame (map_head_modify _ type _ fun _ => rfl)

theorem run_unmarked {calls : List Call} (hd : d.Unmarked) (h : run d calls = some d') :
    d'.Unmarked := by
  induction calls generalizing d with
  | nil =>
      cases h
      exact hd
  | cons c calls ih =>
      rw [run, List.foldlM_cons] at h
      obtain ⟨e, he, h⟩ := Option.bind_eq_some_iff.mp h
      exact ih (Call.step_unmarked hd he) h

theorem Unmarked.definitionsIn (h : d.Unmarked) (k : Nat) :
    (d.definitionsIn k).map Definition.unmarked = d.definitionsIn k := by
  have hplain : ∀ e ∈ d.definitionsIn k, e.unmarked = id e := by
    intro e he
    obtain ⟨x, -, he⟩ := List.mem_flatMap.mp he
    obtain ⟨y, -, he⟩ := List.mem_filterMap.mp he
    obtain ⟨t, ht, rfl⟩ := Option.map_eq_some_iff.mp (Option.filter_eq_some_iff.mp he).1
    have hempties : t.head.empties = {} :=
      h t.head (List.mem_map.mpr ⟨t, List.mem_of_getElem? ht, rfl⟩)
    simp [Definition.unmarked, TypeHead.unmarked, storedHead, hempties]
  rw [List.map_congr_left hplain, List.map_id]

/-- The file of a module whose definitions have the links of their places gives them back. -/
theorem Unmarked.read_back (h : d.Unmarked) {k : Nat} {m : Module}
    (heq : d.definitionsIn k = m.definitions) (hn : m.Narrow) {bytes : List UInt8}
    (hbytes : m.encode = .ok bytes) :
    ∃ n, Module.decode bytes = .ok n ∧ n.definitions = d.definitionsIn k := by
  unfold Module.encode at hbytes
  split at hbytes
  · cases hbytes
  · rename_i hfault
    cases hbytes
    refine ⟨m.unmarked, Module.decode_fileBytes hfault hn, ?_⟩
    rw [Module.unmarked_definitions, ← heq, h.definitionsIn k]

/-! ## Result -/

/-- **Links of assembled modules.** Assemble modules by calls that attach no part twice.

Every type in a module remembers the type around it, its methods remember it, and it remembers the
module or none. All types in modules remember their module exactly if no type was attached late. In
that case the definitions of a module are those that its stored form has by its nesting, and those
that are read back from its file. -/
theorem links_iff_outerFirst {calls : List Call} (hrun : run {} calls = some d)
    (honce : Once calls) :
    (∀ k outer x, d.Stands k outer x → d.typeLink x = some outer ∧
      (d.moduleLink x = some (some k) ∨ d.moduleLink x = some none) ∧
      ∀ m, d.Carries x m → d.methodLink m = some (some x)) ∧
    (d.Whole ↔ OuterFirst {} calls) ∧
    (OuterFirst {} calls → ∀ k m, d.storedIn? k = some m → d.definitionsIn k = m.definitions ∧
      ∀ bytes, m.encode = .ok bytes → m.Narrow →
        ∃ n, Module.decode bytes = .ok n ∧ n.definitions = d.definitionsIn k) := by
  obtain ⟨⟨A, M, htidy⟩, hwhole⟩ := run_tidy tidy_empty honce.1 honce.2
    (fun _ _ => List.not_mem_nil) (fun _ _ => List.not_mem_nil) hrun
  rw [and_iff_right whole_empty] at hwhole
  refine ⟨?_, hwhole, ?_⟩
  · intro k outer x hx
    exact ⟨htidy.typeLink_of_stands hx, htidy.moduleLink_of_stands hx,
      fun m hm => (htidy.carried hm).2⟩
  · intro hfirst k m hm
    have heq := htidy.definitionsIn_eq (hwhole.mpr hfirst) hm
    have hunmarked : d.Unmarked := run_unmarked (by simp [Unmarked]) hrun
    exact ⟨heq, fun bytes hbytes hnarrow => hunmarked.read_back heq hnarrow hbytes⟩

/-- A type that holds nothing is not attached late. -/
theorem not_late_of_empty {outer inner : Nat} (h : (d.types[inner]?).map (·.nested) = some []) :
    ¬ (Call.addNested outer inner).Late d := by
  rintro ⟨-, x, t, ht, hx⟩
  rw [ht, Option.map_some, Option.some.injEq] at h
  rw [h] at hx
  cases hx

/-- Nothing is attached late as long as nothing is in a module. -/
theorem not_late_of_unlisted {outer inner : Nat} (h : ∀ m ∈ d.modules, m.types = []) :
    ¬ (Call.addNested outer inner).Late d := by
  rintro ⟨⟨k, o, houter⟩, -⟩
  obtain ⟨r, n, ⟨m, hm, hr⟩, -⟩ := houter.exists_top
  rw [h m (List.mem_of_getElem? hm)] at hr
  cases hr

/-- A nest of two is attached to a third type, that one to a module, and then a fourth type to the
innermost. -/
def mixed : List Call :=
  [.newModule "M", .newClass "N" "A" [], .newClass [] "B" ["T"], .newStruct [] "C" [],
    .newClass [] "D" [], .newMethod "Run" 0 [], .addNested 1 2, .addMethod 2 0, .addNested 0 1,
    .addType 0 0, .addNested 2 3]

theorem outerFirst_mixed : OuterFirst {} mixed := by
  iterate 6 refine (outerFirst_cons rfl).mpr ⟨not_false, ?_⟩
  refine (outerFirst_cons rfl).mpr ⟨not_late_of_empty (by decide), ?_⟩
  refine (outerFirst_cons rfl).mpr ⟨not_false, ?_⟩
  -- The nest is attached before the type that takes it is in a module.
  refine (outerFirst_cons rfl).mpr ⟨not_late_of_unlisted (by decide), ?_⟩
  refine (outerFirst_cons rfl).mpr ⟨not_false, ?_⟩
  exact (outerFirst_cons rfl).mpr ⟨not_late_of_empty (by decide), trivial⟩

/-- The types of that nest and the fourth type all remember the module. -/
theorem links_mixed : Once mixed ∧ OuterFirst {} mixed ∧
    ∃ d, run {} mixed = some d ∧ d.Stands 0 (some 2) 3 ∧ d.Whole := by
  have honce : Once mixed := by decide
  refine ⟨honce, outerFirst_mixed, _, rfl, ?_, ?_⟩
  · exact .nested (.nested (.nested (.top ⟨_, rfl, List.mem_singleton_self 0⟩)
      ⟨_, rfl, List.mem_singleton_self 1⟩) ⟨_, rfl, List.mem_singleton_self 2⟩)
      ⟨_, rfl, List.mem_singleton_self 3⟩
  · exact (links_iff_outerFirst rfl honce).2.1.mpr outerFirst_mixed

/-- A type that holds another one is attached to a type in a module. -/
def late : List Call :=
  [.newModule "M", .newClass [] "A" [], .newClass [] "B" [], .newClass [] "C" [], .addType 0 0,
    .addNested 1 2, .addNested 0 1]

/-- The innermost type remembers no module, and reading the stored module would give it one. -/
theorem late_unlinked : Once late ∧ ∃ d, run {} late = some d ∧ d.Stands 0 (some 1) 2 ∧
    d.moduleLink 2 = some none ∧
    (d.definitionsIn 0).map Definition.moduleName = [some ("M" : Text), some ("M" : Text), none] ∧
    (d.storedIn? 0).map (fun m => m.definitions.map Definition.moduleName) =
      some [some ("M" : Text), some ("M" : Text), some ("M" : Text)] := by
  refine ⟨by decide, _, rfl, ?_, by decide, by decide, by decide⟩
  exact .nested (.nested (.top ⟨_, rfl, List.mem_singleton_self 0⟩)
    ⟨_, rfl, List.mem_singleton_self 1⟩) ⟨_, rfl, List.mem_singleton_self 2⟩

end Draft

end Monomorph
