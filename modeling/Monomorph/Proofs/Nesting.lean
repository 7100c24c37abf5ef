import Mathlib.Data.Fintype.Card
import Monomorph.Draft

/-!
# Types under construction

A draft is looked at through what stands in what (`Top`, `Nests`, `Carries`) and through the links
that its parts remember (`typeLink`, `moduleLink`, `methodLink`). Each way of changing a draft is
described once, in these terms.

Attaching a type to a module goes down through everything nested in it, with a bound on the depth.
As long as the links of a draft are those of its nesting (`Tidy`), what hangs below a type that is
nested nowhere is a tree, its depth is less than the number of types (`Below.depth_lt`), and so
nothing is left out (`mem_preorder_iff`).
-/

namespace Monomorph

namespace Draft

variable {d d' : Draft}

/-- The module lists the type. -/
def Top (d : Draft) (module type : Nat) : Prop :=
  ∃ m, d.modules[module]? = some m ∧ type ∈ m.types

/-- The outer type lists the inner one. -/
def Nests (d : Draft) (outer inner : Nat) : Prop :=
  ∃ t, d.types[outer]? = some t ∧ inner ∈ t.nested

/-- The type lists the method. -/
def Carries (d : Draft) (type method : Nat) : Prop :=
  ∃ t, d.types[type]? = some t ∧ method ∈ t.methods

/-- The enclosing type that a type remembers, if there is such a type. -/
def typeLink (d : Draft) (type : Nat) : Option (Option Nat) :=
  (d.types[type]?).map (·.declaring)

/-- The module that a type remembers, if there is such a type. -/
def moduleLink (d : Draft) (type : Nat) : Option (Option Nat) := (d.types[type]?).map (·.module)

/-- The type that a method remembers, if there is such a method. -/
def methodLink (d : Draft) (method : Nat) : Option (Option Nat) :=
  (d.methods[method]?).map (·.declaring)

/-- The type stands somewhere in the module, and this is the type around it. -/
inductive Stands (d : Draft) (module : Nat) : Option Nat → Nat → Prop
  | top {x : Nat} (h : d.Top module x) : Stands d module none x
  | nested {outer : Option Nat} {o x : Nat} (ho : Stands d module outer o) (h : d.Nests o x) :
      Stands d module (some o) x

/-- The second type hangs so many steps of nesting below the first. -/
inductive Below (d : Draft) (x : Nat) : Nat → Nat → Prop
  | refl : Below d x 0 x
  | step {n o y : Nat} (ho : Below d x n o) (h : d.Nests o y) : Below d x (n + 1) y

/-- The links are those of the nesting, and what was not attached has none. The lists hold the
types and the methods that were attached. -/
structure Tidy (d : Draft) (types methods : List Nat) : Prop where
  top : ∀ {k x}, d.Top k x → x ∈ types ∧ d.typeLink x = some none ∧ d.moduleLink x = some (some k)
  nested : ∀ {o x}, d.Nests o x → x ∈ types ∧ d.typeLink x = some (some o) ∧
    (d.moduleLink x = some none ∨ d.moduleLink x = d.moduleLink o)
  carried : ∀ {x m}, d.Carries x m → m ∈ methods ∧ d.methodLink m = some (some x)
  free : ∀ {x}, x ∉ types → (∀ o, d.typeLink x ≠ some (some o)) ∧
    ∀ k, d.moduleLink x ≠ some (some k)

/-! ## Going down -/

namespace Below

theorem cons {x z n y : Nat} (hz : d.Nests x z) (h : d.Below z n y) : d.Below x (n + 1) y := by
  induction h with
  | refl => exact .step .refl hz
  | step _ hy ih => exact .step ih hy

theorem uncons {x n y : Nat} (h : d.Below x (n + 1) y) : ∃ z, d.Nests x z ∧ d.Below z n y := by
  induction n generalizing y with
  | zero =>
      cases h with
      | step ho hy =>
          cases ho
          exact ⟨y, hy, .refl⟩
  | succ n ih =>
      cases h with
      | step ho hy =>
          obtain ⟨z, hz, hbelow⟩ := ih ho
          exact ⟨z, hz, .step hbelow hy⟩

theorem prefixes {x n y : Nat} (h : d.Below x n y) : ∀ j ≤ n, ∃ z, d.Below x j z := by
  induction h with
  | refl =>
      intro j hj
      cases Nat.le_zero.mp hj
      exact ⟨x, .refl⟩
  | @step n o y ho hy ih =>
      intro j hj
      rcases Nat.le_succ_iff.mp hj with hj | rfl
      · exact ih j hj
      · exact ⟨y, .step ho hy⟩

end Below

theorem Stands.exists_top {k : Nat} {outer : Option Nat} {x : Nat} (h : d.Stands k outer x) :
    ∃ r n, d.Top k r ∧ d.Below r n x := by
  induction h with
  | @top x h => exact ⟨x, 0, h, .refl⟩
  | nested _ hx ih =>
      obtain ⟨r, n, hr, hbelow⟩ := ih
      exact ⟨r, n + 1, hr, .step hbelow hx⟩

theorem mem_preorder_succ {fuel x y : Nat} : y ∈ preorder (fuel + 1) d x ↔
    y = x ∨ ∃ z, d.Nests x z ∧ y ∈ preorder fuel d z := by
  rw [preorder, List.mem_cons, List.mem_flatMap]
  unfold Nests
  cases d.types[x]? with
  | none => simp
  | some t => simp

theorem mem_preorder_iff_lt {fuel x y : Nat} :
    y ∈ preorder fuel d x ↔ ∃ n < fuel, d.Below x n y := by
  induction fuel generalizing x with
  | zero => simp [preorder]
  | succ fuel ih =>
      rw [mem_preorder_succ]
      constructor
      · rintro (rfl | ⟨z, hz, hy⟩)
        · exact ⟨0, Nat.succ_pos fuel, .refl⟩
        · obtain ⟨n, hn, hbelow⟩ := ih.mp hy
          exact ⟨n + 1, Nat.succ_lt_succ hn, .cons hz hbelow⟩
      · rintro ⟨n, hn, hbelow⟩
        cases n with
        | zero =>
            cases hbelow
            exact Or.inl rfl
        | succ n =>
            obtain ⟨z, hz, hbelow⟩ := hbelow.uncons
            exact Or.inr ⟨z, hz, ih.mpr ⟨n, Nat.lt_of_succ_lt_succ hn, hbelow⟩⟩

/-! ## Trees -/

theorem lt_length_of_link {x : Nat} {link : Option Nat} (h : d.typeLink x = some link) :
    x < d.types.length := by
  obtain ⟨t, ht, -⟩ := Option.map_eq_some_iff.mp h
  exact (List.getElem?_eq_some_iff.mp ht).1

namespace Tidy

variable {A M : List Nat} (h : d.Tidy A M)
include h

/-- A type is nested in one type at most. -/
theorem nests_unique {o o' x : Nat} (ho : d.Nests o x) (ho' : d.Nests o' x) : o = o' := by
  have hlink := (h.nested ho).2.1
  rw [(h.nested ho').2.1] at hlink
  exact (Option.some.inj (Option.some.inj hlink)).symm

theorem not_nests_of_top {k o x : Nat} (hx : d.Top k x) : ¬ d.Nests o x := by
  intro ho
  have hlink := (h.top hx).2.1
  rw [(h.nested ho).2.1] at hlink
  cases hlink

theorem not_nests_of_free {o x : Nat} (hx : x ∉ A) : ¬ d.Nests o x :=
  fun ho => hx (h.nested ho).1

theorem mem_of_stands {k : Nat} {outer : Option Nat} {x : Nat} (hx : d.Stands k outer x) :
    x ∈ A := by
  cases hx with
  | top hx => exact (h.top hx).1
  | nested _ hx => exact (h.nested hx).1

theorem typeLink_of_stands {k : Nat} {outer : Option Nat} {x : Nat} (hx : d.Stands k outer x) :
    d.typeLink x = some outer := by
  cases hx with
  | top hx => exact (h.top hx).2.1
  | nested _ hx => exact (h.nested hx).2.1

/-- A type that stands in a module remembers this module or none. -/
theorem moduleLink_of_stands {k : Nat} {outer : Option Nat} {x : Nat}
    (hx : d.Stands k outer x) : d.moduleLink x = some (some k) ∨ d.moduleLink x = some none := by
  induction hx with
  | top hx => exact Or.inl (h.top hx).2.2
  | nested _ hx ih =>
      rcases (h.nested hx).2.2 with hnone | hsame
      · exact Or.inr hnone
      · rwa [hsame]

/-- Below a type that is nested nowhere, a type has one depth. -/
theorem below_unique {r n n' y : Nat} (hr : ∀ o, ¬ d.Nests o r) (hy : d.Below r n y)
    (hy' : d.Below r n' y) : n = n' := by
  induction hy generalizing n' with
  | refl =>
      cases hy' with
      | refl => rfl
      | step _ hnests => exact absurd hnests (hr _)
  | @step n o y _ hnests ih =>
      cases hy' with
      | refl => exact absurd hnests (hr _)
      | @step n' o' _ ho' hnests' =>
          cases h.nests_unique hnests hnests'
          rw [ih ho']

theorem below_exists {r n y : Nat} (hr : r < d.types.length) (hy : d.Below r n y) :
    y < d.types.length := by
  cases hy with
  | refl => exact hr
  | step _ hnests => exact lt_length_of_link (h.nested hnests).2.1

/-- The types on the way down are all different, so there are fewer steps than types. -/
theorem depth_lt {r n y : Nat} (hr : ∀ o, ¬ d.Nests o r) (hlt : r < d.types.length)
    (hy : d.Below r n y) : n < d.types.length := by
  choose z hz using fun j : Fin (n + 1) => hy.prefixes j (Nat.le_of_lt_succ j.isLt)
  have hinj : Function.Injective
      fun j => (⟨z j, h.below_exists hlt (hz j)⟩ : Fin d.types.length) := by
    intro i j hij
    have hsame : z i = z j := congrArg Fin.val hij
    exact Fin.ext (h.below_unique hr (hz i) (hsame ▸ hz j))
  have hcard := Fintype.card_le_of_injective _ hinj
  rw [Fintype.card_fin, Fintype.card_fin] at hcard
  exact hcard

/-- The bound on the depth leaves nothing out below a type that is nested nowhere. -/
theorem mem_preorder_iff {r y : Nat} (hr : ∀ o, ¬ d.Nests o r) (hlt : r < d.types.length) :
    y ∈ preorder (d.types.length + 1) d r ↔ ∃ n, d.Below r n y := by
  rw [mem_preorder_iff_lt]
  constructor
  · rintro ⟨n, -, hy⟩
    exact ⟨n, hy⟩
  · rintro ⟨n, hy⟩
    exact ⟨n, Nat.lt_succ_of_lt (h.depth_lt hr hlt hy), hy⟩

/-- What hangs below a type that was not attached stands in no module. -/
theorem not_stands_of_below {k r n y : Nat} {outer : Option Nat} (hr : r ∉ A)
    (hy : d.Below r n y) : ¬ d.Stands k outer y := by
  induction hy generalizing outer with
  | refl => exact fun hstands => hr (h.mem_of_stands hstands)
  | step _ hnests ih =>
      intro hstands
      cases hstands with
      | top htop => exact h.not_nests_of_top htop hnests
      | nested ho hnests' =>
          cases h.nests_unique hnests hnests'
          exact ih ho

end Tidy

/-! ## Setting links -/

theorem getElem?_modify_eq_map {α : Type} (f : α → α) (l : List α) (i j : Nat) :
    (l.modify i f)[j]? = (l[j]?).map fun a => if j = i then f a else a := by
  rw [List.getElem?_modify]
  by_cases hij : j = i
  · simp [hij]
  · simp [hij, Ne.symm hij]

/-- Lets all the types of a list remember a module. -/
def mark (d : Draft) (module : Nat) (types : List Nat) : Draft :=
  { d with
    types := d.types.mapIdx fun x t => if x ∈ types then { t with module := some module } else t }

theorem types_mark (d : Draft) (k x : Nat) (S : List Nat) : (d.mark k S).types[x]? =
    (d.types[x]?).map fun t => if x ∈ S then { t with module := some k } else t := by
  rw [mark, List.getElem?_mapIdx]

theorem mark_mark (d : Draft) (k : Nat) (S T : List Nat) :
    (d.mark k S).mark k T = d.mark k (S ++ T) := by
  have htypes : ((d.mark k S).mark k T).types = (d.mark k (S ++ T)).types := by
    apply List.ext_getElem?
    intro x
    simp only [types_mark, Option.map_map]
    congr 1
    funext t
    by_cases hS : x ∈ S <;> by_cases hT : x ∈ T <;> simp [hS, hT]
  exact congrArg (fun types => { d with types }) htypes

theorem mark_eq_self {k : Nat} {S : List Nat} (h : ∀ x ∈ S, d.types[x]? = none) :
    d.mark k S = d := by
  have htypes : (d.mark k S).types = d.types := by
    apply List.ext_getElem?
    intro x
    rw [types_mark]
    by_cases hx : x ∈ S
    · rw [h x hx, Option.map_none]
    · simp [hx]
  exact congrArg (fun types => { d with types }) htypes

/-- The order of the types depends on their nesting alone. -/
theorem preorder_congr {e : Draft}
    (h : ∀ x : Nat, (d.types[x]?).map (·.nested) = (e.types[x]?).map (·.nested)) {fuel x : Nat} :
    preorder fuel d x = preorder fuel e x := by
  induction fuel generalizing x with
  | zero => rfl
  | succ fuel ih =>
      have hinner : preorder fuel d = preorder fuel e := funext fun _ => ih
      rw [preorder, preorder, h, hinner]

theorem preorder_mark (d : Draft) (k : Nat) (S : List Nat) (fuel x : Nat) :
    preorder fuel (d.mark k S) x = preorder fuel d x := by
  apply preorder_congr
  intro x
  rw [types_mark, Option.map_map]
  congr 1
  funext t
  by_cases hx : x ∈ S <;> simp [hx]

theorem modify_eq_self {α : Type} {f : α → α} {l : List α} {i : Nat}
    (h : ∀ a, l[i]? = some a → f a = a) : l.modify i f = l := by
  apply List.ext_getElem?
  intro j
  rw [getElem?_modify_eq_map]
  cases hj : l[j]? with
  | none => rfl
  | some a =>
      by_cases hij : j = i
      · subst hij
        simp [h a hj]
      · simp [hij]

/-- Methods that remember their type are not changed by linking them to it. -/
theorem linkMethods_eq_self {ms : List Nat} {x : Nat}
    (h : ∀ m ∈ ms, d.methodLink m = some (some x)) : d.linkMethods ms x = d := by
  have hmethods : ms.foldl
      (fun fs m => fs.modify m fun f => { f with declaring := some x }) d.methods = d.methods := by
    induction ms with
    | nil => rfl
    | cons m ms ih =>
        obtain ⟨hm, hms⟩ := List.forall_mem_cons.mp h
        rw [List.foldl_cons, modify_eq_self, ih hms]
        intro f hf
        have hlink : f.declaring = some x := by simpa [methodLink, hf] using hm
        rw [← hlink]
  rw [linkMethods, hmethods]

/-- Types and methods remember what they are nested in, whatever module they remember. -/
def Settled (d : Draft) : Prop :=
  (∀ o x, d.Nests o x → d.typeLink x = some (some o)) ∧
    ∀ x m, d.Carries x m → d.methodLink m = some (some x)

theorem Tidy.settled {A M : List Nat} (h : d.Tidy A M) : d.Settled :=
  ⟨fun _ _ hx => (h.nested hx).2.1, fun _ _ hm => (h.carried hm).2⟩

theorem nests_mark {k : Nat} {S : List Nat} {o x : Nat} :
    (d.mark k S).Nests o x ↔ d.Nests o x := by
  unfold Nests
  rw [types_mark]
  cases d.types[o]? with
  | none => simp
  | some t => by_cases ho : o ∈ S <;> simp [ho]

theorem carries_mark {k : Nat} {S : List Nat} {x m : Nat} :
    (d.mark k S).Carries x m ↔ d.Carries x m := by
  unfold Carries
  rw [types_mark]
  cases d.types[x]? with
  | none => simp
  | some t => by_cases hx : x ∈ S <;> simp [hx]

theorem typeLink_mark {k : Nat} {S : List Nat} {x : Nat} :
    (d.mark k S).typeLink x = d.typeLink x := by
  unfold typeLink
  rw [types_mark]
  cases d.types[x]? with
  | none => rfl
  | some t => by_cases hx : x ∈ S <;> simp [hx]

theorem moduleLink_mark {k : Nat} {S : List Nat} {x : Nat} (h : x ∈ S → x < d.types.length) :
    (d.mark k S).moduleLink x = if x ∈ S then some (some k) else d.moduleLink x := by
  unfold moduleLink
  rw [types_mark]
  by_cases hx : x ∈ S
  · rw [List.getElem?_eq_getElem (h hx)]
    simp [hx]
  · simp [hx]

theorem Settled.mark (h : d.Settled) (k : Nat) (S : List Nat) : (d.mark k S).Settled := by
  constructor
  · intro o x hx
    rw [typeLink_mark]
    exact h.1 o x (nests_mark.mp hx)
  · intro x m hm
    exact h.2 x m (carries_mark.mp hm)

/-- What linking comes to if the links are those of the nesting already. -/
def LinksAsMark (fuel k : Nat) : Prop :=
  ∀ {d : Draft} {outer : Option Nat} {x : Nat}, d.Settled →
    (∀ t, d.types[x]? = some t → t.declaring = outer) →
    link fuel d k outer x = d.mark k (preorder fuel d x)

/-- Nested types are linked one after the other, each in the draft that those before it left. -/
theorem foldl_link_eq_mark {fuel k x : Nat} (hfuel : LinksAsMark fuel k) (h : d.Settled)
    (ns S : List Nat) (hns : ∀ n ∈ ns, d.Nests x n) :
    ns.foldl (fun d n => link fuel d k (some x) n) (d.mark k S) =
      d.mark k (S ++ ns.flatMap (preorder fuel d)) := by
  induction ns generalizing S with
  | nil => simp
  | cons n ns ih =>
      obtain ⟨hn, hns⟩ := List.forall_mem_cons.mp hns
      have hlink : (d.mark k S).typeLink n = some (some x) := by
        rw [typeLink_mark]
        exact h.1 x n hn
      have hdeclaring : ∀ u, (d.mark k S).types[n]? = some u → u.declaring = some x := by
        intro u hu
        simpa [typeLink, hu] using hlink
      rw [List.foldl_cons, hfuel (h.mark k S) hdeclaring, preorder_mark, mark_mark, ih _ hns,
        List.flatMap_cons, List.append_assoc]

/-- If the links below a type are those of the nesting already, linking it only lets everything
below remember the module. -/
theorem link_eq_mark (fuel k : Nat) : LinksAsMark fuel k := by
  induction fuel with
  | zero =>
      intro d outer x _ _
      rw [link, preorder, mark_eq_self]
      simp
  | succ fuel ih =>
      intro d outer x h hx
      cases ht : d.types[x]? with
      | none =>
          have hpre : preorder (fuel + 1) d x = [x] := by simp [preorder, ht]
          rw [link, ht, hpre, mark_eq_self]
          simpa using ht
      | some t =>
          have hhere : d.types.modify x (fun u =>
              { u with declaring := outer, module := some k }) = (d.mark k [x]).types := by
            apply List.ext_getElem?
            intro y
            rw [types_mark, getElem?_modify_eq_map]
            by_cases hy : y = x
            · subst hy
              simp [ht, ← hx t ht]
            · simp [hy]
          have hmethods : (d.mark k [x]).linkMethods t.methods x = d.mark k [x] :=
            linkMethods_eq_self fun m hm => h.2 x m ⟨t, ht, hm⟩
          have hpre : preorder (fuel + 1) d x = [x] ++ t.nested.flatMap (preorder fuel d) := by
            simp [preorder, ht]
          rw [link, ht]
          dsimp only
          rw [hhere, hpre, ← foldl_link_eq_mark ih h t.nested [x] fun n hn => ⟨t, ht, hn⟩]
          exact congrArg (t.nested.foldl (fun d n => link fuel d k (some x) n)) hmethods

/-! ## What each change does -/

/-- Making a part attaches nothing, and the new part remembers nothing. -/
structure Extends (d d' : Draft) : Prop where
  top : ∀ k x, d'.Top k x ↔ d.Top k x
  nests : ∀ o x, d'.Nests o x ↔ d.Nests o x
  carries : ∀ x m, d'.Carries x m ↔ d.Carries x m
  typeLink : ∀ x, d'.typeLink x = d.typeLink x ∨ d.typeLink x = none ∧ d'.typeLink x = some none
  moduleLink : ∀ x,
    d'.moduleLink x = d.moduleLink x ∨ d.moduleLink x = none ∧ d'.moduleLink x = some none
  methodLink : ∀ m,
    d'.methodLink m = d.methodLink m ∨ d.methodLink m = none ∧ d'.methodLink m = some none

theorem getElem?_concat_cases {α : Type} (l : List α) (a : α) (i : Nat) :
    (l ++ [a])[i]? = l[i]? ∨ l[i]? = none ∧ (l ++ [a])[i]? = some a := by
  rcases Nat.lt_trichotomy i l.length with h | rfl | h
  · exact Or.inl (List.getElem?_append_left h)
  · exact Or.inr ⟨by simp, by simp⟩
  · refine Or.inl ?_
    rw [List.getElem?_eq_none (by simp; omega), List.getElem?_eq_none (Nat.le_of_lt h)]

theorem extends_newModule (d : Draft) (name : Text) : d.Extends (d.newModule name) := by
  refine ⟨?_, fun _ _ => Iff.rfl, fun _ _ => Iff.rfl, fun _ => Or.inl rfl, fun _ => Or.inl rfl,
    fun _ => Or.inl rfl⟩
  intro k x
  unfold Top newModule
  rcases getElem?_concat_cases d.modules { name := name } k with h | ⟨h, h'⟩
  · rw [h]
  · simp [h, h']

theorem extends_newType (d : Draft) (head : TypeHead) : d.Extends (d.newType head) := by
  refine ⟨fun _ _ => Iff.rfl, ?_, ?_, ?_, ?_, fun _ => Or.inl rfl⟩
  · intro o x
    unfold Nests newType
    rcases getElem?_concat_cases d.types { head := head } o with h | ⟨h, h'⟩
    · rw [h]
    · simp [h, h']
  · intro x m
    unfold Carries newType
    rcases getElem?_concat_cases d.types { head := head } x with h | ⟨h, h'⟩
    · rw [h]
    · simp [h, h']
  · intro x
    unfold typeLink newType
    rcases getElem?_concat_cases d.types { head := head } x with h | ⟨h, h'⟩
    · exact Or.inl (by rw [h])
    · exact Or.inr (by simp [h, h'])
  · intro x
    unfold moduleLink newType
    rcases getElem?_concat_cases d.types { head := head } x with h | ⟨h, h'⟩
    · exact Or.inl (by rw [h])
    · exact Or.inr (by simp [h, h'])

theorem extends_newMethod (d : Draft) (method : MethodDef) : d.Extends (d.newMethod method) := by
  refine ⟨fun _ _ => Iff.rfl, fun _ _ => Iff.rfl, fun _ _ => Iff.rfl, fun _ => Or.inl rfl,
    fun _ => Or.inl rfl, ?_⟩
  intro m
  unfold methodLink newMethod
  rcases getElem?_concat_cases d.methods { method := method } m with h | ⟨h, h'⟩
  · exact Or.inl (by rw [h])
  · exact Or.inr (by simp [h, h'])

/-- The method is attached to the type and remembers it; all else is as before. -/
structure Gains (d d' : Draft) (type method : Nat) : Prop where
  top : ∀ k x, d'.Top k x ↔ d.Top k x
  nests : ∀ o x, d'.Nests o x ↔ d.Nests o x
  carries : ∀ x m, d'.Carries x m ↔ d.Carries x m ∨ x = type ∧ m = method
  typeLink : ∀ x, d'.typeLink x = d.typeLink x
  moduleLink : ∀ x, d'.moduleLink x = d.moduleLink x
  methodLink : ∀ m, d'.methodLink m = if m = method then some (some type) else d.methodLink m

theorem gains_addMethod {type method : Nat} (h : d.addMethod type method = some d') :
    d.Gains d' type method := by
  unfold addMethod at h
  obtain ⟨t, ht, h⟩ := Option.bind_eq_some_iff.mp h
  obtain ⟨f, hf, h⟩ := Option.bind_eq_some_iff.mp h
  cases h
  constructor
  · exact fun _ _ => Iff.rfl
  · intro o x
    unfold Nests linkMethods
    rw [getElem?_modify_eq_map]
    cases d.types[o]? with
    | none => simp
    | some u => by_cases ho : o = type <;> simp [ho]
  · intro x m
    unfold Carries linkMethods
    rw [getElem?_modify_eq_map]
    by_cases hx : x = type
    · subst hx
      simp [ht]
    · cases d.types[x]? with
      | none => simp [hx]
      | some u => simp [hx]
  · intro x
    unfold typeLink linkMethods
    rw [getElem?_modify_eq_map, Option.map_map]
    congr 1
    funext u
    by_cases hx : x = type <;> simp [hx]
  · intro x
    unfold moduleLink linkMethods
    rw [getElem?_modify_eq_map, Option.map_map]
    congr 1
    funext u
    by_cases hx : x = type <;> simp [hx]
  · intro m
    unfold methodLink linkMethods
    rw [List.foldl_cons, List.foldl_nil, getElem?_modify_eq_map]
    by_cases hm : m = method
    · subst hm
      simp [hf]
    · simp [hm]

/-- The inner type is attached to the outer one. It remembers the outer type and the module that
the outer type remembers; all else is as before. -/
structure Houses (d d' : Draft) (outer inner : Nat) : Prop where
  top : ∀ k x, d'.Top k x ↔ d.Top k x
  nests : ∀ o x, d'.Nests o x ↔ d.Nests o x ∨ o = outer ∧ x = inner
  carries : ∀ x m, d'.Carries x m ↔ d.Carries x m
  typeLink : ∀ x, d'.typeLink x = if x = inner then some (some outer) else d.typeLink x
  moduleLink : ∀ x, d'.moduleLink x = if x = inner then d.moduleLink outer else d.moduleLink x
  methodLink : ∀ m, d'.methodLink m = d.methodLink m

theorem houses_addNested {outer inner : Nat} (hs : d.Settled)
    (h : d.addNested outer inner = some d') : d.Houses d' outer inner := by
  unfold addNested at h
  obtain ⟨o, ho, h⟩ := Option.bind_eq_some_iff.mp h
  obtain ⟨i, hi, h⟩ := Option.bind_eq_some_iff.mp h
  have hmethods : ∀ {u : List DraftType}, ({ d with types := u } : Draft).linkMethods i.methods
      inner = { d with types := u } :=
    fun {u} => linkMethods_eq_self fun m hm => hs.2 inner m ⟨i, hi, hm⟩
  dsimp only at h
  rw [hmethods] at h
  cases h
  have htypes : ∀ x : Nat, ((d.types.modify inner fun u =>
      { u with declaring := some outer, module := o.module }).modify outer fun u =>
      { u with nested := u.nested ++ [inner] })[x]? =
      (d.types[x]?).map fun u =>
        { u with
          declaring := if x = inner then some outer else u.declaring,
          module := if x = inner then o.module else u.module,
          nested := if x = outer then u.nested ++ [inner] else u.nested } := by
    intro x
    rw [getElem?_modify_eq_map, getElem?_modify_eq_map, Option.map_map]
    congr 1
    funext u
    rw [Function.comp_apply]
    split_ifs <;> rfl
  constructor
  · exact fun _ _ => Iff.rfl
  · intro a x
    unfold Nests
    rw [htypes]
    by_cases ha : a = outer
    · subst ha
      simp [ho]
    · cases d.types[a]? with
      | none => simp [ha]
      | some u => simp [ha]
  · intro x m
    unfold Carries
    rw [htypes]
    cases d.types[x]? with
    | none => simp
    | some u => simp
  · intro x
    unfold typeLink
    rw [htypes, Option.map_map]
    by_cases hx : x = inner
    · subst hx
      simp [hi]
    · simp [hx, Function.comp_def]
  · intro x
    unfold moduleLink
    rw [htypes, Option.map_map]
    by_cases hx : x = inner
    · subst hx
      simp [hi, ho]
    · simp [hx, Function.comp_def]
  · exact fun _ => rfl

/-- The type is attached to the module, and it and everything below remember the module; all else
is as before. -/
structure Adopts (d d' : Draft) (module type : Nat) : Prop where
  made : ∃ link, d.typeLink type = some link
  top : ∀ k x, d'.Top k x ↔ d.Top k x ∨ k = module ∧ x = type
  nests : ∀ o x, d'.Nests o x ↔ d.Nests o x
  carries : ∀ x m, d'.Carries x m ↔ d.Carries x m
  typeLink : ∀ x, d'.typeLink x = d.typeLink x
  below : ∀ n x, d.Below type n x → d'.moduleLink x = some (some module)
  apart : ∀ x, (∀ n, ¬ d.Below type n x) → d'.moduleLink x = d.moduleLink x
  methodLink : ∀ m, d'.methodLink m = d.methodLink m

theorem top_enlist {module type k x : Nat} (hm : module < d.modules.length) :
    (d.enlist module type).Top k x ↔ d.Top k x ∨ k = module ∧ x = type := by
  unfold Top enlist
  rw [getElem?_modify_eq_map]
  by_cases hk : k = module
  · subst hk
    rw [List.getElem?_eq_getElem hm]
    simp
  · simp [hk]

theorem adopts_attach {module type : Nat} {A M : List Nat} (hd : d.Tidy A M) (hfree : type ∉ A)
    (h : d.attach module type = some d') : d.Adopts d' module type := by
  unfold attach at h
  obtain ⟨m, hm, h⟩ := Option.bind_eq_some_iff.mp h
  obtain ⟨t, ht, h⟩ := Option.bind_eq_some_iff.mp h
  have hlen : type < d.types.length := (List.getElem?_eq_some_iff.mp ht).1
  have hdeclaring : ∀ u, (d.enlist module type).types[type]? = some u → u.declaring = none := by
    intro u hu
    cases ht.symm.trans hu
    have hnone := (hd.free hfree).1
    rw [typeLink, ht, Option.map_some] at hnone
    cases hlink : t.declaring with
    | none => rfl
    | some o => exact absurd (congrArg some hlink) (hnone o)
  have hmem : ∀ x, x ∈ preorder (d.types.length + 1) (d.enlist module type) type ↔
      ∃ n, d.Below type n x := by
    intro x
    have hsame : preorder (d.types.length + 1) (d.enlist module type) type =
        preorder (d.types.length + 1) d type := preorder_congr (by intro y; rfl)
    rw [hsame]
    exact hd.mem_preorder_iff (fun o => hd.not_nests_of_free hfree) hlen
  have hsettled : (d.enlist module type).Settled := hd.settled
  rw [link_eq_mark _ _ hsettled hdeclaring] at h
  cases h
  constructor
  · exact ⟨t.declaring, by rw [typeLink, ht, Option.map_some]⟩
  · exact fun k x => top_enlist (List.getElem?_eq_some_iff.mp hm).1
  · exact fun o x => nests_mark
  · exact fun x m => carries_mark
  · exact fun x => typeLink_mark
  · intro n x hx
    have hlt : x < (d.enlist module type).types.length := hd.below_exists hlen hx
    rw [moduleLink_mark fun _ => hlt, if_pos ((hmem x).mpr ⟨n, hx⟩)]
  · intro x hx
    have hnot : x ∉ preorder (d.types.length + 1) (d.enlist module type) type := by
      intro hin
      obtain ⟨n, hn⟩ := (hmem x).mp hin
      exact hx n hn
    rw [moduleLink_mark fun hin => absurd hin hnot, if_neg hnot]
    rfl
  · exact fun _ => rfl

end Draft

end Monomorph
