import Monomorph.Proofs.Harvest
import Monomorph.Proofs.Signature

/-!
# Looking methods up

The registry finds a method through two texts: the full name of the declaring type, of which the
first definition counts, and the signature, of which the first method counts. Since a text of a
signature says exactly what the signature is (`Signature.text_eq_iff`), the method found is the
first one that agrees with the call site in the first definition of the name.

A reference whose declaring type has no name resolves to nothing, even where a type without a name
is defined.
-/

namespace Monomorph

/-! ## The first in a list -/

/-- `a` stands at index `i` of the list and is the first there with the property. -/
structure FirstAt {α : Type} (P : α → Prop) (l : List α) (i : Nat) (a : α) : Prop where
  stands : l[i]? = some a
  holds : P a
  first : ∀ j < i, ∀ b, l[j]? = some b → ¬ P b

section FirstAt

variable {α : Type} {P Q : α → Prop} {l : List α} {i : Nat} {a : α}

theorem FirstAt.congr (h : FirstAt P l i a) (hPQ : ∀ b ∈ l, P b ↔ Q b) : FirstAt Q l i a := by
  constructor
  · exact h.stands
  · exact (hPQ a (List.mem_of_getElem? h.stands)).mp h.holds
  · intro j hj b hb hQ
    exact h.first j hj b hb ((hPQ b (List.mem_of_getElem? hb)).mpr hQ)

theorem findIdx?_eq_some_iff_firstAt {p : α → Bool} :
    l.findIdx? p = some i ↔ ∃ a, FirstAt (fun a => p a = true) l i a := by
  rw [List.findIdx?_eq_some_iff_getElem]
  constructor
  · rintro ⟨hi, hp, hfirst⟩
    refine ⟨l[i], List.getElem?_eq_getElem hi, hp, ?_⟩
    intro j hj b hb
    obtain ⟨_, rfl⟩ := List.getElem?_eq_some_iff.mp hb
    exact hfirst j hj
  · rintro ⟨a, hstands, hp, hfirst⟩
    obtain ⟨hi, rfl⟩ := List.getElem?_eq_some_iff.mp hstands
    refine ⟨hi, hp, ?_⟩
    intro j hj
    exact hfirst j hj _ (List.getElem?_eq_getElem (hj.trans hi))

end FirstAt

/-! ## What a call site asks for -/

/-- The signature of a method. -/
def Member.asked (m : Member) : Signature :=
  { name := m.method.name, arity := m.method.generic.length, params := m.method.params }

/-- The signature that a call site asks for. -/
def MethodRef.asked (ref : MethodRef) : Signature :=
  { name := ref.name, arity := ref.arity.toInt, params := ref.params }

theorem signature_beq_iff {m : Member} {ref : MethodRef} (hm : m.asked.Spelled)
    (href : ref.asked.Spelled) :
    (m.signature == ref.signature) = true ↔ m.asked.Agrees ref.asked := by
  rw [beq_iff_eq]
  exact Signature.text_eq_iff hm href

theorem Owner.definitionName_selfRef (o : Owner) : o.selfRef.definitionName = o.fullName := by
  rw [selfRef]
  split <;> rfl

theorem Owner.instantiate_ok {o : Owner} {args : List TypeRef}
    (h : args.length = o.generic.length) :
    ∃ t, o.instantiate args = .ok t ∧ t.definitionName = o.fullName := by
  rw [instantiate, if_neg (by simp [h])]
  split
  · exact ⟨_, rfl, rfl⟩
  · exact ⟨_, rfl, rfl⟩

theorem Member.asked_refOn {m : Member} (h : m.method.generic.length < 2 ^ 63)
    (declaring : TypeRef) : (m.refOn declaring).asked = m.asked := by
  have harity : (Int64.ofNat m.method.generic.length).toInt = m.method.generic.length :=
    Int64.toInt_ofNat_of_lt h
  simp [Member.asked, MethodRef.asked, refOn, harity]

namespace Registry

variable {r : Registry} {ref : MethodRef} {id : MethodId} {d : Definition} {m : Member}

/-- The definition is the first of its full name. -/
abbrev FirstNamed (r : Registry) (name : Text) : Nat → Definition → Prop :=
  FirstAt (fun d => d.fullName = name) r.definitions

/-- The method is the first of its type with a signature. -/
abbrev FirstAsked (d : Definition) (s : Signature) : Nat → Member → Prop :=
  FirstAt (fun m => m.asked.Agrees s) d.members

theorem typeIndex?_eq_some_iff {name : Text} {i : Nat} :
    r.typeIndex? name = some i ↔ ∃ d, r.FirstNamed name i d := by
  rw [typeIndex?, findIdx?_eq_some_iff_firstAt]
  simp only [FirstNamed, beq_iff_eq]

theorem resolveMethod?_eq_some_iff :
    r.resolveMethod? ref = some id ↔ ref.declaring.definitionName ≠ [] ∧
      ∃ d m, r.FirstNamed ref.declaring.definitionName id.type d ∧
        FirstAt (fun m => (m.signature == ref.signature) = true) d.members id.index m := by
  rw [resolveMethod?]
  by_cases hname : ref.declaring.definitionName = []
  · simp [hname]
  rw [if_neg hname, and_iff_right hname]
  constructor
  · intro h
    obtain ⟨i, hi, h⟩ := Option.bind_eq_some_iff.mp h
    obtain ⟨d, hd, h⟩ := Option.bind_eq_some_iff.mp h
    obtain ⟨k, hk, h⟩ := Option.bind_eq_some_iff.mp h
    cases h
    obtain ⟨d', hfirst⟩ := typeIndex?_eq_some_iff.mp hi
    obtain rfl : d' = d := Option.some.inj (hfirst.stands.symm.trans hd)
    obtain ⟨m, hm⟩ := findIdx?_eq_some_iff_firstAt.mp hk
    exact ⟨d', m, hfirst, hm⟩
  · rintro ⟨d, m, hd, hm⟩
    have hindex := findIdx?_eq_some_iff_firstAt.mpr ⟨m, hm⟩
    rw [typeIndex?_eq_some_iff.mpr ⟨d, hd⟩]
    show (r.definitions[id.type]?.bind fun d => _) = _
    rw [hd.stands]
    show ((d.members.findIdx? _).bind fun index => _) = _
    rw [hindex]
    rfl

/-- A look-up finds the first method that agrees, in the first definition of the name. -/
theorem resolveMethod?_iff (href : ref.asked.Spelled)
    (hmembers : ∀ d ∈ r.definitions, d.fullName = ref.declaring.definitionName →
      ∀ m ∈ d.members, m.asked.Spelled) :
    r.resolveMethod? ref = some id ↔ ref.declaring.definitionName ≠ [] ∧
      ∃ d m, r.FirstNamed ref.declaring.definitionName id.type d ∧
        FirstAsked d ref.asked id.index m := by
  rw [resolveMethod?_eq_some_iff]
  refine and_congr_right fun _ => exists_congr fun d => exists_congr fun m => ?_
  refine and_congr_right fun hd => ?_
  have hbeq : ∀ m ∈ d.members,
      (m.signature == ref.signature) = true ↔ m.asked.Agrees ref.asked := by
    intro m hm
    have hmem := List.mem_of_getElem? hd.stands
    exact signature_beq_iff (hmembers d hmem hd.holds m hm) href
  exact ⟨fun h => h.congr hbeq, fun h => h.congr fun m hm => (hbeq m hm).symm⟩

/-- A reference to a method on its type finds the method, where it is the first of its signature
and its type the first of its name. -/
theorem resolveMethod?_refOn (hname : d.fullName ≠ []) (hd : r.FirstNamed d.fullName id.type d)
    (hspelled : ∀ x ∈ d.members, x.asked.Spelled) (hm : FirstAsked d m.asked id.index m)
    (hlen : m.method.generic.length < 2 ^ 63) {declaring : TypeRef}
    (hdecl : declaring.definitionName = d.fullName) :
    r.resolveMethod? (m.refOn declaring) = some id := by
  have hasked := Member.asked_refOn hlen declaring
  have hmem := hspelled m (List.mem_of_getElem? hm.stands)
  have hbeq : ∀ x ∈ d.members, x.asked.Agrees m.asked ↔
      (x.signature == (m.refOn declaring).signature) = true := by
    intro x hx
    rw [signature_beq_iff (hspelled x hx) (hasked.symm ▸ hmem), hasked]
  rw [resolveMethod?_eq_some_iff]
  have hdecl' : (m.refOn declaring).declaring.definitionName = d.fullName := hdecl
  rw [hdecl']
  exact ⟨hname, d, m, hd, hm.congr hbeq⟩

/-- **Look-ups match signatures.** The name of the method that is asked for holds no opening
parenthesis, nor does that of a method in a definition that is asked, and the types of their
parameters are present, within the rules of the format, and legible.

* A look-up finds a method exactly if the declaring type is named and the method is the first that
  agrees with the reference in name, arity and the types of the parameters up to owners, in the
  first definition of that name.
* The reference that a method gives to itself leads back to it, and so does the one on its type
  applied to as many arguments as the type takes, if the type has a name and is the first of it, and
  the method is the first of its signature there. -/
theorem resolveMethod?_exact (modules : List (Option Module)) :
    (∀ (ref : MethodRef) (id : MethodId), ref.asked.Spelled →
      (∀ d ∈ (ofModules modules).definitions, d.fullName = ref.declaring.definitionName →
        ∀ m ∈ d.members, m.asked.Spelled) →
      ((ofModules modules).resolveMethod? ref = some id ↔
        ref.declaring.definitionName ≠ [] ∧
          ∃ d m, (ofModules modules).FirstNamed ref.declaring.definitionName id.type d ∧
            FirstAsked d ref.asked id.index m)) ∧
    ∀ (id : MethodId) (d : Definition) (m : Member), d.fullName ≠ [] →
      (ofModules modules).FirstNamed d.fullName id.type d →
      FirstAsked d m.asked id.index m →
      (∀ x ∈ d.members, x.asked.Spelled) → m.method.generic.length < 2 ^ 63 →
      (ofModules modules).resolveMethod? m.ref = some id ∧
        ∀ args : List TypeRef, args.length = d.head.generic.length →
          ∃ ref, m.instantiate args = .ok ref ∧
            (ofModules modules).resolveMethod? ref = some id := by
  constructor
  · intro ref id href hmembers
    exact resolveMethod?_iff href hmembers
  · intro id d m hname hd hm hspelled hlen
    have howner : m.owner = some d.owner :=
      linked_ofModules _ _ (List.mem_of_getElem? hd.stands) m (List.mem_of_getElem? hm.stands)
    constructor
    · refine resolveMethod?_refOn hname hd hspelled hm hlen ?_
      rw [howner]
      exact d.owner.definitionName_selfRef
    · intro args hargs
      obtain ⟨t, ht, htname⟩ := Owner.instantiate_ok (o := d.owner) hargs
      refine ⟨m.refOn t, ?_, resolveMethod?_refOn hname hd hspelled hm hlen htname⟩
      rw [Member.instantiate, howner]
      show (d.owner.instantiate args).map m.refOn = _
      rw [ht]
      rfl

end Registry

namespace Sample

/-- An instance method called `Run`. -/
def run (generic : List Text) (params : List TypeRef) : MethodDef :=
  { MethodDef.new "Run" 0 generic with params }

/-- `Host<T>` with `Run(T, Box<T>)`, `Run<U>(T, Box<U>)` and `Run<U>(T, Box<T>)`. -/
def overloads : Module :=
  let t := TypeRef.typeParam "T" 0 "App.Host`1"
  let u := TypeRef.methodParam "U" 0 "App.Host`1::Run"
  let boxed (t : TypeRef) := TypeRef.applied "App.Box`1" [t]
  .new "App" [cls "Host`1" ["T"] [run [] [t, boxed t], run ["U"] [t, boxed u],
    run ["U"] [t, boxed t]]]

/-- A later module with another `Host<T>`. -/
def shadowed : Module := .new "Late" [cls "Host`1" ["T"] [run [] []]]

/-- A call of `Host<Foo>.Run<Bar>(T, Box<U>)`, whose parameters name other owners. -/
def overloadCall : MethodRef :=
  callTo (.applied "App.Host`1" [foo]) "Run" 1 false
    [.typeParam "X" 0 "Other", .applied "App.Box`1" [.methodParam "Y" 0 "Other::Run"]] [bar]

/-- A type without a name that has a method. -/
def unnamed : Module := .new "App" [.node { methods := [some (run [] [])] } []]

end Sample

open Sample in
/-- An overloaded method of a type that two modules declare: the call is told from the method in
front of it by its arity, and from the one behind it by the kind of a parameter. -/
theorem Registry.resolveMethod?_exact_overloads :
    let r := ofModules [none, some overloads, some shadowed]
    let id : MethodId := { type := 0, index := 1 }
    r.resolveMethod? overloadCall = some id ∧
      ∃ m, r.member? id = some m ∧ r.resolveMethod? m.ref = some id ∧
        ∃ ref, m.instantiate [foo] = .ok ref ∧ r.resolveMethod? ref = some id := by
  intro r id
  obtain ⟨hcall, hback⟩ := resolveMethod?_exact [none, some overloads, some shadowed]
  have hspelled : ∀ d ∈ r.definitions, ∀ m ∈ d.members, m.asked.Spelled := by
    decide +kernel
  have hfound : ∃ d m, r.definitions[0]? = some d ∧ d.members[1]? = some m := ⟨_, _, rfl, rfl⟩
  obtain ⟨d, m, hd, hm⟩ := hfound
  have hnamed : r.FirstNamed "App.Host`1" 0 d := by
    refine ⟨hd, ?_, fun j hj => absurd hj (Nat.not_lt_zero j)⟩
    cases hd
    decide
  -- The method in front takes no type argument.
  have hfront : ∀ j < 1, ∀ x, d.members[j]? = some x → x.asked.arity = 0 := by
    intro j hj x hx
    obtain rfl : j = 0 := by omega
    cases hd
    cases hx
    rfl
  have hasked : FirstAsked d overloadCall.asked 1 m ∧ FirstAsked d m.asked 1 m := by
    cases hd
    cases hm
    refine ⟨⟨rfl, ⟨rfl, rfl, ?_⟩, ?_⟩, ⟨rfl, ⟨rfl, rfl, ?_⟩, ?_⟩⟩
    · exact .cons (by decide) (.cons (by decide) .nil)
    · intro j hj x hx hagrees
      exact absurd (hagrees.arity.symm.trans (hfront j hj x hx)) (by decide)
    · exact .cons (by decide) (.cons (by decide) .nil)
    · intro j hj x hx hagrees
      exact absurd (hagrees.arity.symm.trans (hfront j hj x hx)) (by decide)
  have hname : d.fullName = "App.Host`1" := hnamed.holds
  refine ⟨(hcall overloadCall id (by decide +kernel) fun d hd _ => hspelled d hd).mpr
    ⟨by decide, d, m, hnamed, hasked.1⟩, m, ?_, ?_⟩
  · cases hd
    exact hm
  · have hself := hback id d m (by rw [hname]; decide) (hname.symm ▸ hnamed) hasked.2
      (hspelled d (List.mem_of_getElem? hd)) (by cases hd; cases hm; decide)
    exact ⟨hself.1, hself.2 [foo] (by cases hd; rfl)⟩

open Sample in
/-- A type without a name is never found, although it is the first definition of the empty name and
the method in it is the first of its signature. -/
theorem Registry.unnamed_not_found :
    let r := ofModules [some unnamed]
    let id : MethodId := { type := 0, index := 0 }
    let ref := callTo (.define []) "Run" 0 false [] []
    ref.asked.Spelled ∧ (∀ d ∈ r.definitions, ∀ m ∈ d.members, m.asked.Spelled) ∧
      ¬ (r.resolveMethod? ref = some id ↔
        ∃ d m, r.FirstNamed ref.declaring.definitionName id.type d ∧
          FirstAsked d ref.asked id.index m) := by
  intro r id ref
  refine ⟨by decide, by decide, ?_⟩
  intro h
  have hfound : r.resolveMethod? ref = some id := by
    refine h.mpr ⟨_, _, ⟨rfl, rfl, ?_⟩, ⟨rfl, ⟨rfl, rfl, .nil⟩, ?_⟩⟩
    · exact fun j hj => absurd hj (Nat.not_lt_zero j)
    · exact fun j hj => absurd hj (Nat.not_lt_zero j)
  cases hfound

end Monomorph
