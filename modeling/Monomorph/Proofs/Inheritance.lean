import Monomorph.Proofs.Decoded
import Monomorph.Proofs.Replacement

/-!
# Binding against the pool is inheritance

A reference that is still generic at the end of a walk is bound by what the program uses elsewhere.
Above every pooled type stands a chain of base types, in which each base type is seen with the
arguments of the type below it. The first instance of the entry method's declaring type on that
chain supplies its arguments, and the reference is bound to them if each argument it asks for is
there and holds no parameter itself (`TypeRef.boundTo?`).

Over the definitions of decoded modules this is all that `Engine.bindFromPool` does
(`Engine.bindFromPool_exact`): whatever the hierarchy looks like, the chain is followed for
`maxBaseDepth` places, nothing faults, and parameters of methods keep the pool out.
-/

namespace Monomorph

/-- No instance has more arguments than a row of references in memory can hold. -/
def Rules.addressable : Rules where
  inst _ n := n < 2 ^ 60

namespace TypeRef

theorem Obeys.addressable {t : TypeRef} (h : t.Obeys .narrow) : t.Obeys .addressable :=
  h.imp (fun _ n (hn : n < 4294967296) => show n < 2 ^ 60 by omega) (fun _ _ _ _ _ _ => trivial)
    fun _ => trivial

theorem Obeys.whole {t : TypeRef} (h : t.Obeys (.format False)) : t.Obeys .whole := by
  refine h.imp (R := .format False) (S := .whole) (fun _ _ _ => trivial) ?_ id
  rintro kind name position param owner (hdef | ⟨-, -, hfits⟩) hp
  · exact absurd (hdef.symm.trans hp) (by decide)
  · exact hfits

/-- A parameter in a reference that obeys the format is declared by a type or by a method, and its
position is not negative. -/
theorem Obeys.parameter {t x : TypeRef} (h : t.Obeys (.format False)) (hx : x ∈ t.parameters) :
    (x.paramKind = .type ∨ x.paramKind = .method) ∧ 0 ≤ x.position := by
  obtain ⟨hobeys, hparam⟩ := h.parameters x hx
  cases hobeys with
  | hole hh => exact hh.elim
  | inst => cases hparam
  | @leaf kind name args position param owner hk hleaf =>
      rcases hleaf with rfl | ⟨-, hkind, hfits⟩
      · cases hparam
      · have hpos : 0 ≤ position.toInt ∧ position.toInt < 65536 := by
          simpa [fitsPosition] using hfits
        exact ⟨hkind, hpos.1⟩

/-- An instance is concrete as soon as it holds no parameter. -/
theorem isConcrete_of_isInstance {t : TypeRef} (h : t.isInstance = true) :
    t.isConcrete = !t.hasParameter := by
  cases t with
  | absent => cases h
  | node kind name args position param owner =>
      have hk : kind = .inst := by simpa [isInstance] using h
      subst hk
      rfl

/-- The argument at a parameter's position. -/
def argumentAt (args : List TypeRef) (x : TypeRef) : TypeRef := args.getD x.position.toNat .absent

/-- The reference with every parameter replaced by the argument at its position, provided that each
of these arguments is there and holds no parameter. -/
def boundTo? (t : TypeRef) (args : List TypeRef) : Option TypeRef :=
  if ∀ x ∈ t.parameters, x.position < args.length ∧ (argumentAt args x).hasParameter = false then
    some (t.replace (argumentAt args))
  else none

/-- An instance with its parameters replaced is concrete exactly if nothing that is put in holds a
parameter. -/
theorem isConcrete_replace {t : TypeRef} {f : TypeRef → TypeRef} (h : t.isInstance = true) :
    (t.replace f).isConcrete = true ↔ ∀ x ∈ t.parameters, (f x).hasParameter = false := by
  rw [isConcrete_of_isInstance (replace_instance h).1, Bool.not_eq_true', ← Bool.not_eq_true,
    hasParameter_replace]
  simp

end TypeRef

/-! ## Arguments for type parameters alone -/

namespace Bindings

variable {args : List TypeRef} {x : TypeRef}

theorem framed_ofTypeArgs (h : args.length < 2 ^ 60) : (ofTypeArgs args).Framed :=
  Supplied.framed (Or.inr ⟨args, rfl⟩) h

theorem typeArity_ofTypeArgs (h : args.length < 2 ^ 60) :
    (ofTypeArgs args).typeArity.toInt = args.length :=
  Int64.toInt_ofNat_of_lt (by omega)

theorem binds_type_iff (h : args.length < 2 ^ 60) (hx : x.paramKind = .type) :
    (ofTypeArgs args).Binds x ↔ x.position < args.length := by
  rw [Binds, typeArity_ofTypeArgs h, hx]
  simp [ParamKind.type_ne_method]

/-- A method parameter looks behind the arguments, where nothing is. -/
theorem not_binds_method (h : args.length < 2 ^ 60) (hx : x.paramKind = .method)
    (hpos : 0 ≤ x.position) : ¬ (ofTypeArgs args).Binds x := by
  rw [Binds, typeArity_ofTypeArgs h, hx]
  rintro (⟨hkind, -⟩ | ⟨-, hlt⟩)
  · exact ParamKind.type_ne_method hkind.symm
  · have hlen : (ofTypeArgs args).args.length = args.length := rfl
    omega

theorem argument_type (hx : x.paramKind = .type) :
    (ofTypeArgs args).argument x = TypeRef.argumentAt args x := by
  rw [argument, if_pos hx]
  rfl

end Bindings

namespace Engine

variable {e : Engine}

/-- One row of arguments binds a reference without method parameters, and no other. -/
theorem bindTypeArgs_eq {t : TypeRef} (hinst : t.isInstance = true) (ht : t.Obeys (.format False))
    {args : List TypeRef} (hargs : args.length < 2 ^ 60) :
    bindTypeArgs t args
      = .ok (if ∃ x ∈ t.parameters, x.paramKind = .method then none else t.boundTo? args) := by
  have happly := Bindings.apply_eq (Bindings.framed_ofTypeArgs hargs) ht.whole
  unfold bindTypeArgs
  rw [happly]
  by_cases hmethod : ∃ x ∈ t.parameters, x.paramKind = .method
  · obtain ⟨x, hx, hkind⟩ := hmethod
    have hunbound : ¬ ∀ x ∈ t.parameters, (Bindings.ofTypeArgs args).Binds x := fun hall =>
      Bindings.not_binds_method hargs hkind (ht.parameter hx).2 (hall x hx)
    rw [if_neg hunbound, if_pos ⟨x, hx, hkind⟩]
  · have htype : ∀ x ∈ t.parameters, x.paramKind = .type := fun x hx =>
      (ht.parameter hx).1.resolve_right fun hkind => hmethod ⟨x, hx, hkind⟩
    have hreplace : t.replace (Bindings.ofTypeArgs args).argument
        = t.replace (TypeRef.argumentAt args) :=
      TypeRef.replace_congr t fun x hx => Bindings.argument_type (htype x hx)
    have hbinds : (∀ x ∈ t.parameters, (Bindings.ofTypeArgs args).Binds x) ↔
        ∀ x ∈ t.parameters, x.position < args.length :=
      forall₂_congr fun x hx => Bindings.binds_type_iff hargs (htype x hx)
    have hbound : (∀ x ∈ t.parameters, x.position < args.length ∧
        (TypeRef.argumentAt args x).hasParameter = false) ↔
          (∀ x ∈ t.parameters, x.position < args.length) ∧
            (t.replace (TypeRef.argumentAt args)).isConcrete = true := by
      rw [TypeRef.isConcrete_replace hinst, forall₂_and]
    rw [if_neg hmethod, TypeRef.boundTo?, hreplace]
    simp only [hbinds, hbound]
    by_cases hall : ∀ x ∈ t.parameters, x.position < args.length
    · rw [if_pos hall]
      exact congrArg Except.ok (if_congr (and_iff_right hall).symm rfl rfl)
    · rw [if_neg hall, if_neg fun h => hall h.1]

/-- One pooled type binds the reference to the arguments of the first instance of the declaring type
above it. -/
theorem bindWith_eq (hbase : ∀ t, ∃ o, e.registry.baseType? t = .ok o) {declaring : Text}
    {t c : TypeRef} (hinst : t.isInstance = true) (ht : t.Obeys (.format False))
    (hshort : ∀ u, e.registry.Inherits c u → u.isInstance = true → u.args.length < 2 ^ 60) :
    e.bindWith declaring t c
      = .ok (if ∃ x ∈ t.parameters, x.paramKind = .method then none
        else (e.registry.firstInstance? declaring maxBaseDepth c).bind fun u =>
          t.boundTo? u.args) := by
  rw [bindWith, argsFor_eq hbase]
  cases hu : e.registry.firstInstance? declaring maxBaseDepth c with
  | none => simp
  | some u =>
      obtain ⟨hinherits, hinstance, -⟩ := Registry.firstInstance?_some hu
      exact bindTypeArgs_eq hinst ht (hshort u hinherits hinstance)

theorem bindFromPool_plain {p : Pair}
    (h : ∀ d, e.program.declaring? p.entry = some d → d.isGeneric = false) :
    e.bindFromPool p = .ok [] := by
  unfold bindFromPool
  cases hd : e.program.declaring? p.entry with
  | none => rfl
  | some d => simp [h d hd]

/-- With a generic declaring type, the result is what the pooled types make of the pair, in order. -/
theorem bindFromPool_generic {p : Pair} {d : Definition}
    (hd : e.program.declaring? p.entry = some d) (hgeneric : d.isGeneric = true)
    {f : TypeRef → Option TypeRef}
    (h : ∀ c ∈ e.pool.types, e.bindWith d.fullName p.type c = .ok (f c)) :
    e.bindFromPool p = .ok (e.pool.types.filterMap f) := by
  have hnot : ¬ (!d.isGeneric) = true := by simp [hgeneric]
  unfold bindFromPool
  rw [hd]
  dsimp only
  rw [if_neg hnot, mapM_eq_ok h]
  exact congrArg Except.ok List.filterMap_map

/-- **Binding against the pool is exactly inheritance.** Take an engine whose base types are looked
up among the definitions of decoded modules, a pool with argument lists that memory can hold, and
the end of a walk on an instance that keeps the rules of the format.

* If the entry method's declaring type is not there or not generic, or if a parameter of a method
  occurs in the instance, the pool gives nothing.
* Otherwise the pooled types are gone through in order. One that has an instance of the declaring
  type among the first `maxBaseDepth` places of its chain of base types gives what the first such
  instance's arguments bind the reference to, if they do; any other gives nothing.

Either way there is a result, and every type in it is concrete. -/
theorem bindFromPool_exact {modules : List (Option Module)} (hdecoded : Decoded modules)
    (e : Engine) (hregistry : e.registry = .ofModules modules)
    (hpool : ∀ c ∈ e.pool.types, c.Obeys .addressable) (p : Pair)
    (hinst : p.type.isInstance = true) (hvalid : p.type.fault? = none) :
    ((∀ d, e.program.declaring? p.entry = some d → d.isGeneric = false) ∨
        (∃ x ∈ p.type.parameters, x.paramKind = .method) → e.bindFromPool p = .ok []) ∧
      (∀ d, e.program.declaring? p.entry = some d → d.isGeneric = true →
        (¬ ∃ x ∈ p.type.parameters, x.paramKind = .method) →
        e.bindFromPool p
          = .ok (e.pool.types.filterMap fun c =>
              (e.registry.firstInstance? d.fullName maxBaseDepth c).bind fun u =>
                p.type.boundTo? u.args)) ∧
      ∃ ts, e.bindFromPool p = .ok ts ∧ ∀ t ∈ ts, t.isConcrete = true := by
  have ht : p.type.Obeys (.format False) :=
    ((TypeRef.fault?_eq_none_iff _).mp hvalid).obeys_of_present
      (TypeRef.isPresent_of_isInstance hinst)
  have hbase : ∀ t, ∃ o, e.registry.baseType? t = .ok o := by
    rw [hregistry]
    exact Registry.baseType?_ok fun d hd =>
      TypeRef.reachesBefore_of_placed (hdecoded.definition hd).base.obeys.placed
  have hshort : ∀ c ∈ e.pool.types, ∀ u, e.registry.Inherits c u → u.isInstance = true →
      u.args.length < 2 ^ 60 := by
    intro c hc u hu hinstance
    rw [hregistry] at hu
    exact (hu.obeys (fun d hd _ => (hdecoded.definition hd).narrow.obeys.addressable)
      (hpool c hc)).inst_rule hinstance
  have hdeclaring : (∀ d, e.program.declaring? p.entry = some d → d.isGeneric = false) ∨
      ∃ d, e.program.declaring? p.entry = some d ∧ d.isGeneric = true := by
    by_contra! h
    obtain ⟨⟨d, hd, hgeneric⟩, hplain⟩ := h
    exact hplain d hd (by simpa using hgeneric)
  -- A generic declaring type sends every pooled type through the same binding.
  have hbound : ∀ d, e.program.declaring? p.entry = some d → d.isGeneric = true →
      e.bindFromPool p = .ok (e.pool.types.filterMap fun c =>
        if ∃ x ∈ p.type.parameters, x.paramKind = .method then none
        else (e.registry.firstInstance? d.fullName maxBaseDepth c).bind fun u =>
          p.type.boundTo? u.args) := fun d hd hgeneric =>
    bindFromPool_generic hd hgeneric fun c hc => bindWith_eq hbase hinst ht (hshort c hc)
  refine ⟨?_, ?_, ?_⟩
  · intro h
    rcases hdeclaring with hplain | ⟨d, hd, hgeneric⟩
    · exact bindFromPool_plain hplain
    · have hmethod := h.resolve_left fun hplain =>
        Bool.false_ne_true ((hplain d hd).symm.trans hgeneric)
      rw [hbound d hd hgeneric]
      simp only [if_pos hmethod, List.filterMap_none]
  · intro d hd hgeneric hmethod
    rw [hbound d hd hgeneric]
    simp only [if_neg hmethod]
  · have hsome : ∃ ts, e.bindFromPool p = .ok ts := by
      rcases hdeclaring with hplain | ⟨d, hd, hgeneric⟩
      · exact ⟨_, bindFromPool_plain hplain⟩
      · exact ⟨_, hbound d hd hgeneric⟩
    obtain ⟨ts, hts⟩ := hsome
    refine ⟨ts, hts, ?_⟩
    intro t hmem
    obtain ⟨-, -, -, -, -, -, -, -, -, -, hconcrete⟩ := mem_bindFromPool hts hmem
    exact hconcrete

end Engine

namespace Sample

/-- `Wrapper<T>.Run` mentions `Box<T>`, `Sub<T>` derives from `Wrapper<Box<T>>`, and the program
constructs `Sub<Foo>` and `Wrapper<Bar>`. -/
def derived : Module :=
  let box' (t : TypeRef) := TypeRef.applied "App.Box`1" [t]
  let wrapper (t : TypeRef) := TypeRef.applied "App.Wrapper`1" [t]
  let run := { MethodDef.new "Run" 0 [] with
    body := code [withType .ldtoken (box' (.typeParam "T" 0 "App.Wrapper`1")), plain .ret] }
  let start := { MethodDef.new "Main" MethodAttr.isStatic [] with
    body := code
      [withMethod .newobj (construct (.applied "App.Sub`1" [foo])), plain .pop,
        withMethod .newobj (construct (wrapper bar)), plain .pop, plain .ret] }
  .new "App"
    (fooBar ++ [box, cls "Wrapper`1" ["T"] [ctor, run],
      cls "Sub`1" ["T"] [ctor] (wrapper (box' (.typeParam "T" 0 "App.Sub`1"))),
      cls "Program" [] [start]])

/-- The engine over that module. -/
def derivedEngine : Engine := .ofModules [some derived] 64

/-- `Box` of a parameter, at the end of a walk in `Wrapper<T>.Run`. -/
def runPair (t : TypeRef) : Pair :=
  { type := .applied "App.Box`1" [t], entry := { type := 3, index := 1 } }

theorem decoded_derived : Decoded [some derived] := decoded_of_fileBytes (by decide +kernel)

end Sample

open Sample in
/-- `Sub<Foo>` stands for the `Wrapper<Box<Foo>>` above it and `Wrapper<Bar>` for itself; a parameter
of `Run` is bound by neither. -/
theorem Engine.bindFromPool_exact_derived :
    let t := TypeRef.typeParam "T" 0 "App.Wrapper`1"
    let u := TypeRef.methodParam "U" 0 "App.Wrapper`1::Run"
    Decoded [some derived] ∧ (∀ c ∈ derivedEngine.pool.types, c.Obeys .addressable) ∧
      (∀ x ∈ [t, u], (runPair x).type.isInstance = true ∧ (runPair x).type.fault? = none) ∧
      derivedEngine.bindFromPool (runPair t)
        = .ok [.applied "App.Box`1" [.applied "App.Box`1" [foo]], .applied "App.Box`1" [bar]] ∧
      derivedEngine.bindFromPool (runPair u) = .ok [] := by
  intro t u
  have hpool : ∀ c ∈ derivedEngine.pool.types, c.Obeys .addressable := fun c hc =>
    (decoded_derived.pooled hc).2.addressable
  have hvalid : ∀ x ∈ [t, u], (runPair x).type.isInstance = true ∧
      (runPair x).type.fault? = none := by decide
  obtain ⟨hinst, hfault⟩ := hvalid t (by simp)
  obtain ⟨hinst', hfault'⟩ := hvalid u (by simp)
  obtain ⟨-, hbound, -⟩ :=
    bindFromPool_exact decoded_derived derivedEngine rfl hpool (runPair t) hinst hfault
  obtain ⟨hempty, -, -⟩ :=
    bindFromPool_exact decoded_derived derivedEngine rfl hpool (runPair u) hinst' hfault'
  refine ⟨decoded_derived, hpool, hvalid, ?_, hempty (Or.inr (by decide))⟩
  rw [hbound _ rfl (by decide) (by decide)]
  rfl

end Monomorph
