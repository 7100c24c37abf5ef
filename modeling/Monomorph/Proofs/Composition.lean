import Monomorph.Proofs.DepthLimit
import Monomorph.Proofs.Replacement

/-!
# Substitutions compose

Along a chain of call sites one substitution follows another. Substituting the later bindings into
the arguments of the earlier ones gives single bindings that do the work of both
(`Bindings.andThen`), with the type arity of the earlier ones, since that is where their parameters
are looked up. They succeed and fail exactly where the two substitutions in a row do.

Two facts carry this. A bound parameter is found at the same index in both rows of arguments. And
what the first substitution returns is built from its arguments and from nodes that it has gone
through already, so the second substitution cannot fail on it (`Bindings.apply_applied`).
-/

namespace Monomorph

namespace Bindings

variable {b c : Bindings} {ts rs args : List TypeRef} {t r : TypeRef}

/-! ## Rows of references -/

theorem applyEach_eq_ok_iff :
    b.applyEach ts = .ok rs ↔ List.Forall₂ (fun t r => b.apply t = .ok r) ts rs := by
  refine ⟨applyEach_ok, ?_⟩
  intro h
  induction h with
  | nil => rfl
  | cons ht _ ih => rw [applyEach, ht, ih]

/-- A substitution that succeeds leaves a reference without parameters as it is. -/
theorem eq_self_of_apply (h : b.apply t = .ok r) (hc : t.hasParameter = false) : r = t := by
  cases t with
  | absent => cases h
  | node kind name inner position param owner =>
      by_cases hp : kind = .parameter
      · subst hp
        rw [TypeRef.hasParameter_parameter] at hc
        cases hc
      by_cases hi : kind = .inst
      · subst hi
        rw [TypeRef.hasParameter_inst, ← TypeRef.anyParameter_eq_any] at hc
        rw [apply_inst, hc] at h
        cases heach : b.applyEach inner with
        | error f => rw [heach] at h; cases h
        | ok inner' =>
            rw [heach] at h
            exact (Except.ok.inj h).symm
      · rw [apply_other b hp hi] at h
        exact (Except.ok.inj h).symm

theorem eq_self_of_applyEach (h : b.applyEach ts = .ok rs)
    (hc : TypeRef.anyParameter ts = false) : rs = ts := by
  rw [applyEach_eq_ok_iff] at h
  induction h with
  | nil => rfl
  | cons ht _ ih =>
      rw [TypeRef.anyParameter, Bool.or_eq_false_iff] at hc
      rw [eq_self_of_apply ht hc.1, ih hc.2]

/-- A row in which every reference has a substitution has one. -/
theorem exists_applyEach (h : ∀ t ∈ ts, ∃ r, b.apply t = .ok r) :
    ∃ rs, b.applyEach ts = .ok rs := by
  induction ts with
  | nil => exact ⟨[], rfl⟩
  | cons t ts ih =>
      obtain ⟨⟨r, hr⟩, hts⟩ := List.forall_mem_cons.mp h
      obtain ⟨rs, hrs⟩ := ih hts
      exact ⟨r :: rs, by rw [applyEach, hr, hrs]⟩

/-! ## Two substitutions in a row -/

/-- `c` has a substitution for every argument of `b`, and `args` is the row of the results. -/
def Carries (c b : Bindings) (args : List TypeRef) : Prop :=
  List.Forall₂ (fun a a' => c.apply a = .ok a') b.args args

/-- What substitution makes out of arguments can be substituted into as the arguments can. -/
theorem apply_applied (hb : ∀ a ∈ b.args, ∃ a', c.apply a = .ok a') (t : TypeRef) :
    ∀ {r : TypeRef}, b.apply t = .ok r → ∃ r', c.apply r = .ok r' := by
  induction t using TypeRef.induction with
  | absent => exact fun h => nomatch h
  | node kind name inner position param owner ih =>
      intro r hr
      by_cases hp : kind = .parameter
      · subst hp
        rw [apply_parameter] at hr
        exact hb r (lookup_mem hr)
      by_cases hi : kind = .inst
      · subst hi
        rw [apply_inst] at hr
        cases heach : b.applyEach inner with
        | error f => rw [heach] at hr; cases hr
        | ok inner' =>
            have htotal : ∀ a' ∈ inner', ∃ r', c.apply a' = .ok r' := by
              intro a' ha'
              obtain ⟨a, ha, happly⟩ := exists_of_mem_applyEach heach a' ha'
              exact ih a ha happly
            obtain ⟨rs, hrs⟩ := exists_applyEach htotal
            rw [heach] at hr
            -- An instance without parameters is returned as it is, and so are its arguments.
            cases hany : TypeRef.anyParameter inner with
            | true =>
                have hr' : r = .applied name inner' := by simpa [Except.map, hany] using hr.symm
                rw [hr', TypeRef.applied, apply_inst, hrs]
                exact ⟨_, rfl⟩
            | false =>
                have hr' : r = .node .inst name inner position param owner := by
                  simpa [Except.map, hany] using hr.symm
                rw [eq_self_of_applyEach heach hany] at hrs
                rw [hr', apply_inst, hrs]
                exact ⟨_, rfl⟩
      · rw [apply_other b hp hi] at hr
        cases hr
        exact ⟨_, apply_other c hp hi ..⟩

theorem Carries.total (h : c.Carries b args) : ∀ a ∈ b.args, ∃ a', c.apply a = .ok a' := by
  intro a ha
  obtain ⟨i, hi, rfl⟩ := List.getElem_of_mem ha
  exact ⟨_, h.get hi (h.length_eq ▸ hi)⟩

/-- An argument is found at one index on both sides. -/
theorem Carries.get (h : c.Carries b args) (index : Int) :
    (b.get index).bind c.apply = ({ b with args } : Bindings).get index := by
  have hlen : b.args.length = args.length := List.Forall₂.length_eq h
  unfold Bindings.get
  dsimp only
  rw [← hlen]
  by_cases hover : (b.args.length : Int) ≤ index
  · rw [if_pos hover, if_pos hover]
    rfl
  rw [if_neg hover, if_neg hover]
  by_cases hneg : index < 0
  · rw [if_pos hneg, if_pos hneg]
    rfl
  rw [if_neg hneg, if_neg hneg]
  have hi : index.toNat < b.args.length := by omega
  rw [List.getD_eq_getElem _ _ hi, List.getD_eq_getElem _ _ (hlen ▸ hi)]
  exact List.Forall₂.get h hi (hlen ▸ hi)

theorem Carries.lookup (h : c.Carries b args) (x : TypeRef) :
    (b.lookup x).bind c.apply = ({ b with args } : Bindings).lookup x := by
  cases x with
  | absent => rfl
  | node kind name inner position param owner =>
      rw [Bindings.lookup, Bindings.lookup]
      by_cases hk : kind ≠ .parameter ∨ position < 0
      · rw [if_pos hk, if_pos hk]
        rfl
      rw [if_neg hk, if_neg hk]
      split
      · split
        · rfl
        · exact h.get _
      · split
        · exact h.get _
        · rfl

theorem Carries.applyEach (h : c.Carries b args) {ts : List TypeRef}
    (hts : ∀ t ∈ ts, (b.apply t).bind c.apply = ({ b with args } : Bindings).apply t) :
    (b.applyEach ts).bind c.applyEach = ({ b with args } : Bindings).applyEach ts := by
  induction ts with
  | nil => rfl
  | cons t ts ih =>
      obtain ⟨ht, hts⟩ := List.forall_mem_cons.mp hts
      rw [Bindings.applyEach, Bindings.applyEach, ← ht, ← ih hts]
      cases hone : b.apply t with
      | error f => rfl
      | ok r =>
          -- The second substitution succeeds on `r`, so a failure further on is the first one.
          obtain ⟨r', hr'⟩ := apply_applied h.total t hone
          cases b.applyEach ts with
          | error f => simp [Except.bind, hr']
          | ok rs => simp [Except.bind, Bindings.applyEach, hr']

/-- Two substitutions in a row are one. -/
theorem Carries.apply (h : c.Carries b args) (t : TypeRef) :
    (b.apply t).bind c.apply = ({ b with args } : Bindings).apply t := by
  induction t using TypeRef.induction with
  | absent => rfl
  | node kind name inner position param owner ih =>
      by_cases hp : kind = .parameter
      · subst hp
        rw [apply_parameter, apply_parameter, h.lookup]
      by_cases hi : kind = .inst
      · subst hi
        rw [apply_inst, apply_inst, ← h.applyEach ih]
        cases heach : b.applyEach inner with
        | error f => rfl
        | ok inner' =>
            cases hany : TypeRef.anyParameter inner with
            | false =>
                rw [eq_self_of_applyEach heach hany]
                show c.apply (.node .inst name inner position param owner) = _
                rw [apply_inst, hany]
                rfl
            | true =>
                show c.apply (.applied name inner')
                  = (c.applyEach inner').map (TypeRef.applied name)
                rw [TypeRef.applied, apply_inst]
                cases heach' : c.applyEach inner' with
                | error f => rfl
                | ok inner'' =>
                    -- What no parameter is left in stands as it is after the first substitution.
                    cases hany' : TypeRef.anyParameter inner' with
                    | true => rfl
                    | false =>
                        rw [eq_self_of_applyEach heach' hany']
                        rfl
      · rw [apply_other b hp hi, apply_other _ hp hi]
        exact apply_other c hp hi ..

/-! ## Chains -/

/-- The bindings that do the work of `b` and of `c` behind it, if `c` binds every argument. -/
def andThen (b c : Bindings) : Except SubstFailure Bindings :=
  (c.applyEach b.args).map fun args => { b with args }

/-- The bindings that do the work of `b` and of the others behind it. -/
def composed (b : Bindings) (bs : List Bindings) : Except SubstFailure Bindings :=
  bs.foldlM andThen b

/-- One substitution after another. -/
def through (bs : List Bindings) (t : TypeRef) : Except SubstFailure TypeRef :=
  bs.foldlM (fun t b => b.apply t) t

theorem andThen_eq_ok_iff {d : Bindings} :
    b.andThen c = .ok d ↔ ∃ args, c.Carries b args ∧ d = { b with args } := by
  unfold andThen Carries
  simp only [← applyEach_eq_ok_iff]
  cases c.applyEach b.args with
  | error f => simp [Except.map]
  | ok args => simp [Except.map, eq_comm]

theorem through_cons (b : Bindings) (bs : List Bindings) (t : TypeRef) :
    through (b :: bs) t = (b.apply t).bind (through bs) := List.foldlM_cons ..

theorem composed_cons (b c : Bindings) (bs : List Bindings) :
    composed b (c :: bs) = (b.andThen c).bind fun d => composed d bs := List.foldlM_cons ..

/-- A chain of substitutions is one substitution, by the composed bindings. -/
theorem through_of_composed : ∀ {bs : List Bindings} {b c : Bindings}, composed b bs = .ok c →
    ∀ t, through (b :: bs) t = c.apply t
  | [], b, c, h, t => by
      cases h
      rw [through_cons]
      cases b.apply t <;> rfl
  | d :: bs, b, c, h, t => by
      rw [composed_cons] at h
      cases hone : b.andThen d with
      | error f => rw [hone] at h; cases h
      | ok b' =>
          rw [hone] at h
          obtain ⟨args, hcarries, rfl⟩ := andThen_eq_ok_iff.mp hone
          have htwo := hcarries.apply t
          rw [← through_of_composed h, through_cons, through_cons, ← htwo]
          cases b.apply t <;> rfl

/-- What is carried through one row of bindings and then through others, is carried through all. -/
theorem Carries.through {bs : List Bindings} {args' : List TypeRef} (h : c.Carries b args)
    (hrest : List.Forall₂ (fun a a' => through bs a = .ok a') args args') :
    List.Forall₂ (fun a a' => Bindings.through (c :: bs) a = .ok a') b.args args' := by
  have hlen : b.args.length = args.length := List.Forall₂.length_eq h
  refine List.forall₂_of_length_eq_of_get (hlen.trans hrest.length_eq) ?_
  intro i hi hi'
  rw [through_cons, List.Forall₂.get h hi (hlen ▸ hi)]
  exact hrest.get (hlen ▸ hi) hi'

/-- The composed bindings have the arguments of the first, carried through the others. -/
theorem composed_eq_ok {bs : List Bindings} : ∀ {b c : Bindings}, composed b bs = .ok c →
    ∃ args, List.Forall₂ (fun a a' => through bs a = .ok a') b.args args ∧
      c = { b with args } := by
  induction bs with
  | nil =>
      intro b c h
      cases h
      exact ⟨b.args, List.forall₂_same.mpr fun a _ => rfl, rfl⟩
  | cons d bs ih =>
      intro b c h
      rw [composed_cons] at h
      cases hone : b.andThen d with
      | error f => rw [hone] at h; cases h
      | ok b' =>
          rw [hone] at h
          obtain ⟨args, hcarries, rfl⟩ := andThen_eq_ok_iff.mp hone
          obtain ⟨args', hrest, rfl⟩ := ih h
          exact ⟨args', hcarries.through hrest, rfl⟩

/-- Where a chain is split makes no difference: its parts, composed each on its own, compose to the
whole. -/
theorem composed_split {b c d c₂ : Bindings} {xs ys : List Bindings}
    (h : composed b (xs ++ d :: ys) = .ok c) (h₂ : composed d ys = .ok c₂) :
    ∃ c₁, composed b xs = .ok c₁ ∧ c₁.andThen c₂ = .ok c := by
  have happend : composed b (xs ++ d :: ys)
      = (composed b xs).bind fun c₁ => composed c₁ (d :: ys) :=
    List.foldlM_append ..
  rw [happend] at h
  cases hfirst : composed b xs with
  | error f => rw [hfirst] at h; cases h
  | ok c₁ =>
      rw [hfirst] at h
      obtain ⟨args, hargs, rfl⟩ := composed_eq_ok h
      refine ⟨c₁, rfl, andThen_eq_ok_iff.mpr ⟨args, ?_, rfl⟩⟩
      simpa only [Carries, through_of_composed h₂] using hargs

end Bindings

/-! ## Chains of call sites -/

namespace Pair

variable {callers : MethodId → List Site} {sites : List Site} {p q : Pair}

/-- The call sites lead from one pair to another: each of them calls the method of the pair that the
ones before it lead to, and carries the type of that pair over to its caller. -/
inductive Route (callers : MethodId → List Site) : List Site → Pair → Pair → Prop where
  | nil (p : Pair) : Route callers [] p p
  | snoc {sites : List Site} {site : Site} {p q r : Pair} (h : Route callers sites p q)
      (hsite : site ∈ callers q.entry)
      (happly : (Bindings.ofSite site.ref).apply q.type = .ok r.type)
      (hentry : r.entry = site.caller) : Route callers (sites ++ [site]) p r

/-- A chain of steps runs along call sites, and call sites that lead on make a chain. -/
theorem chain_iff_route {n : Nat} :
    Chain callers (fun _ => True) n p q ↔
      ∃ sites : List Site, sites.length = n ∧ Route callers sites p q := by
  constructor
  · intro h
    induction h with
    | refl p => exact ⟨[], rfl, .nil p⟩
    | snoc _ _ hs ih =>
        obtain ⟨sites, hlen, hroute⟩ := ih
        obtain ⟨site, hsite, happly, hentry⟩ := hs
        exact ⟨sites ++ [site], by simp [hlen], .snoc hroute hsite happly hentry⟩
  · rintro ⟨sites, rfl, h⟩
    induction h with
    | nil p => exact .refl p
    | @snoc sites site p q r _ hsite happly hentry ih =>
        rw [List.length_append]
        exact .snoc ih trivial ⟨site, hsite, happly, hentry⟩

/-- Walking along call sites is substituting their bindings one after another. -/
theorem Route.through (h : Route callers sites p q) :
    Bindings.through (sites.map fun s => Bindings.ofSite s.ref) p.type = .ok q.type := by
  induction h with
  | nil p => rfl
  | snoc _ _ happly _ ih =>
      rw [Bindings.through] at ih ⊢
      rw [List.map_append, List.foldlM_append, ih, List.map_singleton]
      show List.foldlM _ _ _ = _
      rw [List.foldlM_cons, happly]
      rfl

end Pair

namespace Bindings

/-- **Substitutions along a chain compose.**

* If `c` has a substitution for every argument of `b`, then `b` and `c` in a row do what the
  arguments so obtained do under the type arity of `b`: they fail on the same references, for the
  same reason, and return the same result on all others.
* A chain of bindings that compose is one substitution by the composed bindings, wherever the chain
  is split: parts that compose on their own compose to the whole.
* A chain of `n` steps of the walk runs along `n` call sites, and along call sites whose bindings
  compose, the composed bindings carry the type of the first pair to that of the last. -/
theorem apply_composes :
    (∀ (b c : Bindings) (args : List TypeRef),
      List.Forall₂ (fun a a' => c.apply a = .ok a') b.args args →
      ∀ t, (b.apply t).bind c.apply = ({ b with args } : Bindings).apply t) ∧
    (∀ (b c : Bindings) (bs : List Bindings), composed b bs = .ok c →
      (∀ t, through (b :: bs) t = c.apply t) ∧
      ∀ xs d ys c₂, bs = xs ++ d :: ys → composed d ys = .ok c₂ →
        ∃ c₁, composed b xs = .ok c₁ ∧ c₁.andThen c₂ = .ok c) ∧
    ∀ (callers : MethodId → List Site) (p q : Pair),
      (∀ n, Pair.Chain callers (fun _ => True) n p q ↔
        ∃ sites : List Site, sites.length = n ∧ Pair.Route callers sites p q) ∧
      ∀ site rest c, Pair.Route callers (site :: rest) p q →
        composed (ofSite site.ref) (rest.map fun s => ofSite s.ref) = .ok c →
        c.apply p.type = .ok q.type := by
  refine ⟨?_, ?_, ?_⟩
  · intro b c args hcarries t
    exact Carries.apply hcarries t
  · intro b c bs hcomposed
    refine ⟨through_of_composed hcomposed, ?_⟩
    rintro xs d ys c₂ rfl h₂
    exact composed_split hcomposed h₂
  · intro callers p q
    refine ⟨fun n => Pair.chain_iff_route, ?_⟩
    intro site rest c hroute hcomposed
    rw [← through_of_composed hcomposed]
    exact hroute.through

end Bindings

namespace Sample

/-- A call of `Pair<U, T>.Make<Box<T>>` as it stands in `Container<T>.Method<U>`. -/
def pairCall : MethodRef :=
  let t := TypeRef.typeParam "T" 0 "App.Container`1"
  let u := TypeRef.methodParam "U" 0 "App.Container`1::Method"
  callTo (.applied "App.Pair`2" [u, t]) "Make" 1 true [] [.applied "App.Box`1" [t]]

/-- `Pair<B, V>` as it stands in `Pair<A, B>.Make<V>`. -/
def madePair : TypeRef :=
  .applied "App.Pair`2"
    [.typeParam "B" 1 "App.Pair`2", .methodParam "V" 0 "App.Pair`2::Make"]

/-- A call of a method of `Host` in the method of `Host` at an index. -/
def relaySite (name : Text) (arg : TypeRef) (caller : Nat) : Site :=
  { ref := callTo (.define "App.Host") name 1 true [] [arg],
    caller := { type := 2, index := caller } }

/-- The calls that lead from `A` by way of `C` and `D` to `Main`. -/
def relayRoute : List Site :=
  [relaySite "A" (.methodParam "T" 0 "App.Host::C") 2,
    relaySite "C" (.methodParam "T" 0 "App.Host::D") 3, relaySite "D" foo 4]

end Sample

open Sample in
/-- Two call sites with different type arities, and a chain of three call sites that is split behind
the first. -/
theorem Bindings.apply_composes_calls :
    let args := [bar, foo, TypeRef.applied "App.Box`1" [foo]]
    let b : Bindings := { args := [.methodParam "T" 0 "App.Host::C"] }
    let d : Bindings := { args := [.methodParam "T" 0 "App.Host::D"] }
    let y : Bindings := { args := [foo] }
    let callers := (Engine.ofModules [some relay.module] 4).callers
    let main : Pair := { type := .applied "App.Box`1" [foo], entry := { type := 2, index := 4 } }
    List.Forall₂ (fun a a' => (ofSite methodCall).apply a = .ok a') (ofSite pairCall).args args ∧
      ((ofSite pairCall).apply madePair).bind (ofSite methodCall).apply
        = .ok (.applied "App.Pair`2" [foo, .applied "App.Box`1" [foo]]) ∧
      (relayRoute.map fun s => ofSite s.ref) = [b, d, y] ∧ composed b [d, y] = .ok y ∧
      composed d [y] = .ok y ∧ (∃ c, composed b [] = .ok c ∧ c.andThen y = .ok y) ∧
      Pair.Route callers relayRoute (relayPair "App.Host::A" 0) main ∧
      y.apply (relayPair "App.Host::A" 0).type = .ok main.type := by
  intro args b d y callers main
  obtain ⟨htwo, hchain, hsites⟩ := apply_composes
  have hcarries : List.Forall₂ (fun a a' => (ofSite methodCall).apply a = .ok a')
      (ofSite pairCall).args args := .cons rfl (.cons rfl (.cons rfl .nil))
  have hroute : Pair.Route callers relayRoute (relayPair "App.Host::A" 0) main := by
    refine .snoc (q := relayPair "App.Host::D" 3) (.snoc (q := relayPair "App.Host::C" 2)
      (.snoc (.nil _) ?_ rfl rfl) ?_ rfl rfl) ?_ rfl rfl
    · exact .tail _ (.head _)
    · exact .head _
    · exact .head _
  refine ⟨hcarries, (htwo _ _ _ hcarries madePair).trans rfl, rfl, rfl, rfl, ?_, hroute, ?_⟩
  · exact (hchain b y [d, y] rfl).2 [] d [y] y rfl rfl
  · exact (hsites callers _ _).2 _ _ y hroute rfl

end Monomorph
