import Monomorph.Proofs.Completeness
import Monomorph.Proofs.Pooled
import Monomorph.Proofs.Relabel

/-!
# The order of the modules

Listing the modules of a program in another order renumbers its methods and reorders their call
sites. A chain of call sites survives that, and so does what the pool makes of a pair. What does not
survive is where a walk is cut: the pair at which a cycle of calls is met again depends on the order
of the call sites, and so does the declaring type that the cut pair is bound with
(`order_decides`).

The ends that are no cuts are the same in every order (`Engine.settles_of_relabels`), so the order
decides nothing in a program that is resolved without cuts. For that the keys of pairs have to be
readable, since the walk takes pairs with one key for one pair.
-/

namespace Monomorph

/-- The references in the code and the base types of a program can be read back from their keys. -/
structure Readable (modules : List (Option Module)) : Prop where
  code : ∀ i ∈ Pool.instructions (Registry.ofModules modules).definitions, ∀ t ∈ i.refs,
    t.Obeys (.readable True)
  base : ∀ d ∈ (Registry.ofModules modules).definitions, d.head.base.Obeys (.readable True)

section Decidable

instance : Decidable (Rules.readable True).hole := inferInstanceAs (Decidable True)

instance (name : Text) (n : Nat) : Decidable ((Rules.readable True).inst name n) :=
  inferInstanceAs (Decidable
    (Text.Plain name ∧ name.head? ≠ some 33 ∧ (True → name ≠ []) ∧ n ≠ 0))

instance (kind : TypeKind) (name : Text) (position : Int64) (param : ParamKind) (owner : Text) :
    Decidable ((Rules.readable True).leaf kind name position param owner) :=
  inferInstanceAs (Decidable
    (kind = .definition ∧ Text.Plain name ∧ name.head? ≠ some 33 ∧ (True → name ≠ []) ∨
      kind = .parameter ∧ (param = .type ∨ param = .method) ∧ 0 ≤ position.toInt ∧
        Text.Plain owner))

instance (modules : List (Option Module)) : Decidable (Readable modules) :=
  decidable_of_iff
    ((∀ i ∈ Pool.instructions (Registry.ofModules modules).definitions, ∀ t ∈ i.refs,
        t.Obeys (.readable True)) ∧
      ∀ d ∈ (Registry.ofModules modules).definitions, d.head.base.Obeys (.readable True))
    ⟨fun h => ⟨h.1, h.2⟩, fun h => ⟨h.code, h.base⟩⟩

instance (m m' : Option Module) : Decidable (Registry.Apart m m') :=
  inferInstanceAs (Decidable
    (∀ d ∈ (m.map Module.definitions).getD [], ∀ d' ∈ (m'.map Module.definitions).getD [],
      d.fullName ≠ d'.fullName))

end Decidable

namespace Readable

variable {modules modules' : List (Option Module)}

theorem perm (h : Readable modules) (hperm : modules.Perm modules') : Readable modules' := by
  have hdefs : ∀ d, d ∈ (Registry.ofModules modules').definitions →
      d ∈ (Registry.ofModules modules).definitions := by
    intro d hd
    obtain ⟨m, hm, hd⟩ := Registry.mem_definitions_iff.mp hd
    exact Registry.mem_definitions_iff.mpr ⟨m, hperm.mem_iff.mpr hm, hd⟩
  refine ⟨fun i hi => h.code i ?_, fun d hd => h.base d (hdefs d hd)⟩
  obtain ⟨d, hd, hcode⟩ := Registry.runs_iff.mpr hi
  exact Registry.runs_iff.mp ⟨d, hdefs d hd, hcode⟩

theorem chain (h : Readable modules) {maxDepth : Nat} {seeds : List Text} {c : CallRef}
    (hc : c ∈ CallRef.collect (Registry.ofModules modules) seeds) {p : Pair}
    (hp : p.type = c.type) {via : Pair → Prop} {n : Nat} {q : Pair}
    (hchain : Pair.Chain (Engine.ofModules modules maxDepth).callers via n p q) :
    q.type.Obeys (.readable True) :=
  hchain.obeys (Engine.siteArgs_obey h.code maxDepth) (hp ▸ CallRef.seed_obeys h.code hc)

theorem pooled (h : Readable modules) {t : TypeRef} (ht : t ∈ (Pool.ofModules modules).types) :
    t.Obeys (.readable True) := by
  obtain ⟨-, ⟨i, hi, hti⟩ | ⟨d, hd, rfl⟩⟩ := Pool.origin_of_mem_ofModules ht
  · refine h.code i (Registry.runs_iff.mp hi) t ?_
    rcases hti with rfl | ⟨r, hr, rfl⟩
    · exact List.mem_cons_self ..
    · simp [Instruction.refs, hr]
  · exact h.base d hd

/-- In another order the pool holds the same trees. -/
theorem exists_pooled (h : Readable modules) (hperm : modules.Perm modules') {t : TypeRef}
    (ht : t ∈ (Pool.ofModules modules).types) :
    ∃ t' ∈ (Pool.ofModules modules').types, t.tree = t'.tree := by
  have hname : t.fullName ∈ (Pool.ofModules modules').names := by
    obtain ⟨m, hm, hname⟩ := Pool.mem_names_ofModules.mp (List.mem_map_of_mem ht)
    exact Pool.mem_names_ofModules.mpr ⟨m, hperm.mem_iff.mp hm, hname⟩
  obtain ⟨t', ht', hname⟩ := List.mem_map.mp hname
  refine ⟨t', ht', TypeRef.tree_eq_of_key_eq (h.pooled ht) ((h.perm hperm).pooled ht') ?_⟩
  rw [← TypeRef.fullName_eq_key_of_isConcrete ((Pool.proper_ofModules modules).concrete t ht),
    ← TypeRef.fullName_eq_key_of_isConcrete ((Pool.proper_ofModules modules').concrete t' ht'),
    hname]

end Readable

/-! ## Binding sees only trees -/

/-- References with one tree have base types with one tree. -/
theorem Registry.baseType?_tree {r : Registry} {t o b : TypeRef} (h : t.tree = o.tree)
    (hb : r.baseType? t = .ok (some b)) :
    ∃ b', r.baseType? o = .ok (some b') ∧ b.tree = b'.tree := by
  obtain ⟨hinst, hname, hshape⟩ := TypeRef.shape_eq_of_tree_eq h
  unfold baseType? resolveType? at hb ⊢
  rw [← hname, ← hinst]
  split at hb
  · cases hb
  · rename_i d hd
    split at hb
    · cases hb
    · rename_i hpresent
      rw [if_neg hpresent]
      split at hb
      · rename_i hplain
        rw [if_pos hplain]
        cases hb
        exact ⟨_, rfl, rfl⟩
      · rename_i hargs
        rw [if_neg hargs]
        split at hb
        · cases hb
        · rename_i hreach
          rw [if_neg hreach]
          cases hb
          exact ⟨_, rfl, TypeRef.fillIn_tree_eq (hshape (by simpa using hargs)).2 _⟩

namespace Engine

variable {e e' : Engine}

theorem argsFor_tree (hbase : ∀ t, e'.registry.baseType? t = e.registry.baseType? t)
    {declaring : Text} {args : List TypeRef} : ∀ {left : Nat} {t o : TypeRef}, t.tree = o.tree →
      e.argsFor declaring left t = .ok (some args) →
        ∃ args', e'.argsFor declaring left o = .ok (some args') ∧
          args.map TypeRef.tree = args'.map TypeRef.tree
  | 0, _, _, _, h => by cases h
  | left + 1, t, o, htree, h => by
      obtain ⟨hinst, -, hshape⟩ := TypeRef.shape_eq_of_tree_eq htree
      have hfound : (o.isInstance && o.name == declaring)
          = (t.isInstance && t.name == declaring) := by
        rw [← hinst]
        cases ht : t.isInstance with
        | false => rfl
        | true => rw [(hshape ht).1]
      rw [argsFor] at h ⊢
      rw [hfound, hbase]
      split at h
      · rename_i hcond
        rw [if_pos hcond]
        cases h
        rw [Bool.and_eq_true] at hcond
        exact ⟨_, rfl, (hshape hcond.1).2⟩
      · rename_i hcond
        rw [if_neg hcond]
        split at h
        · cases h
        · cases h
        · rename_i b hb
          obtain ⟨b', hb', hbtree⟩ := Registry.baseType?_tree htree hb
          rw [hb']
          exact argsFor_tree hbase hbtree h

theorem bindTypeArgs_tree {t o r : TypeRef} {args args' : List TypeRef} (h : t.tree = o.tree)
    (hargs : args.map TypeRef.tree = args'.map TypeRef.tree)
    (hr : bindTypeArgs t args = .ok (some r)) :
    ∃ r', bindTypeArgs o args' = .ok (some r') ∧ r.tree = r'.tree := by
  obtain ⟨happly, hconc⟩ := bindTypeArgs_some hr
  have hlen : args.length = args'.length := by simpa using congrArg List.length hargs
  have hb : (Bindings.ofTypeArgs args).tree = (Bindings.ofTypeArgs args').tree := by
    simp only [Bindings.tree, Bindings.ofTypeArgs, hargs, hlen]
  obtain ⟨r', hr', htree⟩ := Bindings.apply_trees_eq hb h happly
  refine ⟨r', ?_, htree⟩
  have hconc' : r'.isConcrete = true := (TypeRef.isConcrete_eq_of_tree_eq htree).symm.trans hconc
  simp only [bindTypeArgs, hr', hconc', if_true]

theorem bindWith_tree (hbase : ∀ t, e'.registry.baseType? t = e.registry.baseType? t)
    {declaring : Text} {t o c c' r : TypeRef} (h : t.tree = o.tree) (hc : c.tree = c'.tree)
    (hr : e.bindWith declaring t c = .ok (some r)) :
    ∃ r', e'.bindWith declaring o c' = .ok (some r') ∧ r.tree = r'.tree := by
  obtain ⟨args, hargs, hbind⟩ := bindWith_some hr
  obtain ⟨args', hargs', htrees⟩ := argsFor_tree hbase hc hargs
  obtain ⟨r', hr', htree⟩ := bindTypeArgs_tree h htrees hbind
  exact ⟨r', by simp only [bindWith, hargs', hr'], htree⟩

end Engine

/-- A chain can be started from any pair with the same tree. -/
theorem Pair.Chain.alike {callers : MethodId → List Site} {n : Nat} {p q p' : Pair}
    (h : Pair.Chain callers Pair.Generic n p q) (hp : p.Alike p') :
    ∃ q', Pair.Chain callers Pair.Generic n p' q' ∧ q.Alike q' := by
  induction h with
  | refl p => exact ⟨p', .refl p', hp⟩
  | snoc _ hq hstep ih =>
      obtain ⟨q', hchain, halike⟩ := ih hp
      obtain ⟨site, hsite, happly, hentry⟩ := hstep
      obtain ⟨t, ht, htree⟩ := Bindings.apply_tree_eq halike.type happly
      have hgeneric := (TypeRef.isConcrete_eq_of_tree_eq halike.type).symm.trans hq
      rw [halike.entry] at hsite
      exact ⟨{ type := t, entry := site.caller },
        .snoc hchain hgeneric ⟨site, hsite, ht, rfl⟩, htree, hentry⟩

/-! ## Ends that are no cuts -/

namespace Engine

/-- The walk of a seed ends on a pair that nothing can follow, and the pair contributes a type of
that name. -/
def Settles (e : Engine) (calls : List CallRef) (name : Text) : Prop :=
  ∃ c ∈ calls, ∃ seed, pair? c = some seed ∧
    ∃ p ∈ Walk.finals e.callers e.maxDepth seed, Walk.Terminal e.callers p ∧
      ∃ t, e.Gives p t ∧ t.fullName = name

theorem Outcome.mem_of_settles {e : Engine} {calls : List CallRef} {types : List TypeRef}
    (h : e.Outcome calls types) {name : Text} (hname : e.Settles calls name) :
    name ∈ types.map TypeRef.fullName := by
  obtain ⟨c, hc, seed, hseed, p, hp, -, hgives⟩ := hname
  exact (h.mem_names name).mpr ⟨c, hc, seed, hseed, p, hp, hgives⟩

theorem pair?_eq_some_iff {c : CallRef} {p : Pair} :
    pair? c = some p ↔ c.type.isPresent = true ∧ c.entry = some p.entry ∧ p.type = c.type := by
  unfold pair?
  split
  · rename_i hpresent
    rw [Option.map_eq_some_iff]
    constructor
    · rintro ⟨id, hid, rfl⟩
      exact ⟨hpresent, hid, rfl⟩
    · rintro ⟨-, hid, htype⟩
      exact ⟨p.entry, hid, by rw [← htype]⟩
  · rename_i hmissing
    simp [hmissing]

/-- Every end of a seed's walk binds when the seed resolves. -/
theorem Outcome.bindFromPool_ok {e : Engine} {calls : List CallRef} {types : List TypeRef}
    (h : e.Outcome calls types) {c : CallRef} (hc : c ∈ calls) {seed : Pair}
    (hseed : pair? c = some seed) {p : Pair}
    (hp : p ∈ Walk.finals e.callers e.maxDepth seed) (hgen : p.Generic) :
    ∃ ts, e.bindFromPool p = .ok ts := by
  obtain ⟨ts, ⟨seed', stats, hseed', hres⟩, -⟩ := h.named c hc
  obtain rfl : seed' = seed := Option.some.inj (hseed'.symm.trans hseed)
  obtain ⟨bound, dropped, hfinals⟩ := bindFinals_of_resolveSeed hres
  exact bindFromPool_of_bindFinals hfinals p hp hgen

end Engine

/-- Without cuts every end is one that nothing can follow. -/
theorem settles_of_uncut {modules : List (Option Module)} {calls : List CallRef} {maxDepth : Nat}
    {out : Resolution} (h : resolveProgram modules calls maxDepth = .ok out)
    (hdepth : out.stats.depth = 0) (hcycles : out.stats.cycles = 0) {name : Text}
    (hname : name ∈ out.types.map TypeRef.fullName) :
    (Engine.ofModules modules maxDepth).Settles calls name := by
  obtain ⟨c, hc, seed, hseed, p, hp, hgives⟩ := ((resolveProgram_outcome h).mem_names name).mp hname
  obtain ⟨hwalk, hwalk'⟩ := resolveProgram_cuts h hc hseed
  have hterminal := Walk.terminal_of_mem_finals (hwalk hdepth) (hwalk' hcycles) hp
  exact ⟨c, hc, seed, hseed, p, hp, hterminal, hgives⟩

section Order

variable {modules modules' : List (Option Module)} {ρ : Nat ≃ Nat} {maxDepth : Nat}
  {seeds : List Text}

/-- A collected seed is collected under its new number in the other order. -/
theorem Readable.exists_seed (hread : Readable modules) (hperm : modules.Perm modules')
    (h : (Registry.ofModules modules).Relabels (Registry.ofModules modules') ρ) {c : CallRef}
    (hc : c ∈ CallRef.collect (Registry.ofModules modules) seeds) {seed : Pair}
    (hseed : Engine.pair? c = some seed) :
    ∃ c' ∈ CallRef.collect (Registry.ofModules modules') seeds, ∃ seed',
      Engine.pair? c' = some seed' ∧ seed'.type = c'.type ∧ (seed.move ρ).Alike seed' := by
  obtain ⟨c', hc', hequal⟩ :=
    CallRef.exists_mem_collect (h.seeds (CallRef.seeds_of_mem_collect hc))
  obtain ⟨seed', hseed', htype'⟩ := CallRef.pair?_of_mem_collect hc'
  obtain ⟨-, hentry, htype⟩ := Engine.pair?_eq_some_iff.mp hseed
  obtain ⟨-, hentry', -⟩ := Engine.pair?_eq_some_iff.mp hseed'
  refine ⟨c', hc', seed', hseed', htype', ?_⟩
  obtain ⟨hkey, hmoved⟩ : c.type.key = c'.type.key ∧
      c.entry.map (MethodId.move ρ) = c'.entry := by
    simpa [CallRef.equal, CallRef.move] using hequal
  rw [hentry, hentry', Option.map_some, Option.some.injEq] at hmoved
  refine ⟨?_, hmoved⟩
  have htree := TypeRef.tree_eq_of_key_eq (CallRef.seed_obeys hread.code hc)
    (CallRef.seed_obeys (hread.perm hperm).code hc') hkey
  rw [htype', ← htree, ← htype]
  rfl

/-- What the pool makes of a pair, it makes of the pair at its new number in the other order. -/
theorem Readable.gives (hread : Readable modules) (hperm : modules.Perm modules')
    (h : (Registry.ofModules modules).Relabels (Registry.ofModules modules') ρ) {p p' : Pair}
    (halike : (p.move ρ).Alike p')
    (hbind : p'.Generic → ∃ ts, (Engine.ofModules modules' maxDepth).bindFromPool p' = .ok ts)
    {t : TypeRef} (ht : (Engine.ofModules modules maxDepth).Gives p t) :
    ∃ t', (Engine.ofModules modules' maxDepth).Gives p' t' ∧ t.fullName = t'.fullName := by
  have htree : p.type.tree = p'.type.tree := halike.type
  have hsame := TypeRef.isConcrete_eq_of_tree_eq htree
  rcases ht with ⟨hconc, rfl⟩ | ⟨hgen, more, hmore, ht⟩
  · exact ⟨p'.type, Or.inl ⟨hsame.symm.trans hconc, rfl⟩,
      TypeRef.fullName_eq_of_tree_eq htree hconc⟩
  · have hgen' : p'.Generic := hsame.symm.trans hgen
    obtain ⟨more', hmore'⟩ := hbind hgen'
    obtain ⟨d, hd, hdgen, c, hc, hr⟩ := (Engine.mem_bindFromPool_iff hmore).mp ht
    have hd' : (Registry.ofModules modules').declaring? p'.entry = some d := by
      rw [← halike.entry]
      exact (h.declaring? p.entry).trans hd
    obtain ⟨c', hc', hctree⟩ := hread.exists_pooled hperm hc
    have hbase : ∀ u, (Engine.ofModules modules' maxDepth).registry.baseType? u
        = (Engine.ofModules modules maxDepth).registry.baseType? u := h.baseType?
    obtain ⟨t', ht', httree⟩ := Engine.bindWith_tree hbase htree hctree hr
    obtain ⟨args, -, hargs⟩ := Engine.bindWith_some hr
    refine ⟨t', (Engine.gives_generic hgen' hmore').mpr ?_, ?_⟩
    · exact (Engine.mem_bindFromPool_iff hmore').mpr ⟨d, hd', hdgen, c', hc', ht'⟩
    · exact TypeRef.fullName_eq_of_tree_eq httree (Engine.bindTypeArgs_some hargs).2

/-- **What is settled in one order is settled in the other**, if no chain of the other is cut at the
depth limit. -/
theorem Readable.settles (hread : Readable modules) (hperm : modules.Perm modules')
    (h : (Registry.ofModules modules).Relabels (Registry.ofModules modules') ρ) {out' : Resolution}
    (hout' : resolveProgram modules'
      (CallRef.collect (Registry.ofModules modules') seeds) maxDepth = .ok out')
    (hdepth : out'.stats.depth = 0) {name : Text}
    (hname : (Engine.ofModules modules maxDepth).Settles
      (CallRef.collect (Registry.ofModules modules) seeds) name) :
    (Engine.ofModules modules' maxDepth).Settles
      (CallRef.collect (Registry.ofModules modules') seeds) name := by
  obtain ⟨c, hc, seed, hseed, p, hp, hterminal, t, hgives, rfl⟩ := hname
  obtain ⟨c', hc', seed', hseed', htype', hstart⟩ := hread.exists_seed hperm h hc hseed
  -- The chain to the end is carried over to the new numbers and to the seed collected there.
  obtain ⟨n, -, hchain⟩ := Walk.chain_of_mem_finals hp
  obtain ⟨q, hchain', hpq⟩ := (h.chain (hchain.imp fun _ hx => hx.generic)).alike hstart
  have hmoved : Walk.Terminal (Engine.ofModules modules' maxDepth).callers (p.move ρ) :=
    hterminal.imp_right h.callers_eq_nil
  have hterminal' := hmoved.alike hpq.symm
  obtain ⟨p', hp', halike⟩ := Walk.alike_mem_finals
    (fun n x hx => (hread.perm hperm).chain hc' htype' hx)
    ((resolveProgram_cuts hout' hc' hseed').1 hdepth) hchain' hterminal'
  obtain ⟨t', ht', hnames⟩ := hread.gives hperm h (hpq.trans halike.symm)
    ((resolveProgram_outcome hout').bindFromPool_ok hc' hseed' hp') hgives
  exact ⟨c', hc', seed', hseed', p', hp', hterminal'.alike halike, t', ht', hnames.symm⟩

end Order

/-- **The order of the modules.** Take a program whose keys can be read back and whose modules
declare no common full names, list its modules in another order, and resolve the seeds collected in
each order. Both succeed if the modules were read from bytes. If both succeed and the second cuts no
chain at the depth limit:

* every name that the first gets from an end that is no cut, the second gets from such an end;
* the names are the same if the first cuts no chain at the depth limit either and none of the two
  cuts a cycle. -/
theorem module_order (modules modules' : List (Option Module)) (hperm : modules.Perm modules')
    (hapart : modules.Pairwise Registry.Apart) (hread : Readable modules) (seeds : List Text)
    (maxDepth : Nat) :
    let calls := CallRef.collect (Registry.ofModules modules) seeds
    let calls' := CallRef.collect (Registry.ofModules modules') seeds
    (Decoded modules →
      (∃ out, resolveProgram modules calls maxDepth = .ok out) ∧
        ∃ out', resolveProgram modules' calls' maxDepth = .ok out') ∧
    ∀ out out', resolveProgram modules calls maxDepth = .ok out →
      resolveProgram modules' calls' maxDepth = .ok out' → out'.stats.depth = 0 →
        (∀ name, (Engine.ofModules modules maxDepth).Settles calls name →
          (Engine.ofModules modules' maxDepth).Settles calls' name ∧
            name ∈ out'.types.map TypeRef.fullName) ∧
        (out.stats.depth = 0 → out.stats.cycles = 0 → out'.stats.cycles = 0 →
          ∀ name, name ∈ out.types.map TypeRef.fullName ↔
            name ∈ out'.types.map TypeRef.fullName) := by
  intro calls calls'
  obtain ⟨ρ, hρ⟩ := Registry.exists_relabels hperm hapart
  refine ⟨fun hdecoded => ⟨?_, ?_⟩, ?_⟩
  · exact resolveProgram_succeeds fun c hc => hdecoded.resolves hc
  · exact resolveProgram_succeeds fun c hc => (hdecoded.perm hperm).resolves hc
  · intro out out' hout hout' hdepth'
    have hsettles : ∀ name, (Engine.ofModules modules maxDepth).Settles calls name →
        (Engine.ofModules modules' maxDepth).Settles calls' name :=
      fun name => hread.settles hperm hρ hout' hdepth'
    refine ⟨fun name hname => ⟨hsettles name hname, ?_⟩, ?_⟩
    · exact (resolveProgram_outcome hout').mem_of_settles (hsettles name hname)
    · intro hdepth hcycles hcycles' name
      constructor
      · intro hname
        exact (resolveProgram_outcome hout').mem_of_settles
          (hsettles name (settles_of_uncut hout hdepth hcycles hname))
      · intro hname
        exact (resolveProgram_outcome hout).mem_of_settles
          ((hread.perm hperm).settles hperm.symm hρ.symm hout hdepth
            (settles_of_uncut hout' hdepth' hcycles' hname))

namespace Sample

/-- `Host.Mark<T>` mentions `Box<T>`. -/
def marks : List TypeDef :=
  let seed := TypeRef.applied "App.Box`1" [.methodParam "T" 0 "App.Host::Mark"]
  [box, cls "Host" [] [staticMethod "Mark" ["T"] [withType .ldtoken seed]]]

/-- A generic class with a method `Go`, whose body is given the class's parameter. -/
def goer (name : Text) (body : TypeRef → List Instruction) : TypeDef :=
  cls name ["T"] [ctor,
    { MethodDef.new "Go" 0 [] with
      body := code (body (.typeParam "T" 0 ("App." ++ name)) ++ [plain .ret]) }]

/-- A class whose `Main` runs the instructions. -/
def starts (body : List Instruction) : TypeDef := cls "Program" [] [staticMethod "Main" [] body]

/-- Constructs the generic class of that name with one argument. -/
def make (name : Text) (t : TypeRef) : Instruction :=
  withMethod .newobj (construct (.applied ("App." ++ name) [t]))

/-- Calls `Go` on the generic class of that name with one argument. -/
def go (name : Text) (t : TypeRef) : Instruction :=
  withMethod .callvirt (callTo (.applied ("App." ++ name) [t]) "Go" 0 false [] [])

/-- `Wrapper<T>.Go` calls `Mark<T>` and nothing calls it. -/
def wrapping : Module := .new "Left" (marks ++ [goer "Wrapper`1" fun t => [hostCall "Mark" t]])

/-- `Main` calls `Mark<Foo>` and constructs `Wrapper<Bar>`. -/
def wrapped : Module :=
  .new "Right" (fooBar ++ [starts [hostCall "Mark" foo, make "Wrapper`1" bar]])

theorem decoded_wrapping : Decoded [some wrapping, some wrapped] :=
  Decoded.append (decoded_of_fileBytes (by decide +kernel))
    (decoded_of_fileBytes (by decide +kernel))

end Sample

open Sample in
/-- The chain to `Mark<Foo>` and the pool's `Wrapper<Bar>` are found in both orders, and only change
places. -/
theorem module_order_wrapping :
    [some wrapping, some wrapped].Perm [some wrapped, some wrapping] ∧
    [some wrapping, some wrapped].Pairwise Registry.Apart ∧
    Readable [some wrapping, some wrapped] ∧ Decoded [some wrapping, some wrapped] ∧
    ∃ out out', resolveProgram [some wrapping, some wrapped]
        (CallRef.collect (Registry.ofModules [some wrapping, some wrapped]) ["App.Box`1"]) 64
          = .ok out ∧
      resolveProgram [some wrapped, some wrapping]
        (CallRef.collect (Registry.ofModules [some wrapped, some wrapping]) ["App.Box`1"]) 64
          = .ok out' ∧
      out.types.map TypeRef.fullName = [("App.Box`1<App.Bar>" : Text), "App.Box`1<App.Foo>"] ∧
      out'.types.map TypeRef.fullName = [("App.Box`1<App.Foo>" : Text), "App.Box`1<App.Bar>"] ∧
      ∀ name, name ∈ out.types.map TypeRef.fullName ↔
        name ∈ out'.types.map TypeRef.fullName := by
  have hperm : [some wrapping, some wrapped].Perm [some wrapped, some wrapping] := .swap ..
  have hapart : [some wrapping, some wrapped].Pairwise Registry.Apart := by decide +kernel
  have hread : Readable [some wrapping, some wrapped] := by decide +kernel
  obtain ⟨-, hsame⟩ := module_order _ _ hperm hapart hread ["App.Box`1"] 64
  refine ⟨hperm, hapart, hread, decoded_wrapping, ?_⟩
  refine ⟨_, _, rfl, rfl, rfl, rfl, ?_⟩
  exact (hsame _ _ rfl rfl rfl).2 rfl rfl rfl

/-! ## What the order decides -/

namespace Sample

/-- `X<T>.Go` calls `Mark<T>` and `Y<T>.Go`. -/
def crossLeft : Module :=
  .new "Left" (marks ++ [goer "X`1" fun t => [hostCall "Mark" t, go "Y`1" t]])

/-- `Y<T>.Go` calls `Mark<T>` and `X<T>.Go`, and `Main` constructs `X<Foo>` and `Y<Bar>`. -/
def crossRight : Module :=
  .new "Right" (fooBar ++ [goer "Y`1" fun t => [hostCall "Mark" t, go "X`1" t],
    starts [make "X`1" foo, make "Y`1" bar]])

theorem decoded_cross : Decoded [some crossLeft, some crossRight] :=
  Decoded.append (decoded_of_fileBytes (by decide +kernel))
    (decoded_of_fileBytes (by decide +kernel))

/-- A static method with one parameter that hands it on to `Mark`. -/
def handOn (name owner : Text) : MethodDef :=
  staticMethod name ["T"] [hostCall "Mark" (.methodParam "T" 0 owner)]

/-- `Both<T>` calls `First` with `Pair<T, T>` and `Second` with a pair of `T` and a type whose name
is the key of `T`; `Main` calls `Both<Foo>`. -/
def twinLeft : Module :=
  let t := TypeRef.methodParam "T" 0 "App.Twin::Both"
  let pair (u : TypeRef) := TypeRef.applied "App.Pair`2" [u, t]
  let call (host name : Text) (u : TypeRef) :=
    withMethod .call (callTo (.define host) name 1 true [] [u])
  .new "Left" (marks ++ [cls "Twin" []
    [handOn "First" "App.Twin::First",
      staticMethod "Both" ["T"]
        [call "App.Twin" "First" (pair t), call "App.Other" "Second" (pair (.define t.key))],
      staticMethod "Main" [] [call "App.Twin" "Both" foo]]])

/-- The class that declares `Second`. -/
def twinRight : Module :=
  .new "Right" (fooBar ++ [cls "Other" [] [handOn "Second" "App.Other::Second"]])

theorem decoded_twin : Decoded [some twinLeft, some twinRight] :=
  Decoded.append (decoded_of_fileBytes (by decide +kernel))
    (decoded_of_fileBytes (by decide +kernel))

end Sample

open Sample in
/-- **The order decides what is found** in two ways. Where two classes call each other, it decides
in which of them the walk is cut and whose instances in the pool the cut pair is bound with. Where a
type is named like the key of a parameter, it decides which of two pairs with one key is walked. -/
theorem order_decides :
    ([some crossLeft, some crossRight].Perm [some crossRight, some crossLeft] ∧
      [some crossLeft, some crossRight].Pairwise Registry.Apart ∧
      Readable [some crossLeft, some crossRight] ∧ Decoded [some crossLeft, some crossRight] ∧
      ∃ out out', resolveProgram [some crossLeft, some crossRight]
          (CallRef.collect (Registry.ofModules [some crossLeft, some crossRight]) ["App.Box`1"]) 64
            = .ok out ∧
        resolveProgram [some crossRight, some crossLeft]
          (CallRef.collect (Registry.ofModules [some crossRight, some crossLeft]) ["App.Box`1"]) 64
            = .ok out' ∧
        out.stats.depth = 0 ∧ out'.stats.depth = 0 ∧
        out.types.map TypeRef.fullName = [("App.Box`1<App.Foo>" : Text)] ∧
        out'.types.map TypeRef.fullName = [("App.Box`1<App.Bar>" : Text)]) ∧
    [some twinLeft, some twinRight].Perm [some twinRight, some twinLeft] ∧
      [some twinLeft, some twinRight].Pairwise Registry.Apart ∧
      Decoded [some twinLeft, some twinRight] ∧
      ∃ out out', resolveProgram [some twinLeft, some twinRight]
          (CallRef.collect (Registry.ofModules [some twinLeft, some twinRight]) ["App.Box`1"]) 64
            = .ok out ∧
        resolveProgram [some twinRight, some twinLeft]
          (CallRef.collect (Registry.ofModules [some twinRight, some twinLeft]) ["App.Box`1"]) 64
            = .ok out' ∧
        (out.stats.depth = 0 ∧ out.stats.cycles = 0) ∧
        (out'.stats.depth = 0 ∧ out'.stats.cycles = 0) ∧
        out.types.map TypeRef.fullName = [("App.Box`1<App.Pair`2<App.Foo,App.Foo>>" : Text)] ∧
        out'.types.map TypeRef.fullName
          = [("App.Box`1<App.Pair`2<!!0@App.Twin::Both,App.Foo>>" : Text)] := by
  refine ⟨⟨.swap .., by decide +kernel, by decide +kernel, decoded_cross, ?_⟩,
    .swap .., by decide +kernel, decoded_twin, ?_⟩
  · exact ⟨_, _, rfl, rfl, rfl, rfl, rfl, rfl⟩
  · exact ⟨_, _, rfl, rfl, ⟨rfl, rfl⟩, ⟨rfl, rfl⟩, rfl, rfl⟩

end Monomorph
