import Monomorph.Module.Wire
import Monomorph.Proofs.Substitution

/-!
# Texts and lists off the wire are narrow

A text or a list on the wire announces its length in at most four bytes, so no parsed text has 2^32
bytes or more, no parsed list as many items, and no reader makes a longer one, however often a field
is read on top of itself. In particular the type references of a module that was read have narrow
argument lists, whatever their kind: a later entry may still turn any node into an instance.
-/

namespace Monomorph

namespace Binary

theorem ofBigEndian_lt (bytes : List UInt8) : ofBigEndian bytes < Nat.pow 256 bytes.length := by
  have hfold : ∀ (bytes : List UInt8) (n k : Nat), n < Nat.pow 256 k →
      bytes.foldl (fun n b => n * 256 + b.toNat) n < Nat.pow 256 (k + bytes.length) := by
    intro bytes
    induction bytes with
    | nil => exact fun n k h => h
    | cons b bytes ih =>
        intro n k h
        have hb : b.toNat < 256 := b.toNat_lt
        have hstep : n * 256 + b.toNat < Nat.pow 256 (k + 1) := by
          show n * 256 + b.toNat < Nat.pow 256 k * 256
          omega
        have hrest := ih _ _ hstep
        rw [List.length_cons, Nat.add_comm bytes.length, ← Nat.add_assoc]
        exact hrest
  have hall := hfold bytes 0 0 (by decide)
  rwa [Nat.zero_add] at hall

namespace Value

/-- Every list in the value has fewer than 2^32 items, and every text fewer than 2^32 bytes. -/
inductive Narrow : Value → Prop where
  | arr {items : List Value} (h : items.length < 4294967296) (hitems : ∀ v ∈ items, Narrow v) :
      Narrow (.arr items)
  | map {entries : List (Value × Value)} (h : ∀ e ∈ entries, Narrow e.2) : Narrow (.map entries)
  | flat {v : Value} (harr : ∀ items, v ≠ .arr items) (hmap : ∀ entries, v ≠ .map entries)
      (hbytes : ∀ bytes ∈ v.bytes?, bytes.length < 4294967296) : Narrow v

theorem length_of_takeBytes? {n : Nat} {bs w rest : List UInt8}
    (h : takeBytes? n bs = some (w, rest)) : w.length = n := by
  unfold takeBytes? at h
  split at h
  · rename_i hn
    cases h
    rw [List.length_take, Nat.min_eq_left hn]
  · cases h

theorem takeNat?_lt {n k : Nat} {bs rest : List UInt8} (h : takeNat? n bs = some (k, rest)) :
    k < Nat.pow 256 n := by
  unfold takeNat? takeBytes? at h
  split at h
  · rename_i hn
    cases h
    have hlt := ofBigEndian_lt (bs.take n)
    rwa [List.length_take, Nat.min_eq_left hn] at hlt
  · cases h

/-- A length is written in at most four bytes. -/
theorem takeNat?_lt_of_le {n k : Nat} {bs rest : List UInt8} (hn : n ≤ 4)
    (h : takeNat? n bs = some (k, rest)) : k < 4294967296 :=
  Nat.lt_of_lt_of_le (takeNat?_lt h) (Nat.pow_le_pow_right (by decide) hn)

/-- What a lead byte announces holds no text and no list, or one of announced length. -/
def Lead.Narrow : Lead → Prop
  | .done v => v.Narrow
  | .word _ make => ∀ w, (make w).Narrow
  | .run size extra make => size ≤ 4 ∧ ∀ w, w.length < 4294967296 + extra → (make w).Narrow
  | .fixRun n make => ∀ w, w.length = n → (make w).Narrow
  | .list size => size ≤ 4
  | .fixList n => n < 16
  | .table _ => True
  | .fixTable _ => True

theorem narrow_str {w : List UInt8} (h : w.length < 4294967296) : (Value.str w).Narrow :=
  .flat nofun nofun fun _ hb => by cases hb; exact h

theorem narrow_bin {w : List UInt8} (h : w.length < 4294967296) : (Value.bin w).Narrow :=
  .flat nofun nofun fun _ hb => by cases hb; exact h

/-- A value without items and without bytes is narrow. -/
theorem narrow_plain {v : Value} (harr : ∀ items, v ≠ .arr items)
    (hmap : ∀ entries, v ≠ .map entries) (hbytes : ∀ bytes ∈ v.bytes?, bytes = []) : v.Narrow :=
  .flat harr hmap fun bytes hb => by rw [hbytes bytes hb]; decide

theorem lead?_narrow {b : UInt8} {l : Lead} (h : lead? b = some l) : l.Narrow := by
  unfold lead? at h
  dsimp only at h
  split at h
  · cases h
    exact narrow_plain nofun nofun nofun
  · split at h
    · cases h
      trivial
    · split at h
      · cases h
        simp only [Lead.Narrow]
        omega
      · split at h
        · cases h
          refine fun w hw => narrow_str ?_
          omega
        · split at h
          · cases h
            exact narrow_plain nofun nofun nofun
          · split at h <;> cases h
            all_goals first
              | exact narrow_plain nofun nofun (by simp [bytes?])
              | exact fun w => narrow_plain nofun nofun nofun
              | exact fun w _ => narrow_plain nofun nofun nofun
              | exact ⟨by decide, fun w hw => narrow_str hw⟩
              | exact ⟨by decide, fun w hw => narrow_bin hw⟩
              | exact ⟨by decide, fun w _ => narrow_plain nofun nofun nofun⟩
              | simp [Lead.Narrow]

mutual
theorem parseWith_narrow : ∀ {fuel : Nat} {bs rest : List UInt8} {v : Value},
    parseWith fuel bs = some (v, rest) → v.Narrow
  | 0, _, _, _, h => by simp [parseWith] at h
  | _ + 1, [], _, _, h => by simp [parseWith] at h
  | fuel + 1, b :: bs, rest, v, h => by
      rw [parseWith] at h
      cases hl : lead? b with
      | none => simp [hl] at h
      | some l =>
          have hlead := lead?_narrow hl
          rw [hl] at h
          cases l with
          | done w => cases h; exact hlead
          | word size make =>
              obtain ⟨w, -, hw⟩ := Option.map_eq_some_iff.mp h
              cases hw
              exact hlead w.1
          | fixRun n make =>
              obtain ⟨w, htake, hw⟩ := Option.map_eq_some_iff.mp h
              cases hw
              exact hlead w.1 (length_of_takeBytes? htake)
          | run size extra make =>
              dsimp only at h
              split at h
              · cases h
              · rename_i n rest' hn
                obtain ⟨w, htake, hw⟩ := Option.map_eq_some_iff.mp h
                cases hw
                have hlt := takeNat?_lt_of_le hlead.1 hn
                refine hlead.2 w.1 ?_
                rw [length_of_takeBytes? htake]
                omega
          | fixList n =>
              obtain ⟨w, hitems, hw⟩ := Option.map_eq_some_iff.mp h
              cases hw
              obtain ⟨hlen, hnarrow⟩ := parseItems_narrow hitems
              have hn : n < 16 := hlead
              exact .arr (by omega) hnarrow
          | list size =>
              dsimp only at h
              split at h
              · cases h
              · rename_i n rest' hn
                obtain ⟨w, hitems, hw⟩ := Option.map_eq_some_iff.mp h
                cases hw
                obtain ⟨hlen, hnarrow⟩ := parseItems_narrow hitems
                have hlt := takeNat?_lt_of_le hlead hn
                exact .arr (by omega) hnarrow
          | fixTable n =>
              obtain ⟨w, hentries, hw⟩ := Option.map_eq_some_iff.mp h
              cases hw
              exact .map (parseEntries_narrow hentries)
          | table size =>
              dsimp only at h
              split at h
              · cases h
              · obtain ⟨w, hentries, hw⟩ := Option.map_eq_some_iff.mp h
                cases hw
                exact .map (parseEntries_narrow hentries)

theorem parseItems_narrow : ∀ {fuel n : Nat} {bs rest : List UInt8} {vs : List Value},
    parseItems fuel n bs = some (vs, rest) → vs.length = n ∧ ∀ v ∈ vs, v.Narrow
  | _, 0, _, _, _, h => by
      rw [parseItems] at h
      cases h
      simp
  | 0, _ + 1, _, _, _, h => by simp [parseItems] at h
  | fuel + 1, n + 1, bs, rest, vs, h => by
      rw [parseItems] at h
      cases hv : parseWith fuel bs with
      | none => simp [hv] at h
      | some r =>
          rw [hv] at h
          obtain ⟨w, hitems, hw⟩ := Option.map_eq_some_iff.mp h
          cases hw
          obtain ⟨hlen, hnarrow⟩ := parseItems_narrow hitems
          refine ⟨by simp [hlen], ?_⟩
          intro v hmem
          rcases List.mem_cons.mp hmem with rfl | hmem
          · exact parseWith_narrow hv
          · exact hnarrow v hmem

theorem parseEntries_narrow : ∀ {fuel n : Nat} {bs rest : List UInt8} {es : List (Value × Value)},
    parseEntries fuel n bs = some (es, rest) → ∀ e ∈ es, e.2.Narrow
  | _, 0, _, _, _, h => by
      rw [parseEntries] at h
      cases h
      simp
  | 0, _ + 1, _, _, _, h => by simp [parseEntries] at h
  | fuel + 1, n + 1, bs, rest, es, h => by
      rw [parseEntries] at h
      cases hk : parseWith fuel bs with
      | none => simp [hk] at h
      | some k =>
          rw [hk] at h
          dsimp only at h
          cases hv : parseWith fuel k.2 with
          | none => simp [hv] at h
          | some r =>
              rw [hv] at h
              obtain ⟨w, hentries, hw⟩ := Option.map_eq_some_iff.mp h
              cases hw
              intro e hmem
              rcases List.mem_cons.mp hmem with rfl | hmem
              · exact parseWith_narrow hv
              · exact parseEntries_narrow hentries e hmem
end

theorem parse_narrow {bs rest : List UInt8} {v : Value} (h : parse bs = some (v, rest)) :
    v.Narrow := parseWith_narrow h

theorem Narrow.items {items : List Value} (h : (Value.arr items).Narrow) :
    items.length < 4294967296 ∧ ∀ v ∈ items, v.Narrow := by
  cases h with
  | arr h hitems => exact ⟨h, hitems⟩
  | flat harr _ _ => exact absurd rfl (harr items)

theorem Narrow.entries {entries : List (Value × Value)} (h : (Value.map entries).Narrow) :
    ∀ e ∈ entries, e.2.Narrow := by
  cases h with
  | map h => exact h
  | flat _ hmap _ => exact absurd rfl (hmap entries)

theorem Narrow.bytes {v : Value} (h : v.Narrow) {bytes : List UInt8} (hb : v.bytes? = some bytes) :
    bytes.length < 4294967296 := by
  cases h with
  | arr => cases hb
  | map => cases hb
  | flat _ _ hbytes => exact hbytes bytes hb

theorem eq_arr_of_items? {v : Value} {items : List Value} (h : v.items? = some (some items)) :
    v = .arr items := by
  unfold items? at h
  split at h
  · cases h
    rfl
  · cases h
  · cases h

end Value

/-! ## Records -/

variable {α : Type} {P : α → Prop} {blank : α} {read : α → Value → Option α}
  {fields : List (Field α)}

/-- Reading a narrow value on top of what satisfies `P` gives what satisfies `P`. -/
def Keeps (P : α → Prop) (read : α → Value → Option α) : Prop :=
  ∀ prev v x, v.Narrow → P prev → read prev v = some x → P x

theorem readField_keeps (hf : ∀ f ∈ fields, Keeps P f.read) {r r' : α} {name : Text} {v : Value}
    (hv : v.Narrow) (hr : P r) (h : readField fields r name v = some r') : P r' := by
  unfold readField at h
  split at h
  · rename_i f hfind
    exact hf f (List.mem_of_find?_eq_some hfind) r v r' hv hr h
  · cases h
    exact hr

theorem readEntries_keeps (hf : ∀ f ∈ fields, Keeps P f.read) {r' : α} :
    ∀ {entries : List (Value × Value)} {r : α}, (∀ e ∈ entries, e.2.Narrow) → P r →
      readEntries fields r entries = some r' → P r'
  | [], r, _, hr, h => by
      cases h
      exact hr
  | (k, v) :: es, r, hv, hr, h => by
      rw [readEntries] at h
      split at h
      · cases h
      · split at h
        · cases h
        · rename_i name _ _ hfield
          have hr' := readField_keeps hf (hv (k, v) (List.mem_cons_self ..)) hr hfield
          exact readEntries_keeps hf (fun e he => hv e (List.mem_cons_of_mem _ he)) hr' h

theorem readPositional_keeps {r' : α} : ∀ {fields : List (Field α)} {items : List Value} {r : α},
    (∀ f ∈ fields, Keeps P f.read) → (∀ v ∈ items, v.Narrow) → P r →
      readPositional fields r items = some r' → P r'
  | [], [], r, _, _, hr, h => by
      cases h
      exact hr
  | [], _ :: _, _, _, _, _, h => by simp [readPositional] at h
  | _ :: _, [], _, _, _, _, h => by simp [readPositional] at h
  | f :: fs, v :: vs, r, hf, hv, hr, h => by
      rw [readPositional] at h
      split at h
      · cases h
      · rename_i r₁ hread
        have hr₁ := hf f (List.mem_cons_self ..) r v r₁ (hv v (List.mem_cons_self ..)) hr hread
        exact readPositional_keeps (fun g hg => hf g (List.mem_cons_of_mem f hg))
          (fun w hw => hv w (List.mem_cons_of_mem v hw)) hr₁ h

theorem readRecord_keeps (hblank : P blank) (hf : ∀ f ∈ fields, Keeps P f.read) :
    Keeps P (readRecord blank fields) := by
  intro r v r' hv hr h
  unfold readRecord at h
  split at h
  · cases h
    exact hblank
  · cases h
    exact hblank
  · exact readPositional_keeps hf hv.items.2 hr h
  · exact readEntries_keeps hf hv.entries hr h
  · cases h

theorem readPlace_keeps (hblank : P blank) (hread : Keeps P read) :
    Keeps (fun o : Option α => ∀ x ∈ o, P x) (readPlace blank read) := by
  intro prev v o hv hprev h
  have hbase : P (prev.getD blank) := by
    cases prev with
    | none => exact hblank
    | some x => exact hprev x rfl
  unfold readPlace at h
  split at h
  · cases h
    simp
  · obtain ⟨x, hx, rfl⟩ := Option.map_eq_some_iff.mp h
    intro y hy
    cases hy
    exact hread _ _ _ hv hbase hx

/-- Items that each keep `P` are read to as many values that satisfy `P`. -/
theorem readItems_keeps (hblank : P blank) : ∀ {items : List Value} {prev xs : List α},
    (∀ v ∈ items, ∀ prev x, P prev → read prev v = some x → P x) → (∀ x ∈ prev, P x) →
      readItems blank read prev items = some xs → xs.length = items.length ∧ ∀ x ∈ xs, P x
  | [], _, _, _, _, h => by
      cases h
      simp
  | v :: vs, prev, xs, hread, hprev, h => by
      have hhead : P (prev.headD blank) := by
        cases prev with
        | nil => exact hblank
        | cons x prev => exact hprev x (List.mem_cons_self ..)
      rw [readItems] at h
      split at h
      · cases h
      · rename_i x hx
        obtain ⟨ys, hys, rfl⟩ := Option.map_eq_some_iff.mp h
        obtain ⟨hlen, hkept⟩ := readItems_keeps hblank
          (fun w hw => hread w (List.mem_cons_of_mem v hw))
          (fun z hz => hprev z (List.mem_of_mem_tail hz)) hys
        refine ⟨by simp [hlen], ?_⟩
        intro y hy
        rcases List.mem_cons.mp hy with rfl | hy
        · exact hread v (List.mem_cons_self ..) _ _ hhead hx
        · exact hkept y hy

theorem readList_keeps (hblank : P blank) (hread : Keeps P read) {prev : List α} {v : Value}
    {o : Option (List α)} (hv : v.Narrow) (hprev : ∀ x ∈ prev, P x)
    (h : readList blank read prev v = some o) :
    (o.getD []).length < 4294967296 ∧ ∀ x ∈ o.getD [], P x := by
  unfold readList at h
  split at h
  · cases h
  · cases h
    exact ⟨by simp, by simp⟩
  · rename_i items hitems
    obtain ⟨xs, hxs, rfl⟩ := Option.map_eq_some_iff.mp h
    cases Value.eq_arr_of_items? hitems
    obtain ⟨hlen, hkept⟩ :=
      readItems_keeps hblank (fun w hw prev x => hread prev w x (hv.items.2 w hw)) hprev hxs
    exact ⟨by simpa [hlen] using hv.items.1, hkept⟩

/-! ## Texts -/

/-- A narrow list of narrow texts. -/
def NarrowTexts (ts : List Text) : Prop :=
  ts.length < 4294967296 ∧ ∀ t ∈ ts, t.length < 4294967296

theorem narrowTexts_nil : NarrowTexts [] := ⟨by decide, by simp⟩

theorem mapM_bytes?_narrow : ∀ {items : List Value} {ts : List Text},
    (∀ v ∈ items, v.Narrow) → items.mapM Value.bytes? = some ts →
      ts.length = items.length ∧ ∀ t ∈ ts, t.length < 4294967296
  | [], ts, _, h => by
      cases h
      simp
  | v :: vs, ts, hv, h => by
      simp only [List.mapM_cons, Option.bind_eq_bind, Option.bind_eq_some_iff, Option.pure_def,
        Option.some.injEq] at h
      obtain ⟨t, ht, rest, hrest, rfl⟩ := h
      obtain ⟨hfirst, hothers⟩ := List.forall_mem_cons.mp hv
      obtain ⟨hlen, hnarrow⟩ := mapM_bytes?_narrow hothers hrest
      exact ⟨by simp [hlen], List.forall_mem_cons.mpr ⟨hfirst.bytes ht, hnarrow⟩⟩

theorem readTexts_keeps : Keeps NarrowTexts readTexts := by
  intro prev v ts hv hprev h
  unfold readTexts at h
  split at h
  · cases h
  · cases h
    exact hprev
  · rename_i items hitems
    cases Value.eq_arr_of_items? hitems
    obtain ⟨hlen, hnarrow⟩ := mapM_bytes?_narrow hv.items.2 h
    exact ⟨by rw [hlen]; exact hv.items.1, hnarrow⟩

end Binary

open Binary

/-! ## Type references -/

namespace TypeRef

/-- Every argument list in the reference has fewer than 2^32 items and every text fewer than 2^32
bytes, whatever the kind of its node. -/
inductive Narrow : TypeRef → Prop where
  | absent : Narrow .absent
  | node {kind : TypeKind} {name : Text} {args : List TypeRef} {position : Int64}
      {param : ParamKind} {owner : Text} (hname : name.length < 4294967296)
      (hlen : args.length < 4294967296) (hargs : ∀ a ∈ args, Narrow a)
      (howner : owner.length < 4294967296) : Narrow (.node kind name args position param owner)

/-- A narrow list of narrow references. -/
def NarrowList (ts : List TypeRef) : Prop := ts.length < 4294967296 ∧ ∀ t ∈ ts, t.Narrow

theorem narrowList_nil : NarrowList [] := ⟨by decide, by simp⟩

theorem narrow_blank : blank.Narrow := .node (by decide) (by decide) (by simp) (by decide)

theorem Narrow.args {t : TypeRef} (h : t.Narrow) : NarrowList t.args := by
  cases h with
  | absent => exact narrowList_nil
  | node _ hlen hargs _ => exact ⟨hlen, hargs⟩

theorem Narrow.orBlank {t : TypeRef} (h : t.Narrow) : t.orBlank.Narrow := by
  cases h with
  | absent => exact narrow_blank
  | node hname hlen hargs howner => exact .node hname hlen hargs howner

theorem Narrow.withArgs {t : TypeRef} (h : t.Narrow) {args : List TypeRef}
    (hargs : NarrowList args) : (t.withArgs args).Narrow := by
  cases h with
  | absent => exact .node (by decide) hargs.1 hargs.2 (by decide)
  | node hname _ _ howner => exact .node hname hargs.1 hargs.2 howner

theorem Narrow.obeys {t : TypeRef} (h : t.Narrow) : t.Obeys .narrow := by
  induction h with
  | absent => exact .hole trivial
  | @node kind name args position param owner _ hlen _ _ ih =>
      by_cases hk : kind = .inst
      · subst hk
        exact .inst hlen ih
      · exact .leaf hk trivial

theorem flatFields_keep : ∀ f ∈ flatFields, Keeps Narrow f.read := by
  intro f hf t v t' hv ht h
  -- A field of an empty place is read into the blank node.
  have hblank := narrow_blank
  simp only [flatFields, List.mem_cons, List.not_mem_nil, or_false] at hf
  rcases hf with rfl | rfl | rfl | rfl | rfl
  all_goals obtain ⟨x, hx, rfl⟩ := Option.map_eq_some_iff.mp h
  all_goals cases ht with
    | absent => cases hblank; constructor <;> first | assumption | exact hv.bytes hx
    | node => constructor <;> first | assumption | exact hv.bytes hx

theorem readEach_eq_readItems {items : List Value} : ∀ {prev : List TypeRef},
    readEach prev items = readItems .absent readValue prev items := by
  induction items with
  | nil => exact rfl
  | cons v vs ih =>
      intro prev
      rw [readEach, readItems, ih]
      cases readValue (prev.headD .absent) v with
      | none => rfl
      | some t => cases readItems .absent readValue prev.tail vs <;> rfl

theorem readEntries_narrow {t' : TypeRef} : ∀ {entries : List (Value × Value)} {t : TypeRef},
    (∀ e ∈ entries, e.2.Narrow) →
    (∀ e ∈ entries, ∀ prev ts, NarrowList prev → readArgs prev e.2 = some ts → NarrowList ts) →
    t.Narrow → readEntries t entries = some t' → t'.Narrow
  | [], _, _, _, ht, h => by
      cases h
      exact ht
  | (k, v) :: es, t, hv, hread, ht, h => by
      have hv' := fun e he => hv e (List.mem_cons_of_mem (k, v) he)
      have hread' := fun e he => hread e (List.mem_cons_of_mem (k, v) he)
      simp only [readEntries, Option.bind_eq_bind, Option.bind_eq_some_iff] at h
      obtain ⟨name, -, h⟩ := h
      split at h
      · obtain ⟨args, hargs, h⟩ := Option.bind_eq_some_iff.mp h
        have hnarrow := hread (k, v) (List.mem_cons_self ..) _ _ ht.args hargs
        exact readEntries_narrow hv' hread' (ht.withArgs hnarrow) h
      · obtain ⟨u, hu, h⟩ := Option.bind_eq_some_iff.mp h
        have hkept := readField_keeps flatFields_keep (hv (k, v) (List.mem_cons_self ..)) ht hu
        exact readEntries_narrow hv' hread' hkept h

/-- Reading a reference, and reading arguments, off a narrow value. -/
theorem read_narrow {v : Value} (hv : v.Narrow) :
    (∀ prev t, prev.Narrow → readValue prev v = some t → t.Narrow) ∧
      ∀ prev ts, NarrowList prev → readArgs prev v = some ts → NarrowList ts := by
  induction hv with
  | @arr items hlen hitems ih =>
      constructor
      · intro prev t hprev h
        unfold readValue at h
        split at h
        · rename_i heq
          cases heq
        · cases h
          exact narrow_blank
        · rename_i k n a p m o heq
          cases heq
          simp only [Option.bind_eq_bind, Option.bind_eq_some_iff, Option.some.injEq] at h
          obtain ⟨kind, -, name, hname, args, hargs, position, -, param, -, owner, howner, rfl⟩ := h
          obtain ⟨hlen', hargs'⟩ := (ih a (by simp)).2 _ _ hprev.args hargs
          exact .node ((hitems n (by simp)).bytes hname) hlen' hargs'
            ((hitems o (by simp)).bytes howner)
        · rename_i heq
          cases heq
        · cases h
      · intro prev ts hprev h
        rw [readArgs, readEach_eq_readItems] at h
        obtain ⟨hts, hnarrow⟩ := readItems_keeps .absent (fun v hv => (ih v hv).1) hprev.2 h
        exact ⟨by omega, hnarrow⟩
  | @map entries hentries ih =>
      constructor
      · intro prev t hprev h
        exact readEntries_narrow hentries (fun e he => (ih e he).2) hprev.orBlank h
      · intro prev ts hprev h
        simp [readArgs] at h
  | @flat v harr hmap hbytes =>
      constructor
      · intro prev t hprev h
        cases v with
        | nil => cases h; exact .absent
        | arr items => exact absurd rfl (harr items)
        | map entries => exact absurd rfl (hmap entries)
        | _ => simp [readValue] at h
      · intro prev ts hprev h
        cases v with
        | nil => cases h; exact narrowList_nil
        | arr items => exact absurd rfl (harr items)
        | _ => simp [readArgs] at h

theorem readValue_keeps : Keeps Narrow readValue :=
  fun prev _ t hv hprev h => (read_narrow hv).1 prev t hprev h

theorem readArgs_keeps : Keeps NarrowList readArgs :=
  fun prev _ ts hv hprev h => (read_narrow hv).2 prev ts hprev h

end TypeRef

/-! ## Code -/

/-- The name and the references of a method reference are narrow. -/
structure MethodRef.Narrow (r : MethodRef) : Prop where
  name : r.name.length < 4294967296
  declaring : r.declaring.Narrow
  params : TypeRef.NarrowList r.params
  ret : r.ret.Narrow
  typeArgs : TypeRef.NarrowList r.typeArgs

theorem MethodRef.fields_keep : ∀ f ∈ MethodRef.fields, Keeps MethodRef.Narrow f.read := by
  intro f hf r v r' hv hr h
  simp only [fields, List.mem_cons, List.not_mem_nil, or_false] at hf
  rcases hf with rfl | rfl | rfl | rfl | rfl | rfl | rfl
  all_goals obtain ⟨x, hx, rfl⟩ := Option.map_eq_some_iff.mp h
  · exact { hr with name := hv.bytes hx }
  · exact { hr with declaring := TypeRef.readValue_keeps _ _ _ hv hr.declaring hx }
  · exact { hr with params := TypeRef.readArgs_keeps _ _ _ hv hr.params hx }
  · exact { hr with ret := TypeRef.readValue_keeps _ _ _ hv hr.ret hx }
  · exact { hr with }
  · exact { hr with }
  · exact { hr with typeArgs := TypeRef.readArgs_keeps _ _ _ hv hr.typeArgs hx }

theorem MethodRef.readValue_keeps :
    Keeps (fun o : Option MethodRef => ∀ r ∈ o, r.Narrow) MethodRef.readValue :=
  have hblank : blank.Narrow :=
    ⟨by decide, .absent, TypeRef.narrowList_nil, .absent, TypeRef.narrowList_nil⟩
  readPlace_keeps hblank (readRecord_keeps hblank fields_keep)

/-- The references and the text of an operand are narrow. -/
structure Operand.Narrow (o : Operand) : Prop where
  type : o.type.Narrow
  method : ∀ r ∈ o.method, r.Narrow
  str : o.str.length < 4294967296

theorem Operand.fields_keep : ∀ f ∈ Operand.fields, Keeps Operand.Narrow f.read := by
  intro f hf o v o' hv ho h
  simp only [fields, List.mem_cons, List.not_mem_nil, or_false] at hf
  rcases hf with rfl | rfl | rfl | rfl
  all_goals obtain ⟨x, hx, rfl⟩ := Option.map_eq_some_iff.mp h
  · exact { ho with type := TypeRef.readValue_keeps _ _ _ hv ho.type hx }
  · exact { ho with method := MethodRef.readValue_keeps _ _ _ hv ho.method hx }
  · exact { ho with }
  · exact { ho with str := hv.bytes hx }

theorem Operand.blank_narrow : ({} : Operand).Narrow := ⟨.absent, by simp, by decide⟩

/-- The operand of an instruction is narrow. -/
def Instruction.Narrow (i : Instruction) : Prop := i.operand.Narrow

theorem Instruction.fields_keep : ∀ f ∈ Instruction.fields, Keeps Instruction.Narrow f.read := by
  intro f hf i v i' hv hi h
  simp only [fields, List.mem_cons, List.not_mem_nil, or_false] at hf
  rcases hf with rfl | rfl
  all_goals obtain ⟨x, hx, rfl⟩ := Option.map_eq_some_iff.mp h
  · exact hi
  · exact readRecord_keeps Operand.blank_narrow Operand.fields_keep _ _ _ hv hi hx

/-- The locals and the code of a body are narrow. -/
structure Body.Narrow (b : Body) : Prop where
  locals : TypeRef.NarrowList b.locals
  length : b.code.length < 4294967296
  code : ∀ i ∈ b.code, i.Narrow

theorem Body.fields_keep : ∀ f ∈ Body.fields, Keeps Body.Narrow f.read := by
  intro f hf b v b' hv hb h
  simp only [fields, List.mem_cons, List.not_mem_nil, or_false] at hf
  rcases hf with rfl | rfl
  all_goals obtain ⟨x, hx, rfl⟩ := Option.map_eq_some_iff.mp h
  · exact ⟨TypeRef.readArgs_keeps _ _ _ hv hb.locals hx, hb.length, hb.code⟩
  · have hblank : Instruction.blank.Narrow := Operand.blank_narrow
    obtain ⟨hlen, hcode⟩ :=
      readList_keeps hblank (readRecord_keeps hblank Instruction.fields_keep) hv hb.code hx
    exact ⟨hb.locals, hlen, hcode⟩

/-- The texts, the references and the body of a method are narrow. -/
structure MethodDef.Narrow (m : MethodDef) : Prop where
  name : m.name.length < 4294967296
  generic : NarrowTexts m.generic
  params : TypeRef.NarrowList m.params
  ret : m.ret.Narrow
  attributes : NarrowTexts m.attributes
  body : ∀ b ∈ m.body, b.Narrow

theorem MethodDef.fields_keep : ∀ f ∈ MethodDef.fields, Keeps MethodDef.Narrow f.read := by
  intro f hf m v m' hv hm h
  simp only [fields, List.mem_cons, List.not_mem_nil, or_false] at hf
  rcases hf with rfl | rfl | rfl | rfl | rfl | rfl | rfl
  all_goals obtain ⟨x, hx, rfl⟩ := Option.map_eq_some_iff.mp h
  · exact { hm with name := hv.bytes hx }
  · exact { hm with }
  · exact { hm with generic := readTexts_keeps _ _ _ hv hm.generic hx }
  · exact { hm with params := TypeRef.readArgs_keeps _ _ _ hv hm.params hx }
  · exact { hm with ret := TypeRef.readValue_keeps _ _ _ hv hm.ret hx }
  · exact { hm with attributes := readTexts_keeps _ _ _ hv hm.attributes hx }
  · have hblank : ({} : Body).Narrow := ⟨TypeRef.narrowList_nil, by decide, by simp [Body.code]⟩
    have hbody := readPlace_keeps hblank (readRecord_keeps hblank Body.fields_keep)
    exact { hm with body := hbody _ _ _ hv hm.body hx }

theorem MethodDef.readValue_keeps :
    Keeps (fun o : Option MethodDef => ∀ m ∈ o, m.Narrow) MethodDef.readValue :=
  have hblank : MethodDef.blank.Narrow :=
    ⟨by decide, narrowTexts_nil, TypeRef.narrowList_nil, .absent, narrowTexts_nil,
      by simp [MethodDef.blank]⟩
  readPlace_keeps hblank (readRecord_keeps hblank fields_keep)

/-! ## Types -/

/-- The texts, the base type and the methods of a type are narrow. -/
structure TypeHead.Narrow (t : TypeHead) : Prop where
  ns : t.ns.length < 4294967296
  name : t.name.length < 4294967296
  generic : NarrowTexts t.generic
  base : t.base.Narrow
  length : t.methods.length < 4294967296
  methods : ∀ o ∈ t.methods, ∀ m ∈ o, m.Narrow

theorem TypeHead.blank_narrow : ({} : TypeHead).Narrow :=
  ⟨by decide, by decide, narrowTexts_nil, .absent, by decide, by simp⟩

namespace TypeDef

theorem leadFields_keep : ∀ f ∈ leadFields, Keeps TypeHead.Narrow f.read := by
  intro f hf t v t' hv ht h
  simp only [leadFields, List.mem_cons, List.not_mem_nil, or_false] at hf
  rcases hf with rfl | rfl | rfl | rfl | rfl | rfl
  all_goals obtain ⟨x, hx, rfl⟩ := Option.map_eq_some_iff.mp h
  · exact { ht with ns := hv.bytes hx }
  · exact { ht with name := hv.bytes hx }
  · exact { ht with }
  · exact { ht with generic := readTexts_keeps _ _ _ hv ht.generic hx }
  · exact { ht with base := TypeRef.readValue_keeps _ _ _ hv ht.base hx }
  · obtain ⟨hlen, hmethods⟩ := readList_keeps (by simp) MethodDef.readValue_keeps hv ht.methods hx
    exact { ht with length := hlen, methods := hmethods }

theorem markNested_narrow {head : TypeHead} (h : head.Narrow) (v : Value) :
    (markNested head v).Narrow := { h with }

/-- Every type of the forest satisfies `P` apart from its nested types. -/
inductive Every (P : TypeHead → Prop) : TypeDef → Prop where
  | absent : Every P .absent
  | node {head : TypeHead} {nested : List TypeDef} (h : P head)
      (hnested : ∀ t ∈ nested, Every P t) : Every P (.node head nested)

/-- Every type of the forest is narrow, and so are the lists of nested types. -/
inductive Narrow : TypeDef → Prop where
  | absent : Narrow .absent
  | node {head : TypeHead} {nested : List TypeDef} (h : head.Narrow)
      (hlen : nested.length < 4294967296) (hnested : ∀ t ∈ nested, Narrow t) :
      Narrow (.node head nested)

/-- A narrow list of narrow types. -/
def NarrowList (ts : List TypeDef) : Prop := ts.length < 4294967296 ∧ ∀ t ∈ ts, t.Narrow

theorem narrowList_nil : NarrowList [] := ⟨by decide, by simp⟩

theorem Narrow.head {t : TypeDef} (h : t.Narrow) : t.head.Narrow := by
  cases h with
  | absent => exact TypeHead.blank_narrow
  | node h _ _ => exact h

theorem Narrow.nested {t : TypeDef} (h : t.Narrow) : NarrowList t.nested := by
  cases h with
  | absent => exact narrowList_nil
  | node _ hlen hnested => exact ⟨hlen, hnested⟩

theorem Narrow.every {t : TypeDef} (h : t.Narrow) : t.Every TypeHead.Narrow := by
  induction h with
  | absent => exact .absent
  | node h _ _ ih => exact .node h ih

theorem readEach_eq_readItems {items : List Value} : ∀ {prev : List TypeDef},
    readEach prev items = readItems .absent readValue prev items := by
  induction items with
  | nil => exact rfl
  | cons v vs ih =>
      intro prev
      rw [readEach, readItems, ih]
      cases readValue (prev.headD .absent) v with
      | none => rfl
      | some t => cases readItems .absent readValue prev.tail vs <;> rfl

theorem readEntries_narrow {t : TypeDef} : ∀ {entries : List (Value × Value)} {head : TypeHead}
    {nested : List TypeDef}, (∀ e ∈ entries, e.2.Narrow) →
    (∀ e ∈ entries, ∀ prev ts, NarrowList prev → readNested prev e.2 = some ts → NarrowList ts) →
    head.Narrow → NarrowList nested → readEntries head nested entries = some t → t.Narrow
  | [], _, _, _, _, hhead, hnested, h => by
      cases h
      exact .node hhead hnested.1 hnested.2
  | (k, v) :: es, head, nested, hv, hread, hhead, hnested, h => by
      have hv' := fun e he => hv e (List.mem_cons_of_mem (k, v) he)
      have hread' := fun e he => hread e (List.mem_cons_of_mem (k, v) he)
      simp only [readEntries, Option.bind_eq_bind, Option.bind_eq_some_iff] at h
      obtain ⟨name, -, h⟩ := h
      split at h
      · obtain ⟨us, hus, h⟩ := Option.bind_eq_some_iff.mp h
        exact readEntries_narrow hv' hread' (markNested_narrow hhead v)
          (hread (k, v) (List.mem_cons_self ..) _ _ hnested hus) h
      · obtain ⟨head', hhead', h⟩ := Option.bind_eq_some_iff.mp h
        have hkept := readField_keeps leadFields_keep (hv (k, v) (List.mem_cons_self ..)) hhead
          hhead'
        exact readEntries_narrow hv' hread' hkept hnested h

theorem readEach_narrow {items : List Value} (hlen : items.length < 4294967296)
    (hread : ∀ v ∈ items, ∀ prev t : TypeDef, prev.Narrow → readValue prev v = some t → t.Narrow)
    {prev ts : List TypeDef} (hprev : NarrowList prev) (h : readEach prev items = some ts) :
    NarrowList ts := by
  rw [readEach_eq_readItems] at h
  obtain ⟨hts, hnarrow⟩ := readItems_keeps .absent hread hprev.2 h
  exact ⟨by omega, hnarrow⟩

/-- Reading a type, and reading nested types, off a narrow value. -/
theorem read_narrow {v : Value} (hv : v.Narrow) :
    (∀ prev t, prev.Narrow → readValue prev v = some t → t.Narrow) ∧
      ∀ prev ts, NarrowList prev → readNested prev v = some ts → NarrowList ts := by
  induction hv with
  | @arr items hlen hitems ih =>
      constructor
      · intro prev t hprev h
        unfold readValue at h
        split at h
        · rename_i heq
          cases heq
        · cases h
          exact .node TypeHead.blank_narrow (by decide) (by simp)
        · rename_i ns name attrs gp base nestedTypes methods heq
          cases heq
          simp only [Option.bind_eq_bind, Option.bind_eq_some_iff, Option.some.injEq] at h
          obtain ⟨h₁, hns, h₂, hname, h₃, hattrs, h₄, hgp, h₅, hbase, nested, hnested, h₆, hmethods,
            rfl⟩ := h
          have n₁ := readField_keeps leadFields_keep (hitems ns (by simp)) hprev.head hns
          have n₂ := readField_keeps leadFields_keep (hitems name (by simp)) n₁ hname
          have n₃ := readField_keeps leadFields_keep (hitems attrs (by simp)) n₂ hattrs
          have n₄ := readField_keeps leadFields_keep (hitems gp (by simp)) n₃ hgp
          have n₅ := readField_keeps leadFields_keep (hitems base (by simp)) n₄ hbase
          have n₆ := readField_keeps leadFields_keep (hitems methods (by simp))
            (markNested_narrow n₅ nestedTypes) hmethods
          obtain ⟨hlen', hnested'⟩ := (ih nestedTypes (by simp)).2 _ _ hprev.nested hnested
          exact .node n₆ hlen' hnested'
        · rename_i heq
          cases heq
        · cases h
      · intro prev ts hprev h
        exact readEach_narrow hlen (fun v hv => (ih v hv).1) hprev h
  | @map entries hentries ih =>
      constructor
      · intro prev t hprev h
        exact readEntries_narrow hentries (fun e he => (ih e he).2) hprev.head hprev.nested h
      · intro prev ts hprev h
        simp [readNested] at h
  | @flat v harr hmap hbytes =>
      constructor
      · intro prev t hprev h
        cases v with
        | nil => cases h; exact .absent
        | arr items => exact absurd rfl (harr items)
        | map entries => exact absurd rfl (hmap entries)
        | _ => simp [readValue] at h
      · intro prev ts hprev h
        cases v with
        | nil => cases h; exact narrowList_nil
        | arr items => exact absurd rfl (harr items)
        | _ => simp [readNested] at h

end TypeDef

/-- The names and the types of a module are narrow: no text in it has 2^32 bytes or more, and no
list as many items. -/
structure Module.Narrow (m : Module) : Prop where
  name : m.name.length < 4294967296
  version : m.version.length < 4294967296
  types : TypeDef.NarrowList m.types

theorem Module.fields_keep : ∀ f ∈ Module.fields, Keeps Module.Narrow f.read := by
  intro f hf m v m' hv hm h
  simp only [fields, List.mem_cons, List.not_mem_nil, or_false] at hf
  rcases hf with rfl | rfl | rfl
  · obtain ⟨x, hx, rfl⟩ := Option.map_eq_some_iff.mp h
    exact ⟨hv.bytes hx, hm.version, hm.types⟩
  · obtain ⟨x, hx, rfl⟩ := Option.map_eq_some_iff.mp h
    exact ⟨hm.name, hv.bytes hx, hm.types⟩
  · dsimp only at h
    split at h
    · cases h
    · cases h
      exact ⟨hm.name, hm.version, TypeDef.narrowList_nil⟩
    · rename_i items hitems
      cases Value.eq_arr_of_items? hitems
      obtain ⟨ts, hts, rfl⟩ := Option.map_eq_some_iff.mp h
      refine ⟨hm.name, hm.version, TypeDef.readEach_narrow hv.items.1 ?_ hm.types hts⟩
      exact fun w hw => (TypeDef.read_narrow (hv.items.2 w hw)).1

theorem Module.readValue_narrow {v : Value} (hv : v.Narrow) {m : Module}
    (h : readValue v = some m) : m.Narrow :=
  have hblank : ({} : Module).Narrow := ⟨by decide, by decide, TypeDef.narrowList_nil⟩
  readRecord_keeps hblank fields_keep _ _ _ hv hblank h

/-! ## Checking the widths

A module at hand is narrow or not by computation, node by node. -/

section Decidable

instance (ts : List Text) : Decidable (NarrowTexts ts) :=
  inferInstanceAs (Decidable (_ ∧ _))

mutual
def TypeRef.decNarrow : (t : TypeRef) → Decidable t.Narrow
  | .absent => .isTrue .absent
  | .node _ name args _ _ owner =>
    have := TypeRef.decNarrowEach args
    decidable_of_iff
      (name.length < 4294967296 ∧ args.length < 4294967296 ∧ (∀ a ∈ args, a.Narrow) ∧
        owner.length < 4294967296)
      ⟨fun ⟨hname, hlen, hargs, howner⟩ => .node hname hlen hargs howner,
        fun | .node hname hlen hargs howner => ⟨hname, hlen, hargs, howner⟩⟩

def TypeRef.decNarrowEach : (ts : List TypeRef) → Decidable (∀ t ∈ ts, t.Narrow)
  | [] => .isTrue (by simp)
  | t :: ts =>
    have := TypeRef.decNarrow t
    have := TypeRef.decNarrowEach ts
    decidable_of_iff (t.Narrow ∧ ∀ u ∈ ts, u.Narrow) List.forall_mem_cons.symm
end

instance (t : TypeRef) : Decidable t.Narrow := t.decNarrow

instance (ts : List TypeRef) : Decidable (TypeRef.NarrowList ts) :=
  inferInstanceAs (Decidable (_ ∧ _))

instance (r : MethodRef) : Decidable r.Narrow :=
  decidable_of_iff
    (r.name.length < 4294967296 ∧ r.declaring.Narrow ∧ TypeRef.NarrowList r.params ∧
      r.ret.Narrow ∧ TypeRef.NarrowList r.typeArgs)
    ⟨fun ⟨hname, hdecl, hparams, hret, hargs⟩ => ⟨hname, hdecl, hparams, hret, hargs⟩,
      fun h => ⟨h.name, h.declaring, h.params, h.ret, h.typeArgs⟩⟩

instance (o : Operand) : Decidable o.Narrow :=
  decidable_of_iff (o.type.Narrow ∧ (∀ r ∈ o.method, r.Narrow) ∧ o.str.length < 4294967296)
    ⟨fun ⟨htype, hmethod, hstr⟩ => ⟨htype, hmethod, hstr⟩, fun h => ⟨h.type, h.method, h.str⟩⟩

instance (i : Instruction) : Decidable i.Narrow := inferInstanceAs (Decidable i.operand.Narrow)

instance (b : Body) : Decidable b.Narrow :=
  decidable_of_iff
    (TypeRef.NarrowList b.locals ∧ b.code.length < 4294967296 ∧ ∀ i ∈ b.code, i.Narrow)
    ⟨fun ⟨hlocals, hlen, hcode⟩ => ⟨hlocals, hlen, hcode⟩, fun h => ⟨h.locals, h.length, h.code⟩⟩

instance (m : MethodDef) : Decidable m.Narrow :=
  decidable_of_iff
    (m.name.length < 4294967296 ∧ NarrowTexts m.generic ∧ TypeRef.NarrowList m.params ∧
      m.ret.Narrow ∧ NarrowTexts m.attributes ∧ ∀ b ∈ m.body, b.Narrow)
    ⟨fun ⟨hname, hgeneric, hparams, hret, hattrs, hbody⟩ =>
        ⟨hname, hgeneric, hparams, hret, hattrs, hbody⟩,
      fun h => ⟨h.name, h.generic, h.params, h.ret, h.attributes, h.body⟩⟩

instance (t : TypeHead) : Decidable t.Narrow :=
  decidable_of_iff
    (t.ns.length < 4294967296 ∧ t.name.length < 4294967296 ∧ NarrowTexts t.generic ∧
      t.base.Narrow ∧ t.methods.length < 4294967296 ∧ ∀ o ∈ t.methods, ∀ m ∈ o, m.Narrow)
    ⟨fun ⟨hns, hname, hgeneric, hbase, hlen, hmethods⟩ =>
        ⟨hns, hname, hgeneric, hbase, hlen, hmethods⟩,
      fun h => ⟨h.ns, h.name, h.generic, h.base, h.length, h.methods⟩⟩

mutual
def TypeDef.decNarrow : (t : TypeDef) → Decidable t.Narrow
  | .absent => .isTrue .absent
  | .node head nested =>
    have := TypeDef.decNarrowEach nested
    decidable_of_iff
      (head.Narrow ∧ nested.length < 4294967296 ∧ ∀ t ∈ nested, TypeDef.Narrow t)
      ⟨fun ⟨hhead, hlen, hnested⟩ => .node hhead hlen hnested,
        fun | .node hhead hlen hnested => ⟨hhead, hlen, hnested⟩⟩

def TypeDef.decNarrowEach : (ts : List TypeDef) → Decidable (∀ t ∈ ts, t.Narrow)
  | [] => .isTrue (by simp)
  | t :: ts =>
    have := TypeDef.decNarrow t
    have := TypeDef.decNarrowEach ts
    decidable_of_iff (t.Narrow ∧ ∀ u ∈ ts, u.Narrow) List.forall_mem_cons.symm
end

instance (t : TypeDef) : Decidable t.Narrow := t.decNarrow

instance (ts : List TypeDef) : Decidable (TypeDef.NarrowList ts) :=
  inferInstanceAs (Decidable (_ ∧ _))

instance (m : Module) : Decidable m.Narrow :=
  decidable_of_iff
    (m.name.length < 4294967296 ∧ m.version.length < 4294967296 ∧ TypeDef.NarrowList m.types)
    ⟨fun ⟨hname, hversion, htypes⟩ => ⟨hname, hversion, htypes⟩,
      fun h => ⟨h.name, h.version, h.types⟩⟩

end Decidable

end Monomorph
