import Monomorph.Proofs.Accepted
import Monomorph.Proofs.Rendering
import Monomorph.Sample

/-!
# Modules survive writing and reading

What `Module.encode` writes, `Module.decode` reads back: every record restores its fields from the
entries it was written as, the ones left out included, because a blank record already holds what is
left out. Only one thing is lost. The format leaves out an empty list, so that a module read from a
document that spells one out forgets that it did (`Module.unmarked`).

The values come first, for all modules. Then the widths of a module say that its value fits the
format, and reading the bytes is reading the value.
-/

namespace Monomorph

namespace Binary

/-! ## Records -/

section Records

variable {α : Type} {fields : List (Field α)} {r s t : α} {l l' : List (Value × Value)}
  {name : String} {v : Value} {blank : α} {read : α → Value → Option α} {write : α → Value}
  {xs : List α}

theorem readEntries_append (h : readEntries fields r l = some s)
    (h' : readEntries fields s l' = some t) : readEntries fields r (l ++ l') = some t := by
  induction l generalizing r with
  | nil =>
      cases h
      exact h'
  | cons e l ih =>
      obtain ⟨k, v⟩ := e
      rw [List.cons_append]
      rw [readEntries] at h ⊢
      split at h
      · cases h
      · split at h
        · cases h
        · exact ih h

theorem readEntries_cons (h : readField fields r (Text.ofString name) v = some s)
    (h' : readEntries fields s l = some t) : readEntries fields r (entry name v :: l) = some t := by
  simp only [readEntries, entry, Value.bytes?, h, h']

theorem readEntries_entry (h : readField fields r (Text.ofString name) v = some s) :
    readEntries fields r [entry name v] = some s :=
  readEntries_cons h rfl

/-- An entry that may be left out: then the record so far must hold what it would have said. -/
theorem readEntries_unless {skip : Bool} (hskip : skip = true → s = t)
    (hread : skip = false → readField fields s (Text.ofString name) v = some t)
    (h : readEntries fields r l = some s) :
    readEntries fields r (l ++ entryUnless skip name v) = some t := by
  refine readEntries_append h ?_
  cases skip with
  | true =>
      rw [hskip rfl]
      rfl
  | false => exact readEntries_entry (hread rfl)

/-- Items written one by one are read back one by one. -/
theorem readItems_map (h : ∀ x ∈ xs, read blank (write x) = some x) :
    readItems blank read [] (xs.map write) = some xs := by
  induction xs with
  | nil => rfl
  | cons x xs ih =>
      obtain ⟨hx, hxs⟩ := List.forall_mem_cons.mp h
      simp only [List.map_cons, readItems, List.headD_nil, hx, List.tail_nil, ih hxs,
        Option.map_some]

theorem readList_map (h : ∀ x ∈ xs, read blank (write x) = some x) :
    readList blank read [] (.arr (xs.map write)) = some (some xs) :=
  congrArg (Option.map some) (readItems_map h)

theorem readTexts_textItems (ts : List Text) : readTexts [] (textItems ts) = some ts := by
  have hmap : (ts.map Value.str).mapM Value.bytes? = some ts := by
    induction ts with
    | nil => rfl
    | cons t ts ih => simp [List.mapM_cons, Value.bytes?, ih]
  exact hmap

end Records

/-! ## Records that fit -/

/-- At most `n` entries, each of which fits. -/
def EntriesFit (n : Nat) (l : List (Value × Value)) : Prop :=
  l.length ≤ n ∧ ∀ e ∈ l, e.1.Fits ∧ e.2.Fits

namespace EntriesFit

variable {n : Nat} {l : List (Value × Value)} {v : Value}

theorem nil : EntriesFit 0 [] := ⟨Nat.le_refl 0, by simp⟩

theorem add (h : EntriesFit n l) (name : String) (hv : v.Fits)
    (hname : (Text.ofString name).length < 4294967296 := by decide) :
    EntriesFit (n + 1) (l ++ [entry name v]) := by
  refine ⟨by simpa using h.1, ?_⟩
  intro e he
  rcases List.mem_append.mp he with he | he
  · exact h.2 e he
  · cases List.mem_singleton.mp he
    exact ⟨.str hname, hv⟩

theorem addUnless (h : EntriesFit n l) (skip : Bool) (name : String) (hv : v.Fits)
    (hname : (Text.ofString name).length < 4294967296 := by decide) :
    EntriesFit (n + 1) (l ++ entryUnless skip name v) := by
  cases skip with
  | true =>
      rw [entryUnless, if_pos rfl, List.append_nil]
      exact ⟨Nat.le_succ_of_le h.1, h.2⟩
  | false => exact h.add name hv hname

theorem fits (h : EntriesFit n l) (hn : n < 4294967296) : (Value.map l).Fits :=
  .map (Nat.lt_of_le_of_lt h.1 hn) (fun e he => (h.2 e he).1) fun e he => (h.2 e he).2

end EntriesFit

namespace Value

theorem fits_u8 (n : UInt8) : (Value.int .u8 n.toUInt64).Fits :=
  .int (by simpa [IntForm.Fits] using n.toNat_lt)

theorem fits_u16 (n : UInt16) : (Value.int .u16 n.toUInt64).Fits :=
  .int (by simpa [IntForm.Fits] using n.toNat_lt)

theorem fits_textItems {ts : List Text} (h : NarrowTexts ts) : (textItems ts).Fits := by
  refine .arr (by simpa using h.1) ?_
  intro v hv
  obtain ⟨t, ht, rfl⟩ := List.mem_map.mp hv
  exact .str (h.2 t ht)

end Value

end Binary

open Binary

/-! ## Type references -/

namespace TypeRef

theorem toValues_eq_map (ts : List TypeRef) : toValues ts = ts.map toValue := by
  induction ts with
  | nil => rfl
  | cons t ts ih => rw [toValues, ih, List.map_cons]

/-- All fields of a reference. -/
def fields : List (Binary.Field TypeRef) :=
  ⟨"a", fun t v => (readArgs t.args v).map fun args => t.withArgs args⟩ :: flatFields

theorem readField_eq {name : Text} (h : name ≠ "a") (t : TypeRef) (v : Value) :
    readField fields t name v = readField flatFields t name v := by
  have hne : ¬ ((Text.ofString "a" == name) = true) := by simpa using h.symm
  simp [readField, fields, hne]

theorem readEntries_eq (l : List (Value × Value)) (t : TypeRef) :
    readEntries t l = Binary.readEntries fields t l := by
  induction l generalizing t with
  | nil => rfl
  | cons e l ih =>
      obtain ⟨k, v⟩ := e
      rw [readEntries, Binary.readEntries]
      cases k.bytes? with
      | none => rfl
      | some name =>
          simp only [Option.bind_eq_bind, Option.bind_some, ih]
          by_cases hname : name = "a"
          · subst hname
            have hfield : readField fields t "a" v =
                (readArgs t.args v).map fun args => t.withArgs args := rfl
            rw [if_pos rfl, hfield]
            cases readArgs t.args v <;> rfl
          · rw [if_neg hname, readField_eq hname]
            cases readField flatFields t name v <;> rfl

theorem readArgs_map {ts : List TypeRef} (h : ∀ t ∈ ts, readValue .absent t.toValue = some t) :
    readArgs [] (refItems ts) = some ts := by
  rw [refItems, toValues_eq_map, readArgs, readEach_eq_readItems]
  exact readItems_map h

theorem readValue_toValue (t : TypeRef) : readValue .absent t.toValue = some t := by
  induction t using TypeRef.induction with
  | absent => rfl
  | node kind name args position param owner ih =>
      have hargs : readArgs [] (refItems args) = some args := readArgs_map ih
      rw [toValue, readValue, readEntries_eq]
      refine readEntries_unless (s := .node kind name args position param []) ?_ (fun _ => rfl) ?_
      · simp +contextual
      refine readEntries_unless (s := .node kind name args position ⟨0⟩ []) ?_ ?_ ?_
      · intro h
        rw [show param = ⟨0⟩ from congrArg ParamKind.mk (of_decide_eq_true h)]
      · intro _
        show some (node kind name args position ⟨param.code.toUInt64.toUInt8⟩ []) = _
        simp
      refine readEntries_unless (s := .node kind name args 0 ⟨0⟩ []) ?_ ?_ ?_
      · simp +contextual
      · intro _
        show some (node kind name args position.toUInt64.toInt64 ⟨0⟩ []) = _
        simp
      refine readEntries_unless (s := .node kind name [] 0 ⟨0⟩ []) ?_ ?_ ?_
      · simp +contextual
      · exact fun _ => congrArg (Option.map _) hargs
      refine readEntries_cons (s := .node kind [] [] 0 ⟨0⟩ []) ?_ (readEntries_entry rfl)
      show some (node ⟨kind.code.toUInt64.toUInt8⟩ [] [] 0 ⟨0⟩ []) = _
      simp

theorem readArgs_refItems (ts : List TypeRef) : readArgs [] (refItems ts) = some ts :=
  readArgs_map fun t _ => t.readValue_toValue

theorem toValue_fits {t : TypeRef} (h : t.Narrow) : t.toValue.Fits := by
  induction h with
  | absent => exact .nil
  | @node kind name args position param owner hname hlen hargs howner ih =>
      have hitems : (Value.arr (toValues args)).Fits := by
        rw [toValues_eq_map]
        exact .arr (by simpa using hlen) (List.forall_mem_map.mpr ih)
      have hentries := EntriesFit.nil.add "k" (Value.fits_u8 kind.code)
        |>.add "n" (.str hname)
        |>.addUnless args.isEmpty "a" hitems
        |>.addUnless (position = 0) "p" (Value.fits_shortest position)
        |>.addUnless (param.code = 0) "m" (Value.fits_u8 param.code)
        |>.addUnless owner.isEmpty "o" (.str howner)
      rw [toValue]
      exact hentries.fits (by decide)

theorem refItems_fits {ts : List TypeRef} (h : NarrowList ts) : (refItems ts).Fits := by
  rw [refItems, toValues_eq_map]
  exact .arr (by simpa using h.1) (List.forall_mem_map.mpr fun t ht => toValue_fits (h.2 t ht))

end TypeRef

/-! ## Code -/

namespace MethodRef

theorem readRecord_toValue (r : MethodRef) : readRecord blank fields blank r.toValue = some r := by
  obtain ⟨name, declaring, params, ret, hasThis, arity, typeArgs⟩ := r
  refine readEntries_unless (s := { name, declaring, params, ret, hasThis, arity }) ?_ ?_ ?_
  · simp +contextual
  · exact fun _ => congrArg (Option.map _) (TypeRef.readArgs_refItems typeArgs)
  refine readEntries_unless (s := { name, declaring, params, ret, hasThis }) ?_ ?_ ?_
  · simp +contextual
  · intro _
    show some { name, declaring, params, ret, hasThis, arity := arity.toUInt64.toInt64 : MethodRef }
      = _
    simp
  refine readEntries_unless (s := { name, declaring, params, ret }) ?_ (fun _ => rfl) ?_
  · simp +contextual
  refine readEntries_unless (s := { name, declaring, params }) ?_ ?_ ?_
  · cases ret <;> simp [TypeRef.isPresent]
  · exact fun _ => congrArg (Option.map _) ret.readValue_toValue
  refine readEntries_unless (s := { name, declaring }) ?_ ?_ ?_
  · simp +contextual
  · exact fun _ => congrArg (Option.map _) (TypeRef.readArgs_refItems params)
  refine readEntries_cons (s := { name, declaring := .absent }) rfl (readEntries_entry ?_)
  exact congrArg (Option.map _) declaring.readValue_toValue

theorem readValue_toValue (r : MethodRef) : readValue none r.toValue = some (some r) :=
  congrArg (Option.map some) r.readRecord_toValue

theorem toValue_fits {r : MethodRef} (h : r.Narrow) : r.toValue.Fits := by
  have hentries := EntriesFit.nil.add "name" (.str h.name)
    |>.add "decl" (TypeRef.toValue_fits h.declaring)
    |>.addUnless r.params.isEmpty "params" (TypeRef.refItems_fits h.params)
    |>.addUnless (!r.ret.isPresent) "ret" (TypeRef.toValue_fits h.ret)
    |>.addUnless (!r.hasThis) "this" (.bool r.hasThis)
    |>.addUnless (r.arity = 0) "arity" (Value.fits_shortest r.arity)
    |>.addUnless r.typeArgs.isEmpty "targs" (TypeRef.refItems_fits h.typeArgs)
  exact hentries.fits (by decide)

end MethodRef

namespace Operand

theorem readRecord_toValue (o : Operand) : readRecord {} fields {} o.toValue = some o := by
  obtain ⟨type, method, int, str⟩ := o
  refine readEntries_unless (s := { type, method, int }) ?_ (fun _ => rfl) ?_
  · simp +contextual
  refine readEntries_unless (s := { type, method }) ?_ ?_ ?_
  · simp +contextual
  · intro _
    show some { type, method, int := int.toUInt64.toInt64 : Operand } = _
    simp
  refine readEntries_unless (s := { type }) ?_ ?_ ?_
  · simp +contextual
  · intro h
    cases method with
    | none => cases h
    | some r => exact congrArg (Option.map _) r.readValue_toValue
  refine readEntries_unless (l := []) (s := {}) ?_ ?_ rfl
  · cases type <;> simp [TypeRef.isPresent]
  · exact fun _ => congrArg (Option.map _) type.readValue_toValue

theorem toValue_fits {o : Operand} (h : o.Narrow) : o.toValue.Fits := by
  have hmethod : ((o.method.map MethodRef.toValue).getD .nil).Fits := by
    cases hm : o.method with
    | none => exact .nil
    | some r => exact MethodRef.toValue_fits (h.method r hm)
  have hint : (Value.int .i64 o.int.toUInt64).Fits := .int trivial
  have hentries := EntriesFit.nil.addUnless (!o.type.isPresent) "t" (TypeRef.toValue_fits h.type)
    |>.addUnless o.method.isNone "m" hmethod
    |>.addUnless (o.int = 0) "i" hint
    |>.addUnless o.str.isEmpty "s" (.str h.str)
  exact hentries.fits (by decide)

end Operand

namespace Instruction

theorem readRecord_toValue (i : Instruction) :
    readRecord blank fields blank i.toValue = some i := by
  obtain ⟨op, operand⟩ := i
  rw [toValue, readRecord]
  refine readEntries_cons (s := { op }) ?_ (readEntries_entry ?_)
  · show some { op := ⟨op.code.toUInt64.toUInt8⟩ : Instruction } = _
    simp
  · exact congrArg (Option.map _) operand.readRecord_toValue

theorem toValue_fits {i : Instruction} (h : i.Narrow) : i.toValue.Fits := by
  have hentries := EntriesFit.nil.add "op" (Value.fits_u8 i.op.code)
    |>.add "arg" (Operand.toValue_fits h)
  exact hentries.fits (by decide)

end Instruction

namespace Body

theorem readRecord_toValue (b : Body) : readRecord {} fields {} b.toValue = some b := by
  obtain ⟨locals, stream⟩ := b
  refine readEntries_append (s := { locals }) ?_ (readEntries_entry ?_)
  · refine readEntries_unless (l := []) (s := {}) ?_ ?_ rfl
    · simp +contextual
    · exact fun _ => congrArg (Option.map _) (TypeRef.readArgs_refItems locals)
  · cases stream with
    | none => rfl
    | some code =>
        exact congrArg (Option.map _) (readList_map fun i _ => i.readRecord_toValue)

theorem toValue_fits {b : Body} (h : b.Narrow) : b.toValue.Fits := by
  have hstream :
      ((b.stream.map fun code => Value.arr (code.map Instruction.toValue)).getD .nil).Fits := by
    cases hs : b.stream with
    | none => exact .nil
    | some code =>
        have hcode : b.code = code := by rw [Body.code, hs, Option.getD_some]
        obtain ⟨-, hlen, hnarrow⟩ := h
        rw [hcode] at hlen hnarrow
        exact .arr (by simpa using hlen)
          (List.forall_mem_map.mpr fun i hi => Instruction.toValue_fits (hnarrow i hi))
  have hlocals := TypeRef.refItems_fits h.locals
  have hentries := EntriesFit.nil.addUnless b.locals.isEmpty "locals" hlocals
    |>.add "code" hstream
  exact hentries.fits (by decide)

end Body

namespace MethodDef

theorem readRecord_toValue (m : MethodDef) : readRecord blank fields blank m.toValue = some m := by
  obtain ⟨name, attrs, generic, params, ret, attributes, body⟩ := m
  refine readEntries_unless (s := { name, attrs, generic, params, ret, attributes }) ?_ ?_ ?_
  · simp +contextual
  · intro h
    cases body with
    | none => cases h
    | some b => exact congrArg (Option.map _) (congrArg (Option.map some) b.readRecord_toValue)
  refine readEntries_unless (s := { name, attrs, generic, params, ret }) ?_ ?_ ?_
  · simp +contextual
  · exact fun _ => congrArg (Option.map _) (readTexts_textItems attributes)
  refine readEntries_unless (s := { name, attrs, generic, params }) ?_ ?_ ?_
  · cases ret <;> simp [TypeRef.isPresent]
  · exact fun _ => congrArg (Option.map _) ret.readValue_toValue
  refine readEntries_unless (s := { name, attrs, generic }) ?_ ?_ ?_
  · simp +contextual
  · exact fun _ => congrArg (Option.map _) (TypeRef.readArgs_refItems params)
  refine readEntries_unless (s := { name, attrs }) ?_ ?_ ?_
  · simp +contextual
  · exact fun _ => congrArg (Option.map _) (readTexts_textItems generic)
  refine readEntries_cons (s := { name }) rfl (readEntries_entry ?_)
  show some { name, attrs := attrs.toUInt64.toUInt16 : MethodDef } = _
  simp

theorem readValue_placeValue (m : Option MethodDef) : readValue none (placeValue m) = some m := by
  cases m with
  | none => rfl
  | some m => exact congrArg (Option.map some) m.readRecord_toValue

theorem toValue_fits {m : MethodDef} (h : m.Narrow) : m.toValue.Fits := by
  have hbody : ((m.body.map Body.toValue).getD .nil).Fits := by
    cases hb : m.body with
    | none => exact .nil
    | some b => exact Body.toValue_fits (h.body b hb)
  have hentries := EntriesFit.nil.add "name" (.str h.name)
    |>.add "attrs" (Value.fits_u16 m.attrs)
    |>.addUnless m.generic.isEmpty "gp" (Value.fits_textItems h.generic)
    |>.addUnless m.params.isEmpty "params" (TypeRef.refItems_fits h.params)
    |>.addUnless (!m.ret.isPresent) "ret" (TypeRef.toValue_fits h.ret)
    |>.addUnless m.attributes.isEmpty "cattrs" (Value.fits_textItems h.attributes)
    |>.addUnless m.body.isNone "body" hbody
  exact hentries.fits (by decide)

theorem placeValue_fits {o : Option MethodDef} (h : ∀ m ∈ o, m.Narrow) : (placeValue o).Fits := by
  cases o with
  | none => exact .nil
  | some m => exact toValue_fits (h m rfl)

end MethodDef

/-! ## Types -/

/-- The type without the marks of empty lists. -/
def TypeHead.unmarked (t : TypeHead) : TypeHead := { t with empties := {} }

namespace TypeDef

/-- What holds of an empty place, and of a type whose nested types it holds of, holds everywhere. -/
@[elab_as_elim]
theorem induction {P : TypeDef → Prop} (absent : P .absent)
    (node : ∀ head nested, (∀ t ∈ nested, P t) → P (.node head nested)) : ∀ t, P t
  | .absent => absent
  | .node head nested => node head nested fun t _ => induction absent node t

mutual
/-- The type without the marks of empty lists, in its nested types too. -/
def unmarked : TypeDef → TypeDef
  | .absent => .absent
  | .node head nested => .node head.unmarked (unmarkedEach nested)

/-- The types without the marks of empty lists. -/
def unmarkedEach : List TypeDef → List TypeDef
  | [] => []
  | t :: ts => t.unmarked :: unmarkedEach ts
end

theorem unmarkedEach_eq_map (ts : List TypeDef) : unmarkedEach ts = ts.map unmarked := by
  induction ts with
  | nil => rfl
  | cons t ts ih => rw [unmarkedEach, ih, List.map_cons]

theorem toValues_eq_map (ts : List TypeDef) : toValues ts = ts.map toValue := by
  induction ts with
  | nil => rfl
  | cons t ts ih => rw [toValues, ih, List.map_cons]

/-- The fields of a type and the list of nested types, read side by side. -/
def fields : List (Binary.Field (TypeHead × List TypeDef)) :=
  ⟨"nested", fun p v => (readNested p.2 v).map fun ts => (markNested p.1 v, ts)⟩
    :: leadFields.map fun f => ⟨f.name, fun p v => (f.read p.1 v).map fun head => (head, p.2)⟩

theorem readField_eq {name : Text} (h : name ≠ "nested") (head : TypeHead) (nested : List TypeDef)
    (v : Value) : readField fields (head, nested) name v =
      (readField leadFields head name v).map fun head => (head, nested) := by
  have hne : ¬ ((Text.ofString "nested" == name) = true) := by simpa using h.symm
  rw [readField, readField, fields, List.find?_cons_of_neg (by exact hne), List.find?_map,
    Function.comp_def]
  cases leadFields.find? fun f => f.name == name with
  | none => rfl
  | some f => rfl

theorem readEntries_eq (l : List (Value × Value)) (head : TypeHead) (nested : List TypeDef) :
    readEntries head nested l =
      (Binary.readEntries fields (head, nested) l).map fun p => .node p.1 p.2 := by
  induction l generalizing head nested with
  | nil => rfl
  | cons e l ih =>
      obtain ⟨k, v⟩ := e
      rw [readEntries, Binary.readEntries]
      cases k.bytes? with
      | none => rfl
      | some name =>
          simp only [Option.bind_eq_bind, Option.bind_some, ih]
          by_cases hname : name = "nested"
          · subst hname
            have hfield : readField fields (head, nested) "nested" v =
                (readNested nested v).map fun ts => (markNested head v, ts) := rfl
            rw [if_pos rfl, hfield]
            cases readNested nested v <;> rfl
          · rw [if_neg hname, readField_eq hname]
            cases readField leadFields head name v <;> rfl

theorem readEach_map {ts : List TypeDef}
    (h : ∀ t ∈ ts, readValue .absent t.toValue = some t.unmarked) :
    readEach [] (toValues ts) = some (unmarkedEach ts) := by
  induction ts with
  | nil => rfl
  | cons t ts ih =>
      obtain ⟨ht, hts⟩ := List.forall_mem_cons.mp h
      simp [toValues, readEach, unmarkedEach, ht, ih hts]

theorem readValue_toValue (t : TypeDef) : readValue .absent t.toValue = some t.unmarked := by
  induction t using TypeDef.induction with
  | absent => rfl
  | node head nested ih =>
      obtain ⟨ns, name, attrs, generic, base, methods, empties⟩ := head
      have hnested := readEach_map ih
      have hmethods : readList none MethodDef.readValue []
          (.arr (methods.map MethodDef.placeValue)) = some (some methods) :=
        readList_map fun m _ => MethodDef.readValue_placeValue m
      have hgeneric := readTexts_textItems generic
      rw [toValue, readValue, readEntries_eq]
      refine Option.map_eq_some_iff.mpr
        ⟨({ ns, name, attrs, generic, base, methods }, unmarkedEach nested), ?_, rfl⟩
      refine readEntries_unless
        (s := ({ ns, name, attrs, generic, base }, unmarkedEach nested)) ?_ ?_ ?_
      · simp +contextual
      · intro h
        refine (congrArg (Option.map _) (congrArg (Option.map _) hmethods)).trans ?_
        simp [h]
      refine readEntries_unless (s := ({ ns, name, attrs, generic, base }, [])) ?_ ?_ ?_
      · cases nested <;> simp [unmarkedEach]
      · intro h
        cases nested with
        | nil => cases h
        | cons t ts => exact congrArg (Option.map _) hnested
      refine readEntries_unless (s := ({ ns, name, attrs, generic }, [])) ?_ ?_ ?_
      · cases base <;> simp [TypeRef.isPresent]
      · exact fun _ => congrArg (Option.map _) (congrArg (Option.map _) base.readValue_toValue)
      refine readEntries_unless (s := ({ ns, name, attrs }, [])) ?_ ?_ ?_
      · simp +contextual
      · intro h
        refine (congrArg (Option.map _) (congrArg (Option.map _) hgeneric)).trans ?_
        simp [textItems, h]
      refine readEntries_append (s := ({ ns }, [])) ?_ ?_
      · refine readEntries_unless (l := []) (s := ({}, [])) ?_ (fun _ => rfl) rfl
        simp +contextual
      · refine readEntries_cons (s := ({ ns, name }, [])) rfl (readEntries_entry ?_)
        show some ({ ns, name, attrs := attrs.toUInt64.toUInt16 : TypeHead }, _) = _
        simp

theorem toValue_fits {t : TypeDef} (h : t.Narrow) : t.toValue.Fits := by
  induction h with
  | absent => exact .nil
  | @node head nested h hlen hnested ih =>
      have htypes : (Value.arr (toValues nested)).Fits := by
        rw [toValues_eq_map]
        exact .arr (by simpa using hlen) (List.forall_mem_map.mpr ih)
      have hmethods : (Value.arr (head.methods.map MethodDef.placeValue)).Fits :=
        .arr (by simpa using h.length)
          (List.forall_mem_map.mpr fun m hm => MethodDef.placeValue_fits (h.methods m hm))
      have hlead := EntriesFit.nil.addUnless head.ns.isEmpty "ns" (.str h.ns)
        |>.add "name" (.str h.name)
        |>.add "attrs" (Value.fits_u16 head.attrs)
      rw [List.nil_append, List.append_assoc] at hlead
      have hentries := hlead.addUnless head.generic.isEmpty "gp" (Value.fits_textItems h.generic)
        |>.addUnless (!head.base.isPresent) "base" (TypeRef.toValue_fits h.base)
        |>.addUnless nested.isEmpty "nested" htypes
        |>.addUnless head.methods.isEmpty "methods" hmethods
      rw [toValue]
      exact hentries.fits (by decide)

/-! Neither the wire value nor the rules of the format look at the marks. -/

theorem unmarkedEach_toValues {ts : List TypeDef} (h : ∀ t ∈ ts, t.unmarked.toValue = t.toValue) :
    toValues (unmarkedEach ts) = toValues ts := by
  rw [toValues_eq_map, toValues_eq_map, unmarkedEach_eq_map, List.map_map]
  exact List.map_congr_left h

theorem unmarked_toValue (t : TypeDef) : t.unmarked.toValue = t.toValue := by
  induction t using TypeDef.induction with
  | absent => rfl
  | node head nested ih =>
      have hempty : (unmarkedEach nested).isEmpty = nested.isEmpty := by
        rw [unmarkedEach_eq_map, List.isEmpty_map]
      rw [unmarked, toValue, toValue, unmarkedEach_toValues ih, hempty]
      rfl

theorem unmarkedEach_formatFaultIn? {module : Text} {ts : List TypeDef}
    (h : ∀ t ∈ ts, t.unmarked.formatFault? module = t.formatFault? module) :
    formatFaultIn? module (unmarkedEach ts) = formatFaultIn? module ts := by
  induction ts with
  | nil => rfl
  | cons t ts ih =>
      obtain ⟨ht, hts⟩ := List.forall_mem_cons.mp h
      rw [unmarkedEach, formatFaultIn?, formatFaultIn?, ht, ih hts]

theorem unmarked_formatFault? (module : Text) (t : TypeDef) :
    t.unmarked.formatFault? module = t.formatFault? module := by
  induction t using TypeDef.induction with
  | absent => rfl
  | node head nested ih =>
      rw [unmarked, formatFault?, formatFault?, unmarkedEach_formatFaultIn? ih]
      rfl

end TypeDef

/-- The definition without the marks of empty lists. -/
def Definition.unmarked (d : Definition) : Definition := { d with head := d.head.unmarked }

namespace TypeDef

theorem unmarkedEach_definitionsOf {module : Text} {outer : Option Text} {ts : List TypeDef}
    (h : ∀ t ∈ ts, t.unmarked.definitions module outer =
      (t.definitions module outer).map Definition.unmarked) :
    definitionsOf module outer (unmarkedEach ts) =
      (definitionsOf module outer ts).map Definition.unmarked := by
  induction ts with
  | nil => rfl
  | cons t ts ih =>
      obtain ⟨ht, hts⟩ := List.forall_mem_cons.mp h
      rw [unmarkedEach, definitionsOf, definitionsOf, ht, ih hts, List.map_append]

theorem unmarked_definitions (module : Text) (outer : Option Text) (t : TypeDef) :
    t.unmarked.definitions module outer =
      (t.definitions module outer).map Definition.unmarked := by
  induction t using TypeDef.induction generalizing outer with
  | absent => rfl
  | node head nested ih =>
      have hname : head.unmarked.fullNameIn outer = head.fullNameIn outer := by cases outer <;> rfl
      have hinner := unmarkedEach_definitionsOf fun t ht => ih t ht (some (head.fullNameIn outer))
      rw [unmarked, definitions, definitions, hname, hinner]
      by_cases hplace : head.name = placeholderName
      · rw [if_pos hplace]
        exact if_pos hplace
      · rw [if_neg hplace]
        exact if_neg hplace

end TypeDef

/-! ## Modules -/

namespace Module

/-- The module without the marks of empty lists: what the file format keeps of it. -/
def unmarked (m : Module) : Module := { m with listed := m.listed.map TypeDef.unmarkedEach }

theorem unmarked_types (m : Module) : m.unmarked.types = TypeDef.unmarkedEach m.types := by
  cases h : m.listed with
  | none => simp [unmarked, types, h, TypeDef.unmarkedEach]
  | some ts => simp [unmarked, types, h]

theorem unmarked_toValue (m : Module) : m.unmarked.toValue = m.toValue := by
  obtain ⟨name, version, listed⟩ := m
  cases listed with
  | none => rfl
  | some ts =>
      have hts : TypeDef.toValues (TypeDef.unmarkedEach ts) = TypeDef.toValues ts :=
        TypeDef.unmarkedEach_toValues fun t _ => t.unmarked_toValue
      simp only [toValue, unmarked, Option.map_some, Option.getD_some, hts]

theorem unmarked_formatFault? (m : Module) : m.unmarked.formatFault? = m.formatFault? := by
  have htypes : TypeDef.formatFaultIn? m.name (TypeDef.unmarkedEach m.types) =
      TypeDef.formatFaultIn? m.name m.types :=
    TypeDef.unmarkedEach_formatFaultIn? fun t _ => t.unmarked_formatFault? m.name
  rw [formatFault?, unmarked_types, formatFault?, ← htypes]
  rfl

theorem unmarked_definitions (m : Module) :
    m.unmarked.definitions = m.definitions.map Definition.unmarked := by
  rw [definitions, unmarked_types]
  exact TypeDef.unmarkedEach_definitionsOf fun t _ => t.unmarked_definitions m.name none

theorem readValue_toValue (m : Module) : readValue m.toValue = some m.unmarked := by
  obtain ⟨name, version, listed⟩ := m
  refine readEntries_append (s := { name, version }) ?_ (readEntries_entry ?_)
  · refine readEntries_unless (s := { name }) ?_ (fun _ => rfl) (readEntries_entry rfl)
    simp +contextual
  · cases listed with
    | none => rfl
    | some ts =>
        exact congrArg (Option.map _) (TypeDef.readEach_map fun t _ => t.readValue_toValue)

theorem toValue_fits {m : Module} (h : m.Narrow) : m.toValue.Fits := by
  have htypes : ((m.listed.map fun ts => Value.arr (TypeDef.toValues ts)).getD .nil).Fits := by
    cases hl : m.listed with
    | none => exact .nil
    | some ts =>
        have hts : m.types = ts := by rw [types, hl, Option.getD_some]
        obtain ⟨hlen, hnarrow⟩ := hts ▸ h.types
        rw [Option.map_some, Option.getD_some, TypeDef.toValues_eq_map]
        exact .arr (by simpa using hlen)
          (List.forall_mem_map.mpr fun t ht => TypeDef.toValue_fits (hnarrow t ht))
  have hentries := EntriesFit.nil.add "name" (.str h.name)
    |>.addUnless m.version.isEmpty "version" (.str h.version)
    |>.add "types" htypes
  exact hentries.fits (by decide)

theorem decode_fileBytes {m : Module} (h : m.formatFault? = none) (hn : m.Narrow) :
    decode m.fileBytes = .ok m.unmarked := by
  have hparse := Value.parse_render (toValue_fits hn) []
  rw [List.append_nil] at hparse
  have hbody : decodeBody ([1, 0] ++ m.toValue.render) = .ok m.unmarked := by
    simp only [List.cons_append, List.nil_append, decodeBody]
    rw [if_neg (by decide), hparse, Option.bind_some, readValue_toValue]
    simp only [unmarked_formatFault?, h]
  exact hbody

/-- **What is written is read back.** Take a module that the format accepts and whose texts and
lists are shorter than 2^32, such as any module that was read. It can be written, and reading the
bytes gives the same module, except that no empty list is marked as spelled out. Every definition
has the links it had, and writing the module once more gives the same bytes. -/
theorem decode_encode (m : Module)
    (h : m.formatFault? = none ∧ m.Narrow ∨ ∃ bytes, decode bytes = .ok m) :
    ∃ bytes, m.encode = .ok bytes ∧ decode bytes = .ok m.unmarked ∧
      m.unmarked.encode = .ok bytes ∧
      m.unmarked.definitions = m.definitions.map Definition.unmarked := by
  obtain ⟨hfault, hnarrow⟩ : m.formatFault? = none ∧ m.Narrow := by
    rcases h with h | ⟨bytes, hbytes⟩
    · exact h
    · exact checked_of_decode hbytes
  refine ⟨m.fileBytes, ?_, decode_fileBytes hfault hnarrow, ?_, m.unmarked_definitions⟩
  · rw [encode, hfault]
  · rw [encode, unmarked_formatFault?, hfault, fileBytes, unmarked_toValue, fileBytes]

/-- A document that spells out the empty list of the types nested in `Host`. -/
def spelledOut : Value :=
  .map [entry "name" (.str "App"),
    entry "types" (.arr [.map [entry "ns" (.str "App"), entry "name" (.str "Host"),
      entry "attrs" (.int .u16 3), entry "nested" (.arr []),
      entry "methods" (.arr [MethodDef.placeValue (some Sample.ctor)])]])]

/-- The module that the document holds. -/
def spelledOutModule : Module :=
  { name := "App",
    listed := some
      [.node { ns := "App", name := "Host", attrs := 3, methods := [some Sample.ctor],
               empties := { nested := true } } []] }

/-- A module that is read back without its mark. -/
theorem decode_encode_spelledOut :
    decode (mark ++ [1, 0] ++ spelledOut.render) = .ok spelledOutModule ∧
      spelledOutModule.unmarked ≠ spelledOutModule ∧
      ∃ bytes, spelledOutModule.encode = .ok bytes ∧
        decode bytes = .ok spelledOutModule.unmarked := by
  have hread : decode (mark ++ [1, 0] ++ spelledOut.render) = .ok spelledOutModule :=
    eq_ok_of_toOption (by decide +kernel)
  obtain ⟨bytes, hencode, hdecode, -⟩ := decode_encode spelledOutModule (Or.inr ⟨_, hread⟩)
  exact ⟨hread, by decide, bytes, hencode, hdecode⟩

end Module

end Monomorph
