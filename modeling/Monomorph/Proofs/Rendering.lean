import Mathlib.Tactic.NormNum
import Monomorph.Binary.Value

/-!
# Values are read back as they are written

`Value.parse` reads the value that `Value.render` has written off the front of the bytes and leaves
what stands behind it. That needs lengths that fit their four bytes and integers whose bits fit
their form; `Value.Fits` says so.

The reader counts its steps. A list spends a step on each item and a value a step on its lead byte,
and every value has at least one byte, so twice the number of bytes is always enough.
-/

namespace Monomorph.Binary

/-! ## Numbers -/

theorem length_bigEndian (n v : Nat) : (bigEndian n v).length = n := by
  induction n generalizing v with
  | zero => rfl
  | succ n ih => simp [bigEndian, ih]

theorem ofBigEndian_append (bytes : List UInt8) (b : UInt8) :
    ofBigEndian (bytes ++ [b]) = ofBigEndian bytes * 256 + b.toNat := by
  simp [ofBigEndian]

/-- Writing a number in `n` bytes keeps its last `n` bytes. -/
theorem ofBigEndian_bigEndian (n v : Nat) : ofBigEndian (bigEndian n v) = v % 256 ^ n := by
  induction n generalizing v with
  | zero => simp [bigEndian, ofBigEndian, Nat.mod_one]
  | succ n ih =>
      have hbyte : (v % 256).toUInt8.toNat = v % 256 := by simp
      rw [bigEndian, ofBigEndian_append, ih, hbyte, Nat.pow_succ', Nat.mod_mul]
      omega

theorem ofBigEndian_bigEndian_of_lt {n v : Nat} (h : v < 256 ^ n) :
    ofBigEndian (bigEndian n v) = v := by
  rw [ofBigEndian_bigEndian, Nat.mod_eq_of_lt h]

/-- The bits that an integer of a form can hold. -/
def IntForm.Fits (form : IntForm) (bits : UInt64) : Prop :=
  match form with
  | .fix => bits.toNat < 128 ∨ 18446744073709551584 ≤ bits.toNat
  | .u8 => bits.toNat < 256
  | .u16 => bits.toNat < 65536
  | .u32 => bits.toNat < 4294967296
  | .u64 => True
  | .i8 => bits.toNat < 128 ∨ 18446744073709551488 ≤ bits.toNat
  | .i16 => bits.toNat < 32768 ∨ 18446744073709518848 ≤ bits.toNat
  | .i32 => bits.toNat < 2147483648 ∨ 18446744071562067968 ≤ bits.toNat
  | .i64 => True

namespace Value

/-- Every text, list and map in the value has a length that four bytes hold, and every integer fits
its form. -/
inductive Fits : Value → Prop where
  | nil : Fits .nil
  | bool (b : Bool) : Fits (.bool b)
  | int {form : IntForm} {bits : UInt64} (h : form.Fits bits) : Fits (.int form bits)
  | str {bytes : List UInt8} (h : bytes.length < 4294967296) : Fits (.str bytes)
  | arr {items : List Value} (h : items.length < 4294967296) (hitems : ∀ v ∈ items, Fits v) :
      Fits (.arr items)
  | map {entries : List (Value × Value)} (h : entries.length < 4294967296)
      (hkeys : ∀ e ∈ entries, Fits e.1) (hvalues : ∀ e ∈ entries, Fits e.2) : Fits (.map entries)

/-! ## Heads -/

theorem takeBytes?_append {n : Nat} {w : List UInt8} (h : w.length = n) (rest : List UInt8) :
    takeBytes? n (w ++ rest) = some (w, rest) := by
  unfold takeBytes?
  rw [if_pos (by rw [List.length_append]; omega), List.take_left' h, List.drop_left' h]

theorem takeNat?_bigEndian {n v : Nat} (h : v < 256 ^ n) (rest : List UInt8) :
    takeNat? n (bigEndian n v ++ rest) = some (v, rest) := by
  rw [takeNat?, takeBytes?_append (length_bigEndian n v)]
  simp only [Option.map_some, ofBigEndian_bigEndian_of_lt h]

theorem toNat_add_toUInt8 {base : UInt8} {n : Nat} (h : base.toNat + n < 256) :
    (base + n.toUInt8).toNat = base.toNat + n := by
  have hn : n.toUInt8.toNat = n % 256 := by simp
  rw [UInt8.toNat_add, hn]
  omega

theorem lead?_fixStr {n : Nat} (h : n < 32) :
    lead? (0xA0 + n.toUInt8) = some (.fixRun n .str) := by
  have hb : (0xA0 + n.toUInt8 : UInt8).toNat = 160 + n := by
    rw [toNat_add_toUInt8 (by simp; omega)]
    rfl
  unfold lead?
  simp only [hb]
  rw [if_neg (by omega), if_neg (by omega), if_neg (by omega), if_pos (by omega),
    Nat.add_sub_cancel_left]

theorem lead?_fixList {n : Nat} (h : n < 16) : lead? (0x90 + n.toUInt8) = some (.fixList n) := by
  have hb : (0x90 + n.toUInt8 : UInt8).toNat = 144 + n := by
    rw [toNat_add_toUInt8 (by simp; omega)]
    rfl
  unfold lead?
  simp only [hb]
  rw [if_neg (by omega), if_neg (by omega), if_pos (by omega), Nat.add_sub_cancel_left]

theorem lead?_fixTable {n : Nat} (h : n < 16) : lead? (0x80 + n.toUInt8) = some (.fixTable n) := by
  have hb : (0x80 + n.toUInt8 : UInt8).toNat = 128 + n := by
    rw [toNat_add_toUInt8 (by simp; omega)]
    rfl
  unfold lead?
  simp only [hb]
  rw [if_neg (by omega), if_pos (by omega), Nat.add_sub_cancel_left]

variable {fuel : Nat} {rest : List UInt8}

theorem parseWith_str {bytes : List UInt8} (h : bytes.length < 4294967296) :
    parseWith (fuel + 1) (strHead bytes.length ++ (bytes ++ rest)) = some (.str bytes, rest) := by
  have htake := takeBytes?_append (w := bytes) rfl rest
  -- Whatever the length of the length, the reader sees it and takes that many bytes.
  have hrun : ∀ {b : UInt8} {size : Nat}, lead? b = some (.run size 0 .str) →
      bytes.length < 256 ^ size → parseWith (fuel + 1)
        (b :: bigEndian size bytes.length ++ (bytes ++ rest)) = some (.str bytes, rest) := by
    intro b size hlead hsize
    rw [List.cons_append, parseWith, hlead]
    simp only [takeNat?_bigEndian hsize, Nat.add_zero, htake, Option.map_some]
  unfold strHead
  split
  · rename_i hn
    rw [List.singleton_append, parseWith, lead?_fixStr hn]
    simp only [htake, Option.map_some]
  · split
    · exact hrun rfl (by omega)
    · split
      · exact hrun rfl (by omega)
      · exact hrun rfl (by omega)

theorem parseWith_arr {n : Nat} (h : n < 4294967296) (bs : List UInt8) :
    parseWith (fuel + 1) (arrHead n ++ bs)
      = (parseItems fuel n bs).map fun (vs, rest) => (.arr vs, rest) := by
  have hlist : ∀ {b : UInt8} {size : Nat}, lead? b = some (.list size) → n < 256 ^ size →
      parseWith (fuel + 1) (b :: bigEndian size n ++ bs)
        = (parseItems fuel n bs).map fun (vs, rest) => (.arr vs, rest) := by
    intro b size hlead hsize
    rw [List.cons_append, parseWith, hlead]
    simp only [takeNat?_bigEndian hsize]
  unfold arrHead
  split
  · rename_i hn
    rw [List.singleton_append, parseWith, lead?_fixList hn]
  · split
    · exact hlist rfl (by omega)
    · exact hlist rfl (by omega)

theorem parseWith_map {n : Nat} (h : n < 4294967296) (bs : List UInt8) :
    parseWith (fuel + 1) (mapHead n ++ bs)
      = (parseEntries fuel n bs).map fun (es, rest) => (.map es, rest) := by
  have htable : ∀ {b : UInt8} {size : Nat}, lead? b = some (.table size) → n < 256 ^ size →
      parseWith (fuel + 1) (b :: bigEndian size n ++ bs)
        = (parseEntries fuel n bs).map fun (es, rest) => (.map es, rest) := by
    intro b size hlead hsize
    rw [List.cons_append, parseWith, hlead]
    simp only [takeNat?_bigEndian hsize]
  unfold mapHead
  split
  · rename_i hn
    rw [List.singleton_append, parseWith, lead?_fixTable hn]
  · split
    · exact htable rfl (by omega)
    · exact htable rfl (by omega)

/-! ## Integers -/

theorem parseWith_fix {bits : UInt64} (h : IntForm.fix.Fits bits) :
    parseWith (fuel + 1) (renderInt .fix bits ++ rest) = some (.int .fix bits, rest) := by
  have hlt := bits.toNat_lt
  have hbyte : (bits.toNat % 256).toUInt8.toNat = bits.toNat % 256 := by simp
  have hlead : lead? (bits.toNat % 256).toUInt8 = some (.done (.int .fix bits)) := by
    unfold lead?
    simp only [hbyte]
    rcases h with h | h
    · rw [if_pos (by omega), Nat.mod_eq_of_lt (by omega)]
      simp
    · rw [if_neg (by omega), if_neg (by omega), if_neg (by omega), if_neg (by omega),
        if_pos (by omega), signed, if_neg (by norm_num; omega)]
      have hback : Nat.pow 2 64 - Nat.pow 2 (8 * 1) + bits.toNat % 256 = bits.toNat := by
        norm_num
        omega
      rw [hback]
      simp
  rw [renderInt, bigEndian, bigEndian, List.nil_append, List.singleton_append, parseWith, hlead]

/-- A word behind a lead byte, which the reader turns back into the bits. -/
theorem parseWith_word {b : UInt8} {size : Nat} {make : List UInt8 → Value} {v : Value} {n : Nat}
    (hlead : lead? b = some (.word size make)) (hmake : make (bigEndian size n) = v) :
    parseWith (fuel + 1) (b :: bigEndian size n ++ rest) = some (v, rest) := by
  rw [List.cons_append, parseWith, hlead]
  simp only [takeBytes?_append (length_bigEndian size n), Option.map_some, hmake]

/-- The last bytes of a number that fits a signed word give the number back. -/
theorem signed_bigEndian {size : Nat} {bits : UInt64} (hsize : size = 1 ∨ size = 2 ∨ size = 4)
    (h : bits.toNat < 2 ^ (8 * size - 1) ∨ 2 ^ 64 - 2 ^ (8 * size - 1) ≤ bits.toNat) :
    signed size (ofBigEndian (bigEndian size bits.toNat)) = bits := by
  have hlt := bits.toNat_lt
  have hback : (if bits.toNat % 256 ^ size < Nat.pow 2 (8 * size - 1) then bits.toNat % 256 ^ size
      else Nat.pow 2 64 - Nat.pow 2 (8 * size) + bits.toNat % 256 ^ size) = bits.toNat := by
    rcases hsize with rfl | rfl | rfl
    all_goals
      norm_num at h ⊢
      split <;> omega
  rw [ofBigEndian_bigEndian, signed, ← apply_ite Nat.toUInt64, hback]
  simp

theorem parseWith_int {form : IntForm} {bits : UInt64} (h : form.Fits bits) :
    parseWith (fuel + 1) (renderInt form bits ++ rest) = some (.int form bits, rest) := by
  have hlt := bits.toNat_lt
  have hunsigned : ∀ {size : Nat}, bits.toNat < 256 ^ size →
      (ofBigEndian (bigEndian size bits.toNat)).toUInt64 = bits := by
    intro size hsize
    rw [ofBigEndian_bigEndian_of_lt hsize]
    simp
  cases form with
  | fix => exact parseWith_fix h
  | u8 => exact parseWith_word rfl (congrArg _ (hunsigned h))
  | u16 => exact parseWith_word rfl (congrArg _ (hunsigned h))
  | u32 => exact parseWith_word rfl (congrArg _ (hunsigned h))
  | u64 => exact parseWith_word rfl (congrArg _ (hunsigned (by omega)))
  | i8 => exact parseWith_word rfl (congrArg _ (signed_bigEndian (by simp) h))
  | i16 => exact parseWith_word rfl (congrArg _ (signed_bigEndian (by simp) h))
  | i32 => exact parseWith_word rfl (congrArg _ (signed_bigEndian (by simp) h))
  | i64 => exact parseWith_word rfl (congrArg _ (hunsigned (by omega)))

/-- The shortest form of a number fits it. -/
theorem fits_shortest (v : Int64) : (shortest v).Fits := by
  have hbits : v.toInt = if 2 * v.toUInt64.toNat < 2 ^ 64 then (v.toUInt64.toNat : Int)
      else (v.toUInt64.toNat : Int) - (2 ^ 64 : Nat) := v.toBitVec.toInt_eq_toNat_cond
  have hlt := v.toUInt64.toNat_lt
  refine .int ?_
  unfold shortestForm
  split_ifs at hbits ⊢ <;> simp only [IntForm.Fits] <;> omega

/-! ## Values -/

/-- The value is read back off the front of any bytes. -/
def Reads (v : Value) : Prop :=
  ∀ fuel rest, 2 * v.render.length ≤ fuel → parseWith fuel (v.render ++ rest) = some (v, rest)

theorem renderInt_ne_nil (form : IntForm) (bits : UInt64) : renderInt form bits ≠ [] := by
  cases form <;> simp [renderInt, bigEndian]

theorem render_ne_nil {v : Value} (h : v.Fits) : v.render ≠ [] := by
  cases h with
  | nil => simp [render]
  | bool b => simp [render]
  | int h => simpa [render] using renderInt_ne_nil _ _
  | str h =>
      simp only [render, strHead]
      split_ifs <;> simp
  | arr h _ =>
      simp only [render, arrHead]
      split_ifs <;> simp
  | map h _ _ =>
      simp only [render, mapHead]
      split_ifs <;> simp

theorem parseItems_render {items : List Value} (hfits : ∀ v ∈ items, v.Fits)
    (hreads : ∀ v ∈ items, v.Reads) : ∀ fuel rest, 2 * (renderItems items).length < fuel →
      parseItems fuel items.length (renderItems items ++ rest) = some (items, rest) := by
  induction items with
  | nil => exact fun fuel rest _ => by simp [parseItems, renderItems]
  | cons v vs ih =>
      intro fuel rest hfuel
      obtain ⟨hv, hvs⟩ := List.forall_mem_cons.mp hreads
      obtain ⟨hvf, hvsf⟩ := List.forall_mem_cons.mp hfits
      have hpos := List.length_pos_iff.mpr (render_ne_nil hvf)
      rw [renderItems, List.length_append] at hfuel
      obtain ⟨fuel, rfl⟩ : ∃ n, fuel = n + 1 := ⟨fuel - 1, by omega⟩
      rw [List.length_cons, renderItems, List.append_assoc, parseItems, hv _ _ (by omega)]
      simp only [ih hvsf hvs fuel rest (by omega), Option.map_some]

theorem parseEntries_render {entries : List (Value × Value)}
    (hfits : ∀ e ∈ entries, e.1.Fits) (hkeys : ∀ e ∈ entries, e.1.Reads)
    (hvalues : ∀ e ∈ entries, e.2.Reads) :
    ∀ fuel rest, 2 * (renderEntries entries).length < fuel →
      parseEntries fuel entries.length (renderEntries entries ++ rest) = some (entries, rest) := by
  induction entries with
  | nil => exact fun fuel rest _ => by simp [parseEntries, renderEntries]
  | cons e es ih =>
      obtain ⟨k, v⟩ := e
      intro fuel rest hfuel
      obtain ⟨(hkf : k.Fits), hesf⟩ := List.forall_mem_cons.mp hfits
      obtain ⟨(hk : k.Reads), hks⟩ := List.forall_mem_cons.mp hkeys
      obtain ⟨(hv : v.Reads), hvs⟩ := List.forall_mem_cons.mp hvalues
      have hpos := List.length_pos_iff.mpr (render_ne_nil hkf)
      rw [renderEntries, List.length_append, List.length_append] at hfuel
      obtain ⟨fuel, rfl⟩ : ∃ n, fuel = n + 1 := ⟨fuel - 1, by omega⟩
      rw [List.length_cons, renderEntries, List.append_assoc, List.append_assoc, parseEntries,
        hk _ _ (by omega)]
      simp only [hv _ _ (by omega : 2 * v.render.length ≤ fuel), ih hesf hks hvs fuel rest (by omega),
        Option.map_some]

theorem reads_of_fits {v : Value} (h : v.Fits) : v.Reads := by
  have hstep : ∀ {v : Value} {fuel : Nat}, v.Fits → 2 * v.render.length ≤ fuel →
      ∃ n, fuel = n + 1 := by
    intro v fuel hv hfuel
    have hpos := List.length_pos_iff.mpr (render_ne_nil hv)
    exact ⟨fuel - 1, by omega⟩
  induction h with
  | nil =>
      intro fuel rest hfuel
      obtain ⟨n, rfl⟩ := hstep .nil hfuel
      rfl
  | bool b =>
      intro fuel rest hfuel
      obtain ⟨n, rfl⟩ := hstep (.bool b) hfuel
      cases b <;> rfl
  | int h =>
      intro fuel rest hfuel
      obtain ⟨n, rfl⟩ := hstep (.int h) hfuel
      exact parseWith_int h
  | str h =>
      intro fuel rest hfuel
      obtain ⟨n, rfl⟩ := hstep (.str h) hfuel
      rw [render, List.append_assoc]
      exact parseWith_str h
  | @arr items h hitems ih =>
      intro fuel rest hfuel
      obtain ⟨n, rfl⟩ := hstep (.arr h hitems) hfuel
      have hhead : (arrHead items.length).length ≠ 0 := by
        unfold arrHead
        split_ifs <;> simp
      rw [render, List.length_append] at hfuel
      rw [render, List.append_assoc, parseWith_arr h,
        parseItems_render hitems ih n rest (by omega), Option.map_some]
  | @map entries h hkeys hvalues ihk ihv =>
      intro fuel rest hfuel
      obtain ⟨n, rfl⟩ := hstep (.map h hkeys hvalues) hfuel
      have hhead : (mapHead entries.length).length ≠ 0 := by
        unfold mapHead
        split_ifs <;> simp
      rw [render, List.length_append] at hfuel
      rw [render, List.append_assoc, parseWith_map h,
        parseEntries_render hkeys ihk ihv n rest (by omega), Option.map_some]

/-- A value that fits is read back off the front of what it was written to. -/
theorem parse_render {v : Value} (h : v.Fits) (rest : List UInt8) :
    parse (v.render ++ rest) = some (v, rest) := by
  refine reads_of_fits h _ _ ?_
  rw [List.length_append]
  omega

end Value

end Monomorph.Binary
