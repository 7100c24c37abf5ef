import Monomorph.Proofs.Decoded
import Monomorph.Proofs.Refusal

/-!
# Files are self-delimiting

The reader of a value looks at the bytes of the value and at nothing behind them. What it reads from
some bytes it reads from any longer ones, however much fuel it has left over
(`Value.parseWith_extend`), so a value that breaks off is no value: were it one, the whole bytes
would give the same value and leave the missing part unread (`Value.parse_take`).

For files this means that bytes behind the module do no harm, and that a file that was cut anywhere
is refused, with an error that only says where the cut lies.
-/

namespace Monomorph

namespace Binary.Value

theorem takeBytes?_extend {n : Nat} {bs w rest : List UInt8}
    (h : takeBytes? n bs = some (w, rest)) (s : List UInt8) :
    takeBytes? n (bs ++ s) = some (w, rest ++ s) := by
  unfold takeBytes? at h ⊢
  split at h
  · rename_i hn
    cases h
    have hlonger : n ≤ (bs ++ s).length := by
      rw [List.length_append]
      omega
    rw [if_pos hlonger, List.take_append_of_le_length hn, List.drop_append_of_le_length hn]
  · cases h

theorem takeNat?_extend {n k : Nat} {bs rest : List UInt8} (h : takeNat? n bs = some (k, rest))
    (s : List UInt8) : takeNat? n (bs ++ s) = some (k, rest ++ s) := by
  obtain ⟨⟨w, rest'⟩, htake, heq⟩ := Option.map_eq_some_iff.mp h
  cases heq
  rw [takeNat?, takeBytes?_extend htake, Option.map_some]

/-! The reader, the items of a list and the entries of a map go side by side, as the reader does. -/

mutual
theorem parseWith_extend : ∀ {fuel fuel' : Nat} {bs rest : List UInt8} {v : Value},
    fuel ≤ fuel' → parseWith fuel bs = some (v, rest) →
      ∀ s, parseWith fuel' (bs ++ s) = some (v, rest ++ s)
  | 0, _, _, _, _, _, h, _ => by simp [parseWith] at h
  | _ + 1, _, [], _, _, _, h, _ => by simp [parseWith] at h
  | _ + 1, 0, _ :: _, _, _, hle, _, _ => by omega
  | fuel + 1, fuel' + 1, b :: bs, rest, v, hle, h, s => by
      have hle' : fuel ≤ fuel' := by omega
      rw [List.cons_append]
      rw [parseWith] at h ⊢
      cases hl : lead? b with
      | none => simp [hl] at h
      | some l =>
          rw [hl] at h
          cases l with
          | done w =>
              cases h
              rfl
          | word size make =>
              obtain ⟨⟨w, r⟩, htake, heq⟩ := Option.map_eq_some_iff.mp h
              cases heq
              simp only [takeBytes?_extend htake s, Option.map_some]
          | fixRun n make =>
              obtain ⟨⟨w, r⟩, htake, heq⟩ := Option.map_eq_some_iff.mp h
              cases heq
              simp only [takeBytes?_extend htake s, Option.map_some]
          | run size extra make =>
              dsimp only at h
              split at h
              · cases h
              · rename_i n r hn
                obtain ⟨⟨w, r'⟩, htake, heq⟩ := Option.map_eq_some_iff.mp h
                cases heq
                simp only [takeNat?_extend hn s, takeBytes?_extend htake s, Option.map_some]
          | fixList n =>
              obtain ⟨⟨vs, r⟩, hitems, heq⟩ := Option.map_eq_some_iff.mp h
              cases heq
              simp only [parseItems_extend hle' hitems s, Option.map_some]
          | list size =>
              dsimp only at h
              split at h
              · cases h
              · rename_i n r hn
                obtain ⟨⟨vs, r'⟩, hitems, heq⟩ := Option.map_eq_some_iff.mp h
                cases heq
                simp only [takeNat?_extend hn s, parseItems_extend hle' hitems s, Option.map_some]
          | fixTable n =>
              obtain ⟨⟨es, r⟩, hentries, heq⟩ := Option.map_eq_some_iff.mp h
              cases heq
              simp only [parseEntries_extend hle' hentries s, Option.map_some]
          | table size =>
              dsimp only at h
              split at h
              · cases h
              · rename_i n r hn
                obtain ⟨⟨es, r'⟩, hentries, heq⟩ := Option.map_eq_some_iff.mp h
                cases heq
                simp only [takeNat?_extend hn s, parseEntries_extend hle' hentries s,
                  Option.map_some]

theorem parseItems_extend : ∀ {fuel fuel' n : Nat} {bs rest : List UInt8} {vs : List Value},
    fuel ≤ fuel' → parseItems fuel n bs = some (vs, rest) →
      ∀ s, parseItems fuel' n (bs ++ s) = some (vs, rest ++ s)
  | _, _, 0, _, _, _, _, h, _ => by
      rw [parseItems] at h ⊢
      cases h
      rfl
  | 0, _, _ + 1, _, _, _, _, h, _ => by simp [parseItems] at h
  | _ + 1, 0, _ + 1, _, _, _, hle, _, _ => by omega
  | fuel + 1, fuel' + 1, n + 1, bs, rest, vs, hle, h, s => by
      have hle' : fuel ≤ fuel' := by omega
      rw [parseItems] at h ⊢
      cases hv : parseWith fuel bs with
      | none => simp [hv] at h
      | some item =>
          rw [hv] at h
          obtain ⟨⟨ws, r⟩, hitems, heq⟩ := Option.map_eq_some_iff.mp h
          cases heq
          simp only [parseWith_extend hle' hv s, parseItems_extend hle' hitems s, Option.map_some]

theorem parseEntries_extend : ∀ {fuel fuel' n : Nat} {bs rest : List UInt8}
    {es : List (Value × Value)}, fuel ≤ fuel' → parseEntries fuel n bs = some (es, rest) →
      ∀ s, parseEntries fuel' n (bs ++ s) = some (es, rest ++ s)
  | _, _, 0, _, _, _, _, h, _ => by
      rw [parseEntries] at h ⊢
      cases h
      rfl
  | 0, _, _ + 1, _, _, _, _, h, _ => by simp [parseEntries] at h
  | _ + 1, 0, _ + 1, _, _, _, hle, _, _ => by omega
  | fuel + 1, fuel' + 1, n + 1, bs, rest, es, hle, h, s => by
      have hle' : fuel ≤ fuel' := by omega
      rw [parseEntries] at h ⊢
      cases hk : parseWith fuel bs with
      | none => simp [hk] at h
      | some key =>
          rw [hk] at h
          dsimp only at h
          cases hv : parseWith fuel key.2 with
          | none => simp [hv] at h
          | some value =>
              rw [hv] at h
              obtain ⟨⟨fs, r⟩, hentries, heq⟩ := Option.map_eq_some_iff.mp h
              cases heq
              simp only [parseWith_extend hle' hk s, parseWith_extend hle' hv s,
                parseEntries_extend hle' hentries s, Option.map_some]
end

/-- What stands behind a value does not matter. -/
theorem parse_append {bs rest : List UInt8} {v : Value} (h : parse bs = some (v, rest))
    (s : List UInt8) : parse (bs ++ s) = some (v, rest ++ s) := by
  refine parseWith_extend ?_ h s
  rw [List.length_append]
  omega

/-- A value that breaks off is not read. -/
theorem parse_take {bs rest : List UInt8} {v : Value} (h : parse bs = some (v, rest)) {n : Nat}
    (hn : n < bs.length - rest.length) : parse (bs.take n) = none := by
  cases hcut : parse (bs.take n) with
  | none => rfl
  | some r =>
      -- The whole bytes would give the same value, and leave more of themselves than they do.
      have hwhole := parse_append hcut (bs.drop n)
      rw [List.take_append_drop, h] at hwhole
      have hrest : rest = r.2 ++ bs.drop n := congrArg Prod.snd (Option.some.inj hwhole)
      have hlen : rest.length = r.2.length + (bs.length - n) := by
        rw [hrest, List.length_append, List.length_drop]
      omega

end Binary.Value

open Binary

namespace Module

/-! ## Files -/

/-- A file is read exactly if it holds the module and the module breaks no rule. -/
theorem decode_eq_ok_iff {bytes : List UInt8} {m : Module} :
    decode bytes = .ok m ↔ Holds bytes m ∧ m.formatFault? = none := by
  rcases decode_cases bytes with ⟨e, r, herror, -, -, hnone⟩ | ⟨m', hholds, hdecode⟩
  · constructor
    · intro hok
      rw [herror] at hok
      cases hok
    · rintro ⟨hholds, -⟩
      exact absurd hholds (hnone m)
  · constructor
    · intro hok
      cases hfault : m'.formatFault? with
      | some f =>
          rw [hfault, hok] at hdecode
          cases hdecode
      | none =>
          rw [hfault, hok] at hdecode
          cases hdecode
          exact ⟨hholds, hfault⟩
    · rintro ⟨hholds', hfault⟩
      obtain rfl := hholds.unique hholds'
      rw [hdecode, hfault]

theorem Holds.append {bytes : List UInt8} {m : Module} (h : Holds bytes m) (s : List UInt8) :
    Holds (bytes ++ s) m := by
  obtain ⟨doc, rfl, v, rest, hparse, hread⟩ := h
  exact ⟨doc ++ s, List.append_assoc .., v, rest ++ s, Value.parse_append hparse s, hread⟩

/-- Bytes behind the module of a file do no harm. -/
theorem decode_append {bytes : List UInt8} {m : Module} (h : decode bytes = .ok m)
    (s : List UInt8) : decode (bytes ++ s) = .ok m := by
  obtain ⟨hholds, hfault⟩ := decode_eq_ok_iff.mp h
  exact decode_eq_ok_iff.mpr ⟨hholds.append s, hfault⟩

/-- What reading says of a file of which only the first `n` bytes are there. -/
def cutError (n : Nat) : DecodeError :=
  if n < 4 then .badMark else if n < 6 then .truncatedHeader else .undecodable

/-- A file that breaks off in front of the end of its document is refused. -/
theorem decode_take {doc rest : List UInt8} {v : Value} (h : Value.parse doc = some (v, rest))
    {n : Nat} (hn : n < 6 + (doc.length - rest.length)) :
    decode ((mark ++ [1, 0] ++ doc).take n) = .error (cutError n) := by
  match n, hn with
  | 0, _ | 1, _ | 2, _ | 3, _ => rfl
  | 4, _ | 5, _ => rfl
  | n + 6, hn =>
      have hcut : Value.parse (doc.take n) = none := Value.parse_take h (by omega)
      have hbody : decodeBody (1 :: 0 :: doc.take n) = .error .undecodable := by
        rw [decodeBody]
        dsimp only
        rw [if_neg (by decide), hcut]
        rfl
      have herror : cutError (n + 6) = .undecodable := by
        rw [cutError, if_neg (by omega), if_neg (by omega)]
      rw [herror]
      exact hbody

theorem length_fileBytes (m : Module) : m.fileBytes.length = 6 + m.toValue.render.length := by
  rw [fileBytes, List.length_append]
  rfl

/-- **The format is self-delimiting.** A module that the format accepts and whose texts and lists
are shorter than 2^32 can be written. Whatever bytes are put behind the file, it is read as the same
module; and every part of it that breaks off before the end is refused, with an error that says
whether the mark, the schema or the document is cut. -/
theorem decode_selfDelimiting (m : Module) (hformat : m.formatFault? = none) (hnarrow : m.Narrow) :
    ∃ bytes, m.encode = .ok bytes ∧
      decode bytes = .ok m.unmarked ∧
      (∀ s, decode (bytes ++ s) = decode bytes) ∧
      ∀ p, p <+: bytes → p ≠ bytes → decode p = .error (cutError p.length) := by
  have hdecode := decode_fileBytes hformat hnarrow
  refine ⟨m.fileBytes, by rw [encode, hformat], hdecode, ?_, ?_⟩
  · intro s
    rw [hdecode]
    exact decode_append hdecode s
  · intro p hp hne
    have hparse := Value.parse_render (toValue_fits hnarrow) []
    rw [List.append_nil] at hparse
    have htake : p = m.fileBytes.take p.length := List.prefix_iff_eq_take.mp hp
    have hlen : p.length < m.fileBytes.length := by
      refine Nat.lt_of_le_of_ne hp.length_le ?_
      exact fun heq => hne (hp.eq_of_length heq)
    rw [htake, List.length_take, Nat.min_eq_left (Nat.le_of_lt hlen)]
    refine decode_take hparse ?_
    rwa [length_fileBytes] at hlen

/-- The file of the ring with something behind it, its first five bytes, and all but its last. -/
theorem decode_selfDelimiting_ring :
    Sample.ring.module.formatFault? = none ∧ Sample.ring.module.Narrow ∧
      ∃ bytes, Sample.ring.module.encode = .ok bytes ∧
        decode (bytes ++ [0xC1, 0x90]) = .ok Sample.ring.module.unmarked ∧
        decode (bytes.take 5) = .error .truncatedHeader ∧
        decode bytes.dropLast = .error .undecodable := by
  obtain ⟨file, hfile⟩ := Sample.decoded_ring _ List.mem_cons_self
  obtain ⟨hformat, hnarrow⟩ := checked_of_decode hfile
  obtain ⟨bytes, hencode, hread, hbehind, hcut⟩ :=
    decode_selfDelimiting Sample.ring.module hformat hnarrow
  have hsize : 6 < bytes.length := by
    have hbytes : bytes = Sample.ring.module.fileBytes := by
      rw [encode, hformat] at hencode
      exact (Except.ok.inj hencode).symm
    have hdoc := List.length_pos_iff.mpr (Value.render_ne_nil (toValue_fits hnarrow))
    rw [hbytes, length_fileBytes]
    omega
  have hshorter : ∀ {p : List UInt8}, p.length < bytes.length → p ≠ bytes := by
    rintro p hp rfl
    exact Nat.lt_irrefl _ hp
  refine ⟨hformat, hnarrow, bytes, hencode, (hbehind _).trans hread, ?_, ?_⟩
  · have hfive : (bytes.take 5).length = 5 := by
      rw [List.length_take]
      omega
    have herror := hcut _ (List.take_prefix 5 bytes) (hshorter (by omega))
    rwa [hfive] at herror
  · have hlast : bytes.dropLast.length = bytes.length - 1 := List.length_dropLast
    have herror := hcut _ (List.dropLast_prefix bytes) (hshorter (by omega))
    rwa [cutError, if_neg (by omega), if_neg (by omega)] at herror

end Module

end Monomorph
