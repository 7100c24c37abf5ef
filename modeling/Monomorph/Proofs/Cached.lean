import Mathlib.Data.Set.Function
import Monomorph.PoolCache
import Monomorph.Proofs.Key
import Monomorph.Proofs.Operations
import Monomorph.Proofs.Origin
import Monomorph.Proofs.Pooled
import Monomorph.Proofs.RoundTrip

/-!
# A cache that can be trusted

A file of the cache is honest when it holds nothing of the current schema, or the entry that was
made of the pool of a module whose file has the digest that the entry stands under. A cache whose
files are honest answers with the pool that the module itself would give, if digests tell files
apart (`PoolCache.leaves_read`), and what is kept in it is honest again (`PoolCache.leaves_put`).
-/

namespace Monomorph

open Binary

/-! ## Entries are read back -/

namespace PoolEntry

theorem readRecord_toValue (e : PoolEntry) : readRecord {} fields {} e.toValue = some e := by
  obtain ⟨schema, module, types⟩ := e
  have hschema : readField fields {} "Schema" (.int .u16 schema.toUInt64)
      = some ({ schema } : PoolEntry) := by
    show some ({ schema := schema.toUInt64.toUInt16 } : PoolEntry) = _
    simp
  have htypes : readField fields { schema, module } "Types"
      ((types.map fun ts => .arr (TypeRef.toValues ts)).getD .nil)
        = some ({ schema, module, types } : PoolEntry) := by
    cases types with
    | none => rfl
    | some ts =>
        have hts : TypeRef.readEach [] (TypeRef.toValues ts) = some ts :=
          TypeRef.readArgs_refItems ts
        exact congrArg (Option.map fun x => ({ schema, module, types := some x } : PoolEntry)) hts
  have hmodule : readField fields { schema } "Module" (.str module)
      = some ({ schema, module } : PoolEntry) := rfl
  have hentries := readEntries_cons hschema (readEntries_cons hmodule (readEntries_entry htypes))
  exact hentries

theorem toValue_fits {e : PoolEntry} (hm : e.module.length < 4294967296)
    (ht : ∀ ts ∈ e.types, TypeRef.NarrowList ts) : e.toValue.Fits := by
  have htypes : ((e.types.map fun ts => Value.arr (TypeRef.toValues ts)).getD .nil).Fits := by
    cases hl : e.types with
    | none => exact .nil
    | some ts => exact TypeRef.refItems_fits (ht ts hl)
  have hentries := EntriesFit.nil.add "Schema" (Value.fits_u16 e.schema)
    |>.add "Module" (.str hm)
    |>.add "Types" htypes
  exact hentries.fits (by decide)

/-- An entry is read back as it was written, under the current schema. -/
theorem decode_encoded {e : PoolEntry} (hm : e.module.length < 4294967296)
    (ht : ∀ ts ∈ e.types, TypeRef.NarrowList ts) :
    decode e.encode = some { e with schema := currentSchema } := by
  have hfits := toValue_fits (e := { e with schema := currentSchema }) hm ht
  have hparse := Value.parse_render hfits []
  rw [List.append_nil] at hparse
  rw [decode, encode, hparse, Option.bind_some]
  exact readRecord_toValue _

end PoolEntry

theorem Pool.narrow_of_decode {file : List UInt8} {m : Module} (h : Module.decode file = .ok m) :
    ∀ t ∈ (Pool.ofModule m).types, t.Narrow := by
  intro t ht
  have haccepted := Module.accepted_of_decode h
  have hmentioned := (Pool.mem_of_mem_addAll t ht).resolve_left (by simp)
  obtain ⟨-, ⟨d, hd, x, hx, i, hi, hti⟩ | ⟨d, hd, rfl⟩⟩ := Pool.mem_mentioned hmentioned
  · obtain ⟨-, hnarrow⟩ := (haccepted d hd).code x hx i hi
    rcases hti with rfl | ⟨r, hr, rfl⟩
    · exact hnarrow.type
    · exact (hnarrow.method r hr).declaring
  · exact (haccepted d hd).narrow

/-- The entry of a module's pool brings the pool back. -/
theorem PoolShelf.decode_entryFor {file : List UInt8} {m : Module} (h : Module.decode file = .ok m)
    (hsize : (Pool.ofModule m).types.length < 4294967296) :
    ∃ e, PoolEntry.decode (entryFor m.name (Pool.ofModule m)).encode = some e ∧
      Pool.ofList (e.types.getD []) = Pool.ofModule m := by
  refine ⟨_, PoolEntry.decode_encoded (Module.checked_of_decode h).2.name ?_, ?_⟩
  · intro ts hts
    unfold entryFor at hts
    dsimp only at hts
    split at hts
    · cases hts
    · cases hts
      exact ⟨hsize, Pool.narrow_of_decode h⟩
  · have htypes : (entryFor m.name (Pool.ofModule m)).types.getD [] = (Pool.ofModule m).types := by
      unfold entryFor
      dsimp only
      split
      · rename_i hempty
        rw [List.isEmpty_iff.mp hempty]
        rfl
      · rfl
    exact (congrArg Pool.ofList htypes).trans (Pool.ofList_types (Pool.proper_ofModule m))

/-! ## Where entries stand -/

theorem Text.hex_inj : ∀ {a b : List UInt8}, hex a = hex b → a = b
  | [], [], _ => rfl
  | [], y :: b, h => by simp [hex] at h
  | x :: a, [], h => by simp [hex] at h
  | x :: a, y :: b, h => by
      have hdigit : ∀ m < 16, ∀ n < 16, hexDigit m = hexDigit n → m = n := by decide
      have hx := x.toNat_lt
      have hy := y.toNat_lt
      have hcons : ∀ z l, hex (z :: l)
          = hexDigit (z.toNat / 16) :: hexDigit (z.toNat % 16) :: hex l := fun _ _ => rfl
      rw [hcons, hcons, List.cons.injEq, List.cons.injEq] at h
      obtain ⟨hhigh, hlow, hrest⟩ := h
      have hhigh := hdigit _ (by omega) _ (by omega) hhigh
      have hlow := hdigit _ (by omega) _ (by omega) hlow
      have hxy : x = y := UInt8.toNat_inj.mp (by omega)
      rw [hxy, hex_inj hrest]

theorem Path.proper_stem {stem : Text} (hslash : slash ∉ stem) (hlength : 3 ≤ stem.length)
    (n : Nat) : Proper (stem ++ Text.ofNat n) := by
  have hlong : ∀ m : Text, m.length < 3 → stem ++ Text.ofNat n ≠ m := by
    rintro m hm rfl
    rw [List.length_append] at hm
    omega
  refine ⟨⟨hlong [] (by decide), ?_⟩, hlong _ (by decide), hlong _ (by decide)⟩
  rw [List.mem_append, not_or]
  refine ⟨hslash, fun hmem => ?_⟩
  have hrange := Text.mem_ofNat hmem
  exact absurd hrange.1 (by decide)

namespace PoolCache

/-- The name of an entry's file. -/
def entryName (key : Digest) : Text := key.render ++ ".mp"

theorem entryName_inj {key key' : Digest} (h : entryName key = entryName key') : key = key' := by
  obtain ⟨bytes⟩ := key
  obtain ⟨bytes'⟩ := key'
  have hhex : Text.hex bytes = Text.hex bytes' := List.append_cancel_right h
  rw [Text.hex_inj hhex]

theorem entryName_proper (key : Digest) : Path.Proper (entryName key) := by
  have hlength : 3 ≤ (entryName key).length := by
    have hend : (Text.ofString ".mp").length = 3 := by decide
    rw [entryName, List.length_append, hend]
    omega
  have hslash : Path.slash ∉ entryName key := by
    have hdigit : ∀ n < 16, Text.hexDigit n ≠ Path.slash := by decide
    rw [entryName, List.mem_append, not_or]
    refine ⟨?_, by decide⟩
    intro hmem
    obtain ⟨b, -, hb⟩ := List.mem_flatMap.mp hmem
    have hrange := b.toNat_lt
    rcases List.mem_cons.mp hb with hb | hb
    · exact hdigit _ (by omega) hb.symm
    · exact hdigit _ (by omega) (List.mem_singleton.mp hb).symm
  have hshort : ∀ n : Text, n.length < 3 → entryName key ≠ n := by
    rintro n hn rfl
    omega
  exact ⟨⟨hshort [] (by decide), hslash⟩, hshort _ (by decide), hshort _ (by decide)⟩

/-- The directory of the entries. -/
def shelf (c : PoolCache) (cwd : Place) : Place := Path.place cwd c.dir ++ [("pools" : Text)]

/-- All entries stand side by side under their names. -/
theorem place_pathFor (c : PoolCache) (cwd : Place) (key : Digest) :
    Path.place cwd (c.pathFor key) = c.shelf cwd ++ [entryName key] := by
  have hpools : Path.Proper "pools" := ⟨⟨by decide, by decide⟩, by decide, by decide⟩
  have hnames : ∀ n ∈ [("pools" : Text), entryName key], Path.Proper n := by
    rw [List.forall_mem_cons, List.forall_mem_singleton]
    exact ⟨hpools, entryName_proper key⟩
  rw [shelf, List.append_assoc]
  exact Path.place_join hnames

theorem place_inj {c : PoolCache} {cwd : Place} {key key' : Digest}
    (h : Path.place cwd (c.pathFor key) = Path.place cwd (c.pathFor key')) : key = key' := by
  rw [place_pathFor, place_pathFor] at h
  exact entryName_inj (by simpa using h)

theorem place_ne_root (c : PoolCache) (cwd : Place) (key : Digest) :
    Path.place cwd (c.pathFor key) ≠ [] := by
  simp [place_pathFor]

theorem aside_proper (n : Nat) : Path.Proper (asideStem ++ Text.ofNat n) :=
  Path.proper_stem (by decide) (by decide) n

/-- No entry stands under a numbered name, unless the name's stem ends with the same letter. -/
theorem aside_ne_place {c : PoolCache} {cwd dir z : Place} {stem : Text}
    (h : Disk.Aside dir stem z) (hstem : stem.getLast? ≠ some 112) (key : Digest) :
    z ≠ Path.place cwd (c.pathFor key) := by
  obtain ⟨n, rfl⟩ := h
  rw [place_pathFor]
  intro heq
  have hname : stem ++ Text.ofNat n = entryName key := by
    simpa using (List.append_inj' heq rfl).2
  have hlast := congrArg List.getLast? hname
  have hend : (entryName key).getLast? = some 112 := by
    have hsplit : entryName key = (key.render ++ [46, 109]) ++ [112] := by
      have hmp : Text.ofString ".mp" = [46, 109, 112] := by decide
      simp [entryName, hmp]
    rw [hsplit, List.getLast?_append]
    rfl
  rw [hend, List.getLast?_append] at hlast
  cases hdigits : (Text.ofNat n).getLast? with
  | none =>
      rw [hdigits] at hlast
      exact hstem hlast
  | some b =>
      rw [hdigits] at hlast
      have hb : b = 112 := Option.some.inj hlast
      have hrange := Text.mem_ofNat (List.mem_of_getLast? hdigits)
      rw [hb] at hrange
      exact absurd hrange.2 (by decide)

/-! ## Trust -/

/-- A file that may stand in the cache under a digest: it holds no entry of the current schema, or
the entry of the pool of a module whose file is one of those involved and has that digest. -/
def Honest (involved : Set (List UInt8)) (key : Digest) (bytes : List UInt8) : Prop :=
  (∀ e, PoolEntry.decode bytes = some e → isCurrent e = false) ∨
    ∃ file ∈ involved, ∃ m, Module.decode file = .ok m ∧ Digest.sum file = key ∧
      bytes = (PoolShelf.entryFor m.name (Pool.ofModule m)).encode

/-- Files that a cache can tell apart: no two of them have the same digest, and an entry has room
for the pool of each. -/
structure Discernible (involved : Set (List UInt8)) : Prop where
  apart : Set.InjOn Digest.sum involved
  room : ∀ file ∈ involved, ∀ m, Module.decode file = .ok m →
    (Pool.ofModule m).types.length < 4294967296

/-- Every file at the place of an entry is honest. -/
def Trusted (c : PoolCache) (involved : Set (List UInt8)) (cwd : Place) (t : FileTree) : Prop :=
  ∀ key bytes, t.get? (Path.place cwd (c.pathFor key)) = some (.file bytes) →
    Honest involved key bytes

namespace Trusted

variable {c : PoolCache} {involved : Set (List UInt8)} {cwd z : Place} {t : FileTree}

theorem insert (h : c.Trusted involved cwd t) (hz : z ≠ []) {n : FileNode}
    (hn : ∀ key bytes, z = Path.place cwd (c.pathFor key) → n = .file bytes →
      Honest involved key bytes) : c.Trusted involved cwd (t.insert z n) := by
  intro key bytes hget
  rw [FileTree.get?_insert t hz] at hget
  split at hget
  · rename_i hplace
    exact hn key bytes hplace.symm (Option.some.inj hget)
  · exact h key bytes hget

theorem erase (h : c.Trusted involved cwd t) (hz : z ≠ []) :
    c.Trusted involved cwd (t.erase z) := by
  intro key bytes hget
  rw [FileTree.get?_erase t hz] at hget
  split at hget
  · cases hget
  · exact h key bytes hget

/-- An honest file may be moved to the place of its entry. -/
theorem move (h : c.Trusted involved cwd t) {key : Digest} {bytes : List UInt8}
    (hz : t.get? z = some (.file bytes)) (hbytes : Honest involved key bytes) :
    c.Trusted involved cwd (t.move z (Path.place cwd (c.pathFor key))) := by
  have hroot : z ≠ [] := t.ne_root (by simp [hz])
  intro key' bytes' hget
  by_cases hkey : key' = key
  · subst hkey
    have hmoved := t.get?_move_below hroot (c.place_ne_root cwd key') []
    rw [List.append_nil, List.append_nil, hz] at hmoved
    obtain rfl : bytes' = bytes := by
      rw [hmoved] at hget
      cases hget
      rfl
    exact hbytes
  · -- Entries stand side by side, so no other one stands below this one.
    have hapart : ¬ Path.place cwd (c.pathFor key) <+: Path.place cwd (c.pathFor key') := by
      intro hbelow
      exact hkey (place_inj (hbelow.eq_of_length (by simp [place_pathFor])).symm)
    rw [FileTree.get?_move_apart t hapart] at hget
    split at hget
    · cases hget
    · exact h key' bytes' hget

end Trusted

theorem honest_empty {involved : Set (List UInt8)} {key : Digest} : Honest involved key [] := by
  left
  intro e he
  cases he

variable {c : PoolCache} {involved : Set (List UInt8)} {env : Surroundings} {key : Digest}

theorem extends_trusted {cwd : Place} : Disk.Extends (c.Trusted involved cwd) := by
  intro t z ht hz
  exact ht.insert (t.ne_root (by simp [hz])) fun key bytes _ hn => by cases hn

/-- Keeping an entry leaves what it survives, and so does the attempt. -/
theorem leaves_put_of_survives {e : PoolEntry} {P : FileTree → Prop}
    {M : Place → FileTree → Prop} (hdirs : Disk.Extends P)
    (h : Disk.Survives (ε := FileError) env P M (fun _ => P) (Path.parent (c.pathFor key)) asideStem
      (c.pathFor key) (.ok e.encode)) :
    Disk.Leaves env P (c.put key e : ExceptT FileError DiskM Unit) (fun _ => P) (fun _ => P) := by
  refine (Disk.leaves_makeDirs hdirs).bind fun _ => ?_
  exact (Disk.leaves_writeAside (Path.clean_ne_nil _) aside_proper h).imp (fun _ => id)
    (fun _ t ⟨_, _, ht⟩ => ht) fun _ t ht => ht.1

/-- What is kept in a trusted cache under its digest leaves the cache trusted, and so does the
attempt. -/
theorem leaves_put {e : PoolEntry} (h : Honest involved key e.encode) :
    Disk.Leaves env (c.Trusted involved env.cwd) (c.put key e : ExceptT FileError DiskM Unit)
      (fun _ => c.Trusted involved env.cwd) (fun _ => c.Trusted involved env.cwd) := by
  refine leaves_put_of_survives (M := fun _ => c.Trusted involved env.cwd) extends_trusted ?_
  constructor
  · intro t z ht hz _
    refine ht.insert hz.ne_root fun key' bytes' _ hn => ?_
    cases hn
    exact honest_empty
  · intro t z old bytes ht hz _
    exact ht.insert hz.ne_root fun key' bytes' hplace _ =>
      absurd hplace (aside_ne_place hz (by decide) key')
  · intro t z bytes hbytes ht hz hget _
    cases hbytes
    exact ht.move hget h
  · intro t z ht hz
    exact ht.erase hz.ne_root
  · intro n cause _ t z ht _
    exact ht

/-- An entry of the current schema that is read from a trusted cache is the one that was made of the
pool of an involved file with that digest. -/
theorem leaves_read :
    Disk.Leaves env (c.Trusted involved env.cwd) (c.read key : ExceptT EntryError DiskM _)
      (fun found t => c.Trusted involved env.cwd t ∧ ∀ e, found = some e → isCurrent e = true →
        ∃ file ∈ involved, ∃ m, Module.decode file = .ok m ∧ Digest.sum file = key ∧
          PoolEntry.decode (PoolShelf.entryFor m.name (Pool.ofModule m)).encode = some e)
      (fun _ => c.Trusted involved env.cwd) := by
  refine Disk.leaves_read.outcome.bind fun r => ?_
  cases r with
  | error e =>
      dsimp only
      split
      · exact .pure fun t ht => ⟨ht.2 e rfl, fun _ h => by cases h⟩
      · exact .throw fun t ht => ht.2 e rfl
  | ok bytes =>
      cases hdecode : PoolEntry.decode bytes with
      | none =>
          simp only [hdecode]
          exact .throw fun t ht => (ht.1 bytes rfl).1
      | some e =>
          simp only [hdecode]
          refine .pure fun t ht => ?_
          obtain ⟨htrusted, hget⟩ := ht.1 bytes rfl
          refine ⟨htrusted, ?_⟩
          rintro _ ⟨⟩ hcurrent
          rcases htrusted key bytes hget with hstale | ⟨file, hfile, m, hm, hkey, rfl⟩
          · rw [hstale e hdecode] at hcurrent
            cases hcurrent
          · exact ⟨file, hfile, m, hm, hkey, hdecode⟩

theorem holds_read {P : FileTree → Prop} :
    Disk.Holds env P (c.read key : ExceptT EntryError DiskM (Option PoolEntry)) := by
  refine (Disk.holds_read _).outcome.bind fun r => ?_
  cases r with
  | error e =>
      dsimp only
      split
      · exact .pure _
      · exact .throw _
  | ok bytes =>
      dsimp only
      split
      · exact .throw _
      · exact .pure _

end PoolCache

/-! ## Shelves -/

namespace PoolShelf

/-- What a shelf knows of a module, if anything, is the digest of an involved file that holds it. -/
def Knows (involved : Set (List UInt8)) (s : PoolShelf) (number : Nat) (m : Module) : Prop :=
  ∀ key, s.digest? number = some key →
    ∃ file ∈ involved, Module.decode file = .ok m ∧ Digest.sum file = key

/-- A shelf of the same cache with the same digests. -/
def Continues (s s' : PoolShelf) : Prop := s'.cache = s.cache ∧ s'.digests = s.digests

theorem Continues.trans {s s' s'' : PoolShelf} (h : s.Continues s') (h' : s'.Continues s'') :
    s.Continues s'' :=
  ⟨h'.1.trans h.1, h'.2.trans h.2⟩

theorem Knows.continues {involved : Set (List UInt8)} {s s' : PoolShelf} {number : Nat} {m : Module}
    (h : s.Knows involved number m) (hs : s.Continues s') : s'.Knows involved number m := by
  intro key hkey
  refine h key ?_
  rwa [digest?, hs.2] at hkey

variable {ε : Type} {involved : Set (List UInt8)} {env : Surroundings} {E : ε → FileTree → Prop}
  {s : PoolShelf} {number : Nat} {m : Module}

/-- Asking a shelf only reads. -/
theorem leaves_load_of {P : FileTree → Prop} :
    Disk.Leaves env P (ExceptT.lift (s.load number) : ExceptT ε DiskM (Option Pool × PoolShelf))
      (fun r t => P t ∧ s.Continues r.2) E := by
  unfold load
  cases s.digest? number with
  | none => exact .pure fun t ht => ⟨ht, rfl, rfl⟩
  | some key =>
      refine Disk.Leaves.lift_bind PoolCache.holds_read fun r => ?_
      rcases r with _ | _ | e
      · exact .pure fun t ht => ⟨ht.2 _ rfl, rfl, rfl⟩
      · exact .pure fun t ht => ⟨ht.1 _ rfl, rfl, rfl⟩
      · dsimp only
        split
        · exact .pure fun t ht => ⟨ht.1 _ rfl, rfl, rfl⟩
        · exact .pure fun t ht => ⟨ht.1 _ rfl, rfl, rfl⟩

/-- What a shelf gives for a module is the module's pool. -/
theorem leaves_load (hfiles : PoolCache.Discernible involved) (h : s.Knows involved number m) :
    Disk.Leaves env (s.cache.Trusted involved env.cwd)
      (ExceptT.lift (s.load number) : ExceptT ε DiskM (Option Pool × PoolShelf))
      (fun r t => s.cache.Trusted involved env.cwd t ∧ s.Continues r.2 ∧
        ∀ pool, r.1 = some pool → pool = Pool.ofModule m) E := by
  unfold load
  cases hkey : s.digest? number with
  | none => exact .pure fun t ht => ⟨ht, ⟨rfl, rfl⟩, fun _ h => by cases h⟩
  | some key =>
      obtain ⟨file, hfile, hm, rfl⟩ := h key hkey
      refine PoolCache.leaves_read.lift_bind fun r => ?_
      rcases r with _ | _ | e
      · exact .pure fun t ht => ⟨ht.2 _ rfl, ⟨rfl, rfl⟩, fun _ h => by cases h⟩
      · exact .pure fun t ht => ⟨(ht.1 _ rfl).1, ⟨rfl, rfl⟩, fun _ h => by cases h⟩
      · dsimp only
        split
        · rename_i hcurrent
          refine .pure fun t ht => ?_
          obtain ⟨htrusted, hentry⟩ := ht.1 _ rfl
          refine ⟨htrusted, ⟨rfl, rfl⟩, ?_⟩
          rintro _ ⟨⟩
          obtain ⟨file', hfile', m', hm', hsum, he⟩ := hentry e rfl hcurrent
          -- The digest tells which file the entry was made of, and so which module.
          obtain rfl := hfiles.apart hfile' hfile hsum
          obtain rfl : m' = m := by
            rw [hm] at hm'
            cases hm'
            rfl
          obtain ⟨e', he', hpool⟩ := decode_entryFor hm (hfiles.room _ hfile _ hm)
          rw [he] at he'
          cases he'
          exact hpool
        · exact .pure fun t ht => ⟨(ht.1 _ rfl).1, ⟨rfl, rfl⟩, fun _ h => by cases h⟩

theorem leaves_store (h : s.Knows involved number m) :
    Disk.Leaves env (s.cache.Trusted involved env.cwd)
      (ExceptT.lift (s.store number m.name (Pool.ofModule m)) : ExceptT ε DiskM PoolShelf)
      (fun s' t => s.cache.Trusted involved env.cwd t ∧ s.Continues s') E := by
  unfold store
  cases hkey : s.digest? number with
  | none => exact .pure fun t ht => ⟨ht, rfl, rfl⟩
  | some key =>
      obtain ⟨file, hfile, hm, hsum⟩ := h key hkey
      have hhonest : PoolCache.Honest involved key (entryFor m.name (Pool.ofModule m)).encode :=
        .inr ⟨file, hfile, m, hm, hsum, rfl⟩
      refine (PoolCache.leaves_put hhonest).lift_bind fun r => ?_
      cases r with
      | ok u => exact .pure fun t ht => ⟨ht.1 u rfl, rfl, rfl⟩
      | error e => exact .pure fun t ht => ⟨ht.2 e rfl, rfl, rfl⟩

end PoolShelf

end Monomorph
