/-!
# Self-describing binary values

Module files and cache entries hold values that announce their own shape: a lead byte, then a
payload. `Value.render` writes a value, choosing the shortest form for lengths; `Value.parse`
reads one value off the front of a byte string and accepts every form.

An integer keeps the form it was written in together with its sixty-four bits, because writers
choose the form by the field and readers take the bits whatever the form.
-/

namespace Monomorph.Binary

/-- How an integer is written. -/
inductive IntForm where
  | fix
  | u8
  | u16
  | u32
  | u64
  | i8
  | i16
  | i32
  | i64
deriving DecidableEq

inductive Value where
  | nil
  | bool (b : Bool)
  | int (form : IntForm) (bits : UInt64)
  | float32 (bits : List UInt8)
  | float64 (bits : List UInt8)
  | str (bytes : List UInt8)
  | bin (bytes : List UInt8)
  | ext (payload : List UInt8)
  | arr (items : List Value)
  | map (entries : List (Value × Value))

instance : Inhabited Value := ⟨.nil⟩

/-- The last `n` bytes of a number, most significant first. -/
def bigEndian : Nat → Nat → List UInt8
  | 0, _ => []
  | n + 1, v => bigEndian n (v / 256) ++ [(v % 256).toUInt8]

/-- The number that bytes spell, most significant first. -/
def ofBigEndian (bytes : List UInt8) : Nat := bytes.foldl (fun n b => n * 256 + b.toNat) 0

/-- Reads a word of `8 * n` bits as a signed number. -/
def signed (n v : Nat) : UInt64 :=
  if v < Nat.pow 2 (8 * n - 1) then v.toUInt64
  else (Nat.pow 2 64 - Nat.pow 2 (8 * n) + v).toUInt64

/-- The shortest form of a signed number, as fields of no fixed width are written. -/
def shortestForm (v : Int) : IntForm :=
  if 0 ≤ v then
    if v < 128 then .fix
    else if v < 256 then .u8
    else if v < 65536 then .u16
    else if v < 4294967296 then .u32
    else .u64
  else if -32 ≤ v then .fix
  else if -128 ≤ v then .i8
  else if -32768 ≤ v then .i16
  else if -2147483648 ≤ v then .i32
  else .i64

namespace Value

def shortest (v : Int64) : Value := .int (shortestForm v.toInt) v.toUInt64

/-- The lead byte and length of a byte string. -/
def strHead (n : Nat) : List UInt8 :=
  if n < 32 then [0xA0 + n.toUInt8]
  else if n < 256 then 0xD9 :: bigEndian 1 n
  else if n < 65536 then 0xDA :: bigEndian 2 n
  else 0xDB :: bigEndian 4 n

def binHead (n : Nat) : List UInt8 :=
  if n < 256 then 0xC4 :: bigEndian 1 n
  else if n < 65536 then 0xC5 :: bigEndian 2 n
  else 0xC6 :: bigEndian 4 n

/-- The lead byte and length of an extension payload, whose first byte is its tag. -/
def extHead (n : Nat) : List UInt8 :=
  if n < 257 then 0xC7 :: bigEndian 1 (n - 1)
  else if n < 65537 then 0xC8 :: bigEndian 2 (n - 1)
  else 0xC9 :: bigEndian 4 (n - 1)

def arrHead (n : Nat) : List UInt8 :=
  if n < 16 then [0x90 + n.toUInt8]
  else if n < 65536 then 0xDC :: bigEndian 2 n
  else 0xDD :: bigEndian 4 n

def mapHead (n : Nat) : List UInt8 :=
  if n < 16 then [0x80 + n.toUInt8]
  else if n < 65536 then 0xDE :: bigEndian 2 n
  else 0xDF :: bigEndian 4 n

def renderInt (form : IntForm) (bits : UInt64) : List UInt8 :=
  match form with
  | .fix => bigEndian 1 bits.toNat
  | .u8 => 0xCC :: bigEndian 1 bits.toNat
  | .u16 => 0xCD :: bigEndian 2 bits.toNat
  | .u32 => 0xCE :: bigEndian 4 bits.toNat
  | .u64 => 0xCF :: bigEndian 8 bits.toNat
  | .i8 => 0xD0 :: bigEndian 1 bits.toNat
  | .i16 => 0xD1 :: bigEndian 2 bits.toNat
  | .i32 => 0xD2 :: bigEndian 4 bits.toNat
  | .i64 => 0xD3 :: bigEndian 8 bits.toNat

mutual
def render : Value → List UInt8
  | .nil => [0xC0]
  | .bool b => [if b then 0xC3 else 0xC2]
  | .int form bits => renderInt form bits
  | .float32 bits => 0xCA :: bits
  | .float64 bits => 0xCB :: bits
  | .str bytes => strHead bytes.length ++ bytes
  | .bin bytes => binHead bytes.length ++ bytes
  | .ext payload => extHead payload.length ++ payload
  | .arr items => arrHead items.length ++ renderItems items
  | .map entries => mapHead entries.length ++ renderEntries entries

def renderItems : List Value → List UInt8
  | [] => []
  | v :: vs => v.render ++ renderItems vs

def renderEntries : List (Value × Value) → List UInt8
  | [] => []
  | (k, v) :: es => k.render ++ v.render ++ renderEntries es
end

/-- The first `n` bytes and the rest, if there are that many. -/
def takeBytes? (n : Nat) (bs : List UInt8) : Option (List UInt8 × List UInt8) :=
  if n ≤ bs.length then some (bs.take n, bs.drop n) else none

def takeNat? (n : Nat) (bs : List UInt8) : Option (Nat × List UInt8) :=
  (takeBytes? n bs).map fun (digits, rest) => (ofBigEndian digits, rest)

/-- What a lead byte announces: a value whose payload has a fixed size, a run of bytes, a list or
a map. -/
inductive Lead where
  | done (v : Value)
  | word (size : Nat) (make : List UInt8 → Value)
  | run (lengthSize : Nat) (extra : Nat) (make : List UInt8 → Value)
  | fixRun (length : Nat) (make : List UInt8 → Value)
  | list (lengthSize : Nat)
  | fixList (length : Nat)
  | table (lengthSize : Nat)
  | fixTable (length : Nat)

/-- The meaning of a lead byte. One code is unused. -/
def lead? (b : UInt8) : Option Lead :=
  let c := b.toNat
  if c < 0x80 then some (.done (.int .fix c.toUInt64))
  else if c < 0x90 then some (.fixTable (c - 0x80))
  else if c < 0xA0 then some (.fixList (c - 0x90))
  else if c < 0xC0 then some (.fixRun (c - 0xA0) .str)
  else if 0xE0 ≤ c then some (.done (.int .fix (signed 1 c)))
  else
    match c with
    | 0xC0 => some (.done .nil)
    | 0xC2 => some (.done (.bool false))
    | 0xC3 => some (.done (.bool true))
    | 0xC4 => some (.run 1 0 .bin)
    | 0xC5 => some (.run 2 0 .bin)
    | 0xC6 => some (.run 4 0 .bin)
    | 0xC7 => some (.run 1 1 .ext)
    | 0xC8 => some (.run 2 1 .ext)
    | 0xC9 => some (.run 4 1 .ext)
    | 0xCA => some (.word 4 .float32)
    | 0xCB => some (.word 8 .float64)
    | 0xCC => some (.word 1 fun w => .int .u8 (ofBigEndian w).toUInt64)
    | 0xCD => some (.word 2 fun w => .int .u16 (ofBigEndian w).toUInt64)
    | 0xCE => some (.word 4 fun w => .int .u32 (ofBigEndian w).toUInt64)
    | 0xCF => some (.word 8 fun w => .int .u64 (ofBigEndian w).toUInt64)
    | 0xD0 => some (.word 1 fun w => .int .i8 (signed 1 (ofBigEndian w)))
    | 0xD1 => some (.word 2 fun w => .int .i16 (signed 2 (ofBigEndian w)))
    | 0xD2 => some (.word 4 fun w => .int .i32 (signed 4 (ofBigEndian w)))
    | 0xD3 => some (.word 8 fun w => .int .i64 (ofBigEndian w).toUInt64)
    | 0xD4 => some (.fixRun 2 .ext)
    | 0xD5 => some (.fixRun 3 .ext)
    | 0xD6 => some (.fixRun 5 .ext)
    | 0xD7 => some (.fixRun 9 .ext)
    | 0xD8 => some (.fixRun 17 .ext)
    | 0xD9 => some (.run 1 0 .str)
    | 0xDA => some (.run 2 0 .str)
    | 0xDB => some (.run 4 0 .str)
    | 0xDC => some (.list 2)
    | 0xDD => some (.list 4)
    | 0xDE => some (.table 2)
    | 0xDF => some (.table 4)
    | _ => none

mutual
/-- Reads one value off the front. `fuel` bounds the nesting and the number of items together. -/
def parseWith : (fuel : Nat) → List UInt8 → Option (Value × List UInt8)
  | 0, _ => none
  | _ + 1, [] => none
  | fuel + 1, b :: bs =>
    match lead? b with
    | none => none
    | some (.done v) => some (v, bs)
    | some (.word size make) => (takeBytes? size bs).map fun (w, rest) => (make w, rest)
    | some (.fixRun n make) => (takeBytes? n bs).map fun (w, rest) => (make w, rest)
    | some (.run size extra make) =>
      match takeNat? size bs with
      | none => none
      | some (n, rest) => (takeBytes? (n + extra) rest).map fun (w, rest) => (make w, rest)
    | some (.fixList n) => (parseItems fuel n bs).map fun (vs, rest) => (.arr vs, rest)
    | some (.list size) =>
      match takeNat? size bs with
      | none => none
      | some (n, rest) => (parseItems fuel n rest).map fun (vs, rest) => (.arr vs, rest)
    | some (.fixTable n) => (parseEntries fuel n bs).map fun (es, rest) => (.map es, rest)
    | some (.table size) =>
      match takeNat? size bs with
      | none => none
      | some (n, rest) => (parseEntries fuel n rest).map fun (es, rest) => (.map es, rest)

def parseItems : (fuel : Nat) → Nat → List UInt8 → Option (List Value × List UInt8)
  | _, 0, bs => some ([], bs)
  | 0, _ + 1, _ => none
  | fuel + 1, n + 1, bs =>
    match parseWith fuel bs with
    | none => none
    | some (v, rest) => (parseItems fuel n rest).map fun (vs, rest) => (v :: vs, rest)

def parseEntries : (fuel : Nat) → Nat → List UInt8 → Option (List (Value × Value) × List UInt8)
  | _, 0, bs => some ([], bs)
  | 0, _ + 1, _ => none
  | fuel + 1, n + 1, bs =>
    match parseWith fuel bs with
    | none => none
    | some (k, rest) =>
      match parseWith fuel rest with
      | none => none
      | some (v, rest) => (parseEntries fuel n rest).map fun (es, rest) => ((k, v) :: es, rest)
end

/-- Reads one value off the front of a byte string. A value of `n` bytes nests and counts fewer
than `2 * n` deep, so this fuel never runs out before the bytes do. -/
def parse (bs : List UInt8) : Option (Value × List UInt8) := parseWith (2 * bs.length + 2) bs

/-- Reads an integer field: any integer form, and nothing for zero. -/
def bits? : Value → Option UInt64
  | .int _ bits => some bits
  | .nil => some 0
  | _ => none

/-- Reads a text field: a byte string of either kind, and nothing for the empty one. -/
def bytes? : Value → Option (List UInt8)
  | .str bytes => some bytes
  | .bin bytes => some bytes
  | .nil => some []
  | _ => none

def bool? : Value → Option Bool
  | .bool b => some b
  | .nil => some false
  | _ => none

/-- Reads a list field; nothing is a missing list. -/
def items? : Value → Option (Option (List Value))
  | .arr items => some (some items)
  | .nil => some none
  | _ => none

end Value

end Monomorph.Binary
