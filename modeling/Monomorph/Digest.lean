import Monomorph.Binary.Value
import Monomorph.Text.Basic

/-!
# Content digests

The SHA-256 digest of a byte string: the message is padded to whole blocks of sixteen words, and
each block drives sixty-four rounds over eight registers.
-/

namespace Monomorph

structure Digest where
  bytes : List UInt8
deriving DecidableEq

namespace Digest

/-- The digest that stands for none. -/
def zero : Digest := ⟨List.replicate 32 0⟩

def isZero (d : Digest) : Bool := d = zero

def render (d : Digest) : Text := Text.hex d.bytes

/-- The message with the closing bit, zeros, and its length in bits as the last eight bytes. -/
def pad (message : List UInt8) : List UInt8 :=
  message ++ [0x80] ++ List.replicate ((119 - message.length % 64) % 64) 0
    ++ Binary.bigEndian 8 (8 * message.length)

/-- Bytes as words, most significant byte first. -/
def words : List UInt8 → List UInt32
  | a :: b :: c :: d :: rest =>
    (a.toUInt32 <<< 24 ||| b.toUInt32 <<< 16 ||| c.toUInt32 <<< 8 ||| d.toUInt32) :: words rest
  | _ => []

/-- A word turned right by some bits. -/
def turn (x : UInt32) (n : UInt32) : UInt32 := (x >>> n) ||| (x <<< (32 - n))

structure Registers where
  a : UInt32
  b : UInt32
  c : UInt32
  d : UInt32
  e : UInt32
  f : UInt32
  g : UInt32
  h : UInt32

/-- The registers before the first block. -/
def start : Registers :=
  { a := 0x6a09e667, b := 0xbb67ae85, c := 0x3c6ef372, d := 0xa54ff53a,
    e := 0x510e527f, f := 0x9b05688c, g := 0x1f83d9ab, h := 0x5be0cd19 }

def constants : List UInt32 :=
  [0x428a2f98, 0x71374491, 0xb5c0fbcf, 0xe9b5dba5, 0x3956c25b, 0x59f111f1, 0x923f82a4, 0xab1c5ed5,
   0xd807aa98, 0x12835b01, 0x243185be, 0x550c7dc3, 0x72be5d74, 0x80deb1fe, 0x9bdc06a7, 0xc19bf174,
   0xe49b69c1, 0xefbe4786, 0x0fc19dc6, 0x240ca1cc, 0x2de92c6f, 0x4a7484aa, 0x5cb0a9dc, 0x76f988da,
   0x983e5152, 0xa831c66d, 0xb00327c8, 0xbf597fc7, 0xc6e00bf3, 0xd5a79147, 0x06ca6351, 0x14292967,
   0x27b70a85, 0x2e1b2138, 0x4d2c6dfc, 0x53380d13, 0x650a7354, 0x766a0abb, 0x81c2c92e, 0x92722c85,
   0xa2bfe8a1, 0xa81a664b, 0xc24b8b70, 0xc76c51a3, 0xd192e819, 0xd6990624, 0xf40e3585, 0x106aa070,
   0x19a4c116, 0x1e376c08, 0x2748774c, 0x34b0bcb5, 0x391c0cb3, 0x4ed8aa4a, 0x5b9cca4f, 0x682e6ff3,
   0x748f82ee, 0x78a5636f, 0x84c87814, 0x8cc70208, 0x90befffa, 0xa4506ceb, 0xbef9a3f7, 0xc67178f2]

/-- One round with the word that is due and the constant of the round. -/
def round (r : Registers) (word constant : UInt32) : Registers :=
  let s1 := turn r.e 6 ^^^ turn r.e 11 ^^^ turn r.e 25
  let choice := (r.e &&& r.f) ^^^ ((~~~ r.e) &&& r.g)
  let t1 := r.h + s1 + choice + constant + word
  let s0 := turn r.a 2 ^^^ turn r.a 13 ^^^ turn r.a 22
  let majority := (r.a &&& r.b) ^^^ (r.a &&& r.c) ^^^ (r.b &&& r.c)
  { a := t1 + s0 + majority, b := r.a, c := r.b, d := r.c,
    e := r.d + t1, f := r.e, g := r.f, h := r.g }

/-- The word sixteen places behind the first of a window of sixteen words. -/
def nextWord (window : List UInt32) : UInt32 :=
  let w1 := window.getD 1 0
  let w14 := window.getD 14 0
  let s0 := turn w1 7 ^^^ turn w1 18 ^^^ (w1 >>> 3)
  let s1 := turn w14 17 ^^^ turn w14 19 ^^^ (w14 >>> 10)
  window.headD 0 + s0 + window.getD 9 0 + s1

/-- The rounds with the given constants over a sliding window of sixteen words. -/
def rounds : List UInt32 → List UInt32 → Registers → Registers
  | [], _, r => r
  | k :: ks, window, r =>
    rounds ks (window.tail ++ [nextWord window]) (round r (window.headD 0) k)

def absorb (r : Registers) (block : List UInt32) : Registers :=
  let s := rounds constants block r
  { a := r.a + s.a, b := r.b + s.b, c := r.c + s.c, d := r.d + s.d,
    e := r.e + s.e, f := r.f + s.f, g := r.g + s.g, h := r.h + s.h }

/-- The registers after so many blocks of the words. -/
def absorbAll : (blocks : Nat) → List UInt32 → Registers → Registers
  | 0, _, r => r
  | n + 1, ws, r => absorbAll n (ws.drop 16) (absorb r (ws.take 16))

def sum (message : List UInt8) : Digest :=
  let ws := words (pad message)
  let r := absorbAll (ws.length / 16) ws start
  ⟨[r.a, r.b, r.c, r.d, r.e, r.f, r.g, r.h].flatMap fun w => Binary.bigEndian 4 w.toNat⟩

end Digest

end Monomorph
