import Monomorph.Text.Basic

/-!
# Words of a fixed vocabulary

Options are compared with small sets of ASCII words after trimming white space and lowering case.
Only the ASCII letters and the two other characters whose lower case is an ASCII letter can make a
difference there.
-/

namespace Monomorph.Text

/-- White space of Unicode. -/
def isSpace (c : Char) : Bool :=
  let n := c.toNat
  (9 ≤ n && n ≤ 13) || n = 0x20 || n = 0x85 || n = 0xA0 || n = 0x1680
    || (0x2000 ≤ n && n ≤ 0x200A) || n = 0x2028 || n = 0x2029 || n = 0x202F || n = 0x205F
    || n = 0x3000

def Scalar.isSpace : Scalar → Bool
  | .char c => Text.isSpace c
  | .stray _ => false

def trim (t : Text) : Text :=
  let front := t.scalars.dropWhile Scalar.isSpace
  let back := (front.reverse.dropWhile Scalar.isSpace).reverse
  back.flatMap Scalar.bytes

/-- The lower case of a character, if that is an ASCII letter; else the character itself. -/
def lowerToAscii (c : Char) : Char :=
  let n := c.toNat
  if 65 ≤ n && n ≤ 90 then Char.ofNat (n + 32)
  else if n = 0x130 then 'i'
  else if n = 0x212A then 'k'
  else c

/-- The text with case lowered as far as ASCII words can tell. -/
def lower (t : Text) : Text :=
  t.scalars.flatMap fun
    | .char c => (Scalar.char (lowerToAscii c)).bytes
    | .stray b => [b]

/-- An option word: trimmed and in lower case. -/
def word (t : Text) : Text := t.lower.trim

def padRightChars (width : Nat) (t : Text) : Text :=
  t ++ spaces (width - t.scalars.length)

end Monomorph.Text
