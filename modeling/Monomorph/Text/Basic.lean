/-!
# Text

Names, paths and messages are byte strings. Most of them hold UTF-8, but a module file may carry
any bytes in a name, and those bytes must survive reading and writing. A text is therefore a list
of bytes; `Text.scalars` reads it as UTF-8 and keeps every byte that belongs to no character.
-/

namespace Monomorph

/-- A byte string, UTF-8 by convention. -/
abbrev Text := List UInt8

namespace Text

@[coe]
def ofString (s : String) : Text := s.toUTF8.data.toList

instance : Coe String Text := ⟨ofString⟩

def ofNat (n : Nat) : Text := ofString (Nat.repr n)

/-- Decimal digits with a minus sign for negative numbers. -/
def ofInt : Int → Text
  | .ofNat n => ofNat n
  | .negSucc n => "-" ++ ofNat (n + 1)

/-- Decimal digits with zeros in front, at least `width` of them. -/
def zeroPadded (width n : Nat) : Text :=
  let digits := ofNat n
  List.replicate (width - digits.length) 48 ++ digits

/-- The lower-case hexadecimal digit for a value below sixteen. -/
def hexDigit (n : Nat) : UInt8 :=
  if n < 10 then (48 + n).toUInt8 else (87 + n).toUInt8

/-- Lower-case hexadecimal digits of `n`, at least `width` of them. -/
def hexPadded (width n : Nat) : Text :=
  let digits := (Nat.toDigits 16 n).map fun c => c.toNat.toUInt8
  List.replicate (width - digits.length) 48 ++ digits

/-- Two hexadecimal digits a byte. -/
def hex (bytes : List UInt8) : Text :=
  bytes.flatMap fun b => [hexDigit (b.toNat / 16), hexDigit (b.toNat % 16)]

def hexValue (b : UInt8) : Nat :=
  if b < 58 then b.toNat - 48 else if b < 71 then b.toNat - 55 else b.toNat - 87

/-- The bytes that pairs of hexadecimal digits spell. -/
def ofHex : Text → List UInt8
  | a :: b :: t => (hexValue a * 16 + hexValue b).toUInt8 :: ofHex t
  | _ => []

/-- Joins the parts with `sep` between neighbours. -/
def join (sep : Text) : List Text → Text
  | [] => []
  | [t] => t
  | t :: ts => t ++ sep ++ join sep ts

def line (t : Text) : Text := t ++ [10]

def spaces (n : Nat) : Text := List.replicate n 32

/-- Pads on the left with spaces to at least `width` bytes. -/
def padLeft (width : Nat) (t : Text) : Text := spaces (width - t.length) ++ t

def padRight (width : Nat) (t : Text) : Text := t ++ spaces (width - t.length)

def startsWith (t part : Text) : Bool := part.isPrefixOf t

def endsWith (t part : Text) : Bool := part.isSuffixOf t

/-- Whether `part` stands anywhere in the text. -/
def contains (part : Text) : Text → Bool
  | [] => part.isEmpty
  | b :: t => part.isPrefixOf (b :: t) || contains part t

/-- The pieces between occurrences of the byte `sep`; always at least one. -/
def splitOnByte (sep : UInt8) : Text → List Text
  | [] => [[]]
  | b :: t =>
    match splitOnByte sep t with
    | [] => [[b]]
    | p :: ps => if b = sep then [] :: p :: ps else (b :: p) :: ps

/-- One unit of a text read as UTF-8: a character, or a byte that starts none. -/
inductive Scalar where
  | char (c : Char)
  | stray (b : UInt8)
deriving DecidableEq, Repr

/-- The payload bits of a continuation byte, if it is one. -/
def continuation? (b : UInt8) : Option Nat :=
  if 0x80 ≤ b ∧ b < 0xC0 then some (b.toNat - 0x80) else none

/-- The character with code `n`, if there is one and it needs at least the code `least`. -/
def charFrom? (least n : Nat) : Option Char :=
  if h : n.isValidChar then if least ≤ n then some (Char.ofNatAux n h) else none else none

/-- The character that a lead byte and one further byte make. -/
def pair? (a b : UInt8) : Option Char := do
  guard (0xC0 ≤ a ∧ a < 0xE0)
  charFrom? 0x80 ((a.toNat - 0xC0) * 64 + (← continuation? b))

def triple? (a b c : UInt8) : Option Char := do
  guard (0xE0 ≤ a ∧ a < 0xF0)
  charFrom? 0x800 (((a.toNat - 0xE0) * 64 + (← continuation? b)) * 64 + (← continuation? c))

def quadruple? (a b c d : UInt8) : Option Char := do
  guard (0xF0 ≤ a ∧ a < 0xF8)
  charFrom? 0x10000
    ((((a.toNat - 0xF0) * 64 + (← continuation? b)) * 64 + (← continuation? c)) * 64
      + (← continuation? d))

/-- Reads a text as UTF-8. A byte that starts no character stands for itself, and reading goes on
with the next byte. -/
def scalars : Text → List Scalar
  | [] => []
  | a :: t =>
    if a < 0x80 then .char (Char.ofNat a.toNat) :: scalars t
    else
      match t with
      | [] => [.stray a]
      | b :: t2 =>
        match pair? a b with
        | some ch => .char ch :: scalars t2
        | none =>
          match t2 with
          | [] => .stray a :: scalars (b :: [])
          | c :: t3 =>
            match triple? a b c with
            | some ch => .char ch :: scalars t3
            | none =>
              match t3 with
              | [] => .stray a :: scalars (b :: c :: [])
              | d :: t4 =>
                match quadruple? a b c d with
                | some ch => .char ch :: scalars t4
                | none => .stray a :: scalars (b :: c :: d :: t4)

/-- The character shown for a unit: a stray byte shows as the replacement character. -/
def Scalar.shown : Scalar → Char
  | .char c => c
  | .stray _ => Char.ofNat 0xFFFD

def Scalar.bytes : Scalar → Text
  | .char c => ofString (String.singleton c)
  | .stray b => [b]

def display (t : Text) : String := String.ofList (t.scalars.map Scalar.shown)

/-- Whether every byte belongs to a character. -/
def isValid (t : Text) : Bool :=
  t.scalars.all fun
    | .char _ => true
    | .stray _ => false

def ofChars (cs : List Char) : Text := ofString (String.ofList cs)

end Text

end Monomorph
