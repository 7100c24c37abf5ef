import Monomorph.Text.Basic
import Monomorph.Text.CodeTable

/-!
# Quoted text

A text between double quotes, on one line and in printable characters. A quote and a backslash
take a backslash, control characters their letter or a byte escape, a byte outside UTF-8 a byte
escape, and every other character that does not print its code.

A JSON string is also safe inside markup and scripts: besides quotes, backslashes and control
characters, the angle brackets, the ampersand and the two line separators are escaped. A byte
outside UTF-8 stands as the replacement character.
-/

namespace Monomorph.Text

/-- The letter escape of a control character. -/
def letterEscape? (c : Char) : Option Text :=
  match c.toNat with
  | 7 => some "\\a"
  | 8 => some "\\b"
  | 9 => some "\\t"
  | 10 => some "\\n"
  | 11 => some "\\v"
  | 12 => some "\\f"
  | 13 => some "\\r"
  | 34 => some "\\\""
  | 92 => some "\\\\"
  | _ => none

/-- A character as it stands inside quotes. -/
def quotedChar (c : Char) : Text :=
  match letterEscape? c with
  | some e => e
  | none =>
    if isPrintable c then ofString (String.singleton c)
    else if c.toNat < 0x20 || c.toNat = 0x7F then "\\x" ++ hexPadded 2 c.toNat
    else if c.toNat < 0x10000 then "\\u" ++ hexPadded 4 c.toNat
    else "\\U" ++ hexPadded 8 c.toNat

def quotedScalar : Scalar → Text
  | .char c => quotedChar c
  | .stray b => "\\x" ++ hexPadded 2 b.toNat

/-- The text between double quotes. -/
def quoted (t : Text) : Text := "\"" ++ t.scalars.flatMap quotedScalar ++ "\""

/-- A character inside a JSON string. -/
def jsonChar (c : Char) : Text :=
  match c.toNat with
  | 8 => "\\b"
  | 9 => "\\t"
  | 10 => "\\n"
  | 12 => "\\f"
  | 13 => "\\r"
  | 34 => "\\\""
  | 92 => "\\\\"
  | n =>
    if n < 0x20 || n = 0x26 || n = 0x3C || n = 0x3E || n = 0x2028 || n = 0x2029 then
      "\\u" ++ hexPadded 4 n
    else ofString (String.singleton c)

/-- The text as a JSON string. -/
def json (t : Text) : Text :=
  "\"" ++ (t.scalars.flatMap fun
    | .char c => jsonChar c
    | .stray _ => "\\ufffd") ++ "\""

end Monomorph.Text
