import Monomorph.Text.Basic

/-!
# Configuration syntax

What a configuration document is made of: lines that open a table and lines that give a key a
value. A key has parts between dots. Values are kept as written; what the keys together mean is
settled when a document is built from its lines.
-/

namespace Monomorph.Toml

/-- A name in a document, part by part. -/
abbrev Key := List Text

/-- A value as written. Nothing needs the number behind a float or the moment behind a time. -/
inductive Expr where
  | text (t : Text)
  | int (n : Int)
  | float
  | bool (b : Bool)
  | time
  | array (items : List Expr)
  | table (entries : List (Key × Expr))

/-- A line with something in it. -/
inductive Line where
  /-- Opens a table. -/
  | table (key : Key)
  /-- Opens one more element of an array of tables. -/
  | element (key : Key)
  /-- Gives a key a value. -/
  | entry (key : Key) (value : Expr)

/-- Whether a byte may stand in a key without quotes. -/
def isBareByte (b : UInt8) : Bool :=
  (48 ≤ b && b ≤ 57) || (65 ≤ b && b ≤ 90) || (97 ≤ b && b ≤ 122) || b = 45 || b = 95

/-- A byte as it stands in a quoted key. -/
def quotedByte (b : UInt8) : Text :=
  match b.toNat with
  | 8 => "\\b"
  | 9 => "\\t"
  | 10 => "\\n"
  | 12 => "\\f"
  | 13 => "\\r"
  | 34 => "\\\""
  | 92 => "\\\\"
  | n => if n < 32 || n = 127 then "\\u" ++ Text.hexPadded 4 n else [b]

/-- One part of a key, in quotes if it needs them. -/
def renderPart (t : Text) : Text :=
  if t ≠ [] && t.all isBareByte then t else "\"" ++ t.flatMap quotedByte ++ "\""

def renderKey (key : Key) : Text := Text.join "." (key.map renderPart)

end Monomorph.Toml
