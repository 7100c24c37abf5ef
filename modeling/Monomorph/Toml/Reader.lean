import Monomorph.Toml.Literal

/-!
# Reading configuration documents

The grammar of a document. Reading is all or nothing: a document that breaks a rule anywhere has
no lines at all. Every construct takes a character or more off the front and two steps at most, so
twice the number of characters bounds the steps.
-/

namespace Monomorph.Toml

def skipBlank (cs : List Char) : List Char := cs.dropWhile isBlank

/-- The rest behind white space, line breaks and comments. -/
def skipFill (inComment : Bool) : List Char → List Char
  | [] => []
  | c :: r =>
    if inComment then skipFill (!isBreak c) r
    else if isBlank c || isBreak c then skipFill false r
    else if c = '#' then skipFill true r
    else c :: r

def isBare (c : Char) : Bool := c.isAlphanum || c = '-' || c = '_'

def part? (cs : List Char) : Option (Text × List Char) :=
  match cs.takeWhile isBare with
  | [] => lineText? cs
  | bare => some (Text.ofChars bare, cs.drop bare.length)

def keyWith : (fuel : Nat) → List Char → Option (Key × List Char)
  | 0, _ => none
  | fuel + 1, cs => do
    let (part, r) ← part? (skipBlank cs)
    match skipBlank r with
    | '.' :: r => do
      let (parts, r) ← keyWith fuel r
      return (part :: parts, r)
    | r => return ([part], r)

mutual
def exprWith : (fuel : Nat) → List Char → Option (Expr × List Char)
  | 0, _ => none
  | fuel + 1, cs =>
    match cs with
    | '[' :: r => (itemsWith fuel r).map fun (items, r) => (.array items, r)
    | '\x7b' :: r =>
      match skipBlank r with
      | '\x7d' :: r => some (.table [], r)
      | r => (entriesWith fuel r).map fun (entries, r) => (.table entries, r)
    | cs =>
      match text? cs with
      | some (t, r) => some (.text t, r)
      | none => wordExpr? cs

/-- The rest of an array, up to its closing bracket. A comma may stand behind the last item. -/
def itemsWith : (fuel : Nat) → List Char → Option (List Expr × List Char)
  | 0, _ => none
  | fuel + 1, cs =>
    match skipFill false cs with
    | ']' :: r => some ([], r)
    | cs => do
      let (item, r) ← exprWith fuel cs
      match skipFill false r with
      | ',' :: r => do
        let (items, r) ← itemsWith fuel r
        return (item :: items, r)
      | ']' :: r => return ([item], r)
      | _ => none

/-- The entries of a table in braces, up to its closing brace. They stand on one line, and no comma
may stand behind the last of them. -/
def entriesWith : (fuel : Nat) → List Char → Option (List (Key × Expr) × List Char)
  | 0, _ => none
  | fuel + 1, cs => do
    let (key, r) ← keyWith fuel cs
    let (value, r) ← exprWith fuel (skipBlank (← behind? '=' r))
    match skipBlank r with
    | ',' :: r => do
      let (entries, r) ← entriesWith fuel r
      return ((key, value) :: entries, r)
    | '\x7d' :: r => return ([(key, value)], r)
    | _ => none
end

/-- One line with something in it, up to where only white space and a comment may follow. -/
def lineWith (fuel : Nat) (cs : List Char) : Option (Line × List Char) :=
  match cs with
  | '[' :: '[' :: r => do
    let (key, r) ← keyWith fuel r
    return (.element key, ← behind? ']' (← behind? ']' r))
  | '[' :: r => do
    let (key, r) ← keyWith fuel r
    return (.table key, ← behind? ']' r)
  | cs => do
    let (key, r) ← keyWith fuel cs
    let (value, r) ← exprWith fuel (skipBlank (← behind? '=' r))
    return (.entry key value, r)

def atLineEnd (cs : List Char) : Bool :=
  match skipBlank cs with
  | [] => true
  | c :: _ => isBreak c || c = '#'

def linesWith : (fuel : Nat) → List Char → Option (List Line)
  | 0, _ => none
  | fuel + 1, cs =>
    match skipFill false cs with
    | [] => some []
    | cs => do
      let (line, r) ← lineWith fuel cs
      guard (atLineEnd r)
      return line :: (← linesWith fuel r)

/-- Whether the characters may stand in a document: of the control characters only tabs and line
breaks, and a carriage return only in front of a line feed. -/
def allowed : List Char → Bool
  | [] => true
  | '\r' :: '\n' :: r => allowed r
  | c :: r =>
    let n := c.toNat
    (c = '\t' || c = '\n' || (32 ≤ n && n ≠ 127)) && allowed r

def chars? (t : Text) : Option (List Char) :=
  t.scalars.mapM fun
    | .char c => some c
    | .stray _ => none

/-- A document without a byte order mark in front. -/
def dropMark : List UInt8 → List UInt8
  | 0xFF :: 0xFE :: r => r
  | 0xFE :: 0xFF :: r => r
  | 0xEF :: 0xBB :: 0xBF :: r => r
  | bytes => bytes

def lines? (bytes : List UInt8) : Option (List Line) := do
  let cs ← chars? (dropMark bytes)
  guard (allowed cs)
  linesWith (2 * cs.length + 2) cs

end Monomorph.Toml
