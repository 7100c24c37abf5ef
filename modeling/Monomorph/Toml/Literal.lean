import Monomorph.Toml.Basic

/-!
# Literals of configuration documents

Strings, numbers, truth values and times. A string ends at its closing quotes, so it is read off
the front of the rest of the document; every other literal is one word, and `word?` says what a
word stands for.
-/

namespace Monomorph.Toml

/-- White space inside a line. -/
def isBlank (c : Char) : Bool := c = ' ' || c = '\t'

def isBreak (c : Char) : Bool := c = '\n' || c = '\r'

/-! ## Strings -/

/-- The value of a digit in a base up to sixteen. -/
def digit? (base : Nat) (c : Char) : Option Nat :=
  let n := c.toNat
  let value :=
    if 48 ≤ n && n ≤ 57 then some (n - 48)
    else if 97 ≤ n && n ≤ 102 then some (n - 87)
    else if 65 ≤ n && n ≤ 70 then some (n - 55)
    else none
  value.filter (· < base)

def number? (base : Nat) (digits : List Char) : Option Nat :=
  digits.foldlM (fun n c => (digit? base c).map (n * base + ·)) 0

/-- The character whose code hexadecimal digits spell. -/
def coded? (digits : List Char) : Option Char := (number? 16 digits).bind (Text.charFrom? 0)

/-- The character that a letter stands for behind a backslash. -/
def escaped? : Char → Option Char
  | 'b' => some (Char.ofNat 8)
  | 't' => some '\t'
  | 'n' => some '\n'
  | 'f' => some (Char.ofNat 12)
  | 'r' => some '\r'
  | '"' => some '"'
  | '\\' => some '\\'
  | _ => none

def prepend (front : List Char) :
    Option (List Char × List Char) → Option (List Char × List Char) :=
  Option.map fun (body, rest) => (front ++ body, rest)

/-- Replaces escapes by the characters they stand for. -/
def unescape : List Char → Option (List Char)
  | [] => some []
  | c :: r =>
    if c = '\\' then
      match r with
      | 'u' :: c1 :: c2 :: c3 :: c4 :: r => do
        return (← coded? [c1, c2, c3, c4]) :: (← unescape r)
      | 'U' :: c1 :: c2 :: c3 :: c4 :: c5 :: c6 :: c7 :: c8 :: r => do
        return (← coded? [c1, c2, c3, c4, c5, c6, c7, c8]) :: (← unescape r)
      | d :: r => do return (← escaped? d) :: (← unescape r)
      | [] => none
    else (unescape r).map (c :: ·)

/-- The body of a string on one line and what stands behind its closing quote `q`. With `escapes`
a backslash keeps the next character from closing the string. -/
def lineBody (q : Char) (escapes : Bool) : List Char → Option (List Char × List Char)
  | [] => none
  | c :: r =>
    if c = q then some ([], r)
    else if isBreak c then none
    else if escapes && c = '\\' then
      match r with
      | [] => none
      | d :: r => prepend [c, d] (lineBody q escapes r)
    else prepend [c] (lineBody q escapes r)

/-- The body of a string over several lines and what stands behind its three closing quotes. One
or two further quotes before these belong to the body. -/
def blockBody (q : Char) (escapes : Bool) : List Char → Option (List Char × List Char)
  | [] => none
  | c :: r =>
    let n := ((c :: r).takeWhile (· = q)).length
    if 3 ≤ n then
      if n ≤ 5 then some (List.replicate (n - 3) q, (c :: r).drop n) else none
    else if escapes && c = '\\' then
      match r with
      | [] => none
      | d :: r => prepend [c, d] (blockBody q escapes r)
    else prepend [c] (blockBody q escapes r)

/-- A string over several lines without the line break behind its opening quotes. -/
def dropFirstBreak : List Char → List Char
  | '\n' :: r => r
  | '\r' :: '\n' :: r => r
  | cs => cs

/-- Whether only white space stands between here and the end of the line. -/
def endsLine (cs : List Char) : Bool :=
  (cs.takeWhile fun c => isBlank c || isBreak c).elem '\n'

/-- Takes out every backslash that ends a line, and all white space behind it. `skipping` says
that such a backslash has just been met. -/
def joinLines (skipping : Bool) : List Char → List Char
  | [] => []
  | c :: r =>
    if skipping && (isBlank c || isBreak c) then joinLines true r
    else if c = '\\' then
      match r with
      | '\\' :: r => c :: '\\' :: joinLines false r
      | r => if endsLine r then joinLines true r else c :: joinLines false r
    else c :: joinLines false r

def meant (f : List Char → Option (List Char)) (read : Option (List Char × List Char)) :
    Option (Text × List Char) := do
  let (body, rest) ← read
  return (Text.ofChars (← f body), rest)

/-- A string on one line, read from its opening quote on. -/
def lineText? : List Char → Option (Text × List Char)
  | '"' :: r => meant unescape (lineBody '"' true r)
  | '\'' :: r => meant some (lineBody '\'' false r)
  | _ => none

/-- A string of any kind, read from its opening quotes on. -/
def text? : List Char → Option (Text × List Char)
  | '"' :: '"' :: '"' :: r =>
    meant (fun body => unescape (joinLines false (dropFirstBreak body))) (blockBody '"' true r)
  | '\'' :: '\'' :: '\'' :: r =>
    meant (fun body => some (dropFirstBreak body)) (blockBody '\'' false r)
  | cs => lineText? cs

/-! ## Numbers -/

def isDigit (c : Char) : Bool := '0' ≤ c && c ≤ '9'

/-- The digits of a group in which single underscores may stand between digits. -/
def grouped? (base : Nat) : List Char → Option (List Char)
  | [] => none
  | [c] => if (digit? base c).isSome then some [c] else none
  | c :: '_' :: r => if (digit? base c).isSome then (grouped? base r).map (c :: ·) else none
  | c :: r => if (digit? base c).isSome then (grouped? base r).map (c :: ·) else none

/-- The digits of a decimal whole number: no zero in front of other digits. -/
def whole? (cs : List Char) : Option (List Char) := do
  let digits ← grouped? 10 cs
  guard (cs.length = 1 || cs.head? ≠ some '0')
  return digits

def signed (cs : List Char) : Bool × List Char :=
  match cs with
  | '-' :: r => (true, r)
  | '+' :: r => (false, r)
  | r => (false, r)

/-- Whole numbers have sixty-four bits and a sign. -/
def inRange (n : Int) : Bool := -9223372036854775808 ≤ n && n ≤ 9223372036854775807

/-- A whole number: decimal with or without a sign, or in another base without one. -/
def int? (cs : List Char) : Option Int :=
  let inBase (base : Nat) (r : List Char) : Option Int :=
    ((grouped? base r).bind (number? base)).map Int.ofNat
  let value :=
    match cs with
    | '0' :: 'x' :: r => inBase 16 r
    | '0' :: 'o' :: r => inBase 8 r
    | '0' :: 'b' :: r => inBase 2 r
    | cs =>
      let (negative, r) := signed cs
      ((whole? r).bind (number? 10)).map fun n => if negative then -Int.ofNat n else Int.ofNat n
  value.filter inRange

/-- The least number that is too large for a float: half a unit beyond the largest of them. -/
def floatBound : Nat := Nat.pow 2 1024 - Nat.pow 2 970

/-- Whether `n * 10 ^ e` is small enough for a float. The number of digits decides unless it comes
close. -/
def fitsFloat (n : Nat) (e : Int) : Bool :=
  let size := (Text.ofNat n).length + e
  if n = 0 || size < 300 then true
  else if 320 < size then false
  else if 0 ≤ e then n * Nat.pow 10 e.toNat < floatBound
  else n < floatBound * Nat.pow 10 (-e).toNat

/-- Whether characters spell a float: a decimal with a fraction, an exponent or both. -/
def isFloat (cs : List Char) : Bool :=
  let (_, body) := signed cs
  let mark := fun c : Char => c = 'e' || c = 'E'
  let mantissa := body.takeWhile fun c => !mark c
  let power := body.dropWhile fun c => !mark c
  let whole := mantissa.takeWhile (· ≠ '.')
  let fraction := mantissa.dropWhile (· ≠ '.')
  let spelled : Option Bool := do
    guard (fraction ≠ [] || power ≠ [])
    let front ← whole? whole
    let back ← if fraction = [] then some [] else grouped? 10 fraction.tail
    let (lower, exponent) := signed power.tail
    let e ← if power = [] then some 0 else (← grouped? 10 exponent) |> number? 10
    let n ← number? 10 (front ++ back)
    return fitsFloat n ((if lower then -(Int.ofNat e) else Int.ofNat e) - back.length)
  body = ['i', 'n', 'f'] || body = ['n', 'a', 'n'] || spelled.getD false

/-! ## Times -/

def twoDigits? : List Char → Option (Nat × List Char)
  | c :: d :: r => (number? 10 [c, d]).map (·, r)
  | _ => none

def behind? (c : Char) : List Char → Option (List Char)
  | d :: r => if c = d then some r else none
  | [] => none

def daysOf (year month : Nat) : Nat :=
  if month = 2 then
    if year % 4 = 0 && (year % 100 ≠ 0 || year % 400 = 0) then 29 else 28
  else if [4, 6, 9, 11].elem month then 30
  else 31

def date? (cs : List Char) : Option (List Char) := do
  let (century, r) ← twoDigits? cs
  let (years, r) ← twoDigits? r
  let (month, r) ← twoDigits? (← behind? '-' r)
  let (day, r) ← twoDigits? (← behind? '-' r)
  guard (1 ≤ month && month ≤ 12 && 1 ≤ day && day ≤ daysOf (century * 100 + years) month)
  return r

/-- The rest behind a time of day. The hour may have one digit, and the seconds a fraction. -/
def clock? (cs : List Char) : Option (List Char) := do
  let hours := (cs.take 2).takeWhile isDigit
  guard (hours ≠ [])
  let hour ← number? 10 hours
  let (minute, r) ← twoDigits? (← behind? ':' (cs.drop hours.length))
  let (second, r) ← twoDigits? (← behind? ':' r)
  guard (hour < 24 && minute < 60 && second < 60)
  match r with
  | '.' :: d :: r => if isDigit d then return r.dropWhile isDigit else return '.' :: d :: r
  | r => return r

/-- Whether the characters are a distance from universal time. -/
def isZone : List Char → Bool
  | ['Z'] => true
  | sign :: r =>
    let read : Option (Nat × Nat × List Char) := do
      let (hours, r) ← twoDigits? r
      let (minutes, r) ← twoDigits? (← behind? ':' r)
      return (hours, minutes, r)
    match read with
    | some (hours, minutes, []) => (sign = '+' || sign = '-') && hours ≤ 24 && minutes ≤ 60
    | _ => false
  | [] => false

/-- Whether characters spell a date, a time of day, or both with or without a zone. -/
def isTime (cs : List Char) : Bool :=
  let cs := cs.map fun c => if c = 't' || c = ' ' then 'T' else if c = 'z' then 'Z' else c
  match date? cs with
  | none => clock? cs = some []
  | some [] => true
  | some r =>
    match (behind? 'T' r).bind clock? with
    | none => false
    | some zone => zone = [] || isZone zone

/-! ## Words -/

def inWord (c : Char) : Bool :=
  c.isAlphanum || c = '_' || c = '+' || c = '-' || c = '.' || c = ':'

def word? (cs : List Char) : Option Expr :=
  if cs = ['t', 'r', 'u', 'e'] then some (.bool true)
  else if cs = ['f', 'a', 'l', 's', 'e'] then some (.bool false)
  else
    match int? cs with
    | some n => some (.int n)
    | none => if isFloat cs then some .float else if isTime cs then some .time else none

/-- Reads a word. A date and a time of day with one space between them are one word. -/
def wordExpr? (cs : List Char) : Option (Expr × List Char) :=
  let first := cs.takeWhile inWord
  let rest := cs.drop first.length
  match date? first, rest with
  | some [], ' ' :: d :: r =>
    if isDigit d then
      let second := (d :: r).takeWhile inWord
      (word? (first ++ ' ' :: second)).map (·, (d :: r).drop second.length)
    else (word? first).map (·, rest)
  | _, _ => (word? first).map (·, rest)

end Monomorph.Toml
