import Monomorph.Text.Quoted

/-!
# Values on a command line

What the text behind an option means: a whole number, a truth value, a duration, or a list of texts
with commas between them. Whatever is wrong with a text is said in words.
-/

namespace Monomorph.Cli

/-! ## Whole numbers -/

/-- Why a text is no number. -/
inductive NumberFault where
  | syntactic
  | range

def NumberFault.message : NumberFault → Text
  | .syntactic => "invalid syntax"
  | .range => "value out of range"

/-- What a reader says about a text that it does not take. -/
def refusal (reader : Text) (t : Text) (f : NumberFault) : Text :=
  "strconv." ++ reader ++ ": parsing " ++ t.quoted ++ ": " ++ f.message

def lowerLetter (b : UInt8) : UInt8 := if 65 ≤ b && b ≤ 90 then b + 32 else b

def digitValue? (b : UInt8) : Option Nat :=
  let c := lowerLetter b
  if 48 ≤ c && c ≤ 57 then some (c.toNat - 48)
  else if 97 ≤ c && c ≤ 122 then some (c.toNat - 87)
  else none

/-- The base that the start of a number gives, and the digits behind it. -/
def baseOf : Text → Nat × Text
  | 48 :: b :: rest =>
    let c := lowerLetter b
    if rest ≠ [] && c = 120 then (16, rest)
    else if rest ≠ [] && c = 98 then (2, rest)
    else if rest ≠ [] && c = 111 then (8, rest)
    else (8, b :: rest)
  | t => (10, t)

/-- Reads digits into a word of sixty-four bits; underscores count for nothing. -/
def readDigits (base : Nat) : (value : Nat) → Text → Except NumberFault Nat
  | value, [] => .ok value
  | value, b :: t =>
    if b = 95 then readDigits base value t
    else
      match (digitValue? b).filter (· < base) with
      | none => .error .syntactic
      | some d =>
        let next := value * base + d
        if Nat.pow 2 64 ≤ next then .error .range else readDigits base next t

/-- Whether underscores stand only behind a digit or the mark of a base, and before a digit. `after`
says whether one may stand here. -/
def underscoresStand (hex : Bool) (after : Bool) : Text → Bool
  | [] => true
  | 95 :: t =>
    match t with
    | [] => false
    | b :: _ =>
      after && ((digitValue? b).any fun d => d < 10 || (hex && d < 16)) && underscoresStand hex false t
  | _ :: t => underscoresStand hex true t

def underscoresOk (t : Text) : Bool :=
  match t with
  | 48 :: b :: rest =>
    let c := lowerLetter b
    if c = 120 || c = 98 || c = 111 then underscoresStand (c = 120) true rest
    else underscoresStand false false t
  | t => underscoresStand false false t

def magnitude (t : Text) : Except NumberFault Nat := do
  if t = [] then throw .syntactic
  let (base, digits) := baseOf t
  let n ← readDigits base 0 digits
  if List.elem 95 t && !underscoresOk t then throw .syntactic
  return n

/-- A whole number of sixty-four bits with a sign: decimal, or in a base that its start marks. -/
def readInt (t : Text) : Except NumberFault Int := do
  let (negative, digits) :=
    match t with
    | 45 :: rest => (true, rest)
    | 43 :: rest => (false, rest)
    | rest => (false, rest)
  let n ← magnitude digits
  if negative then
    if Nat.pow 2 63 < n then throw .range
    return -(Int.ofNat n)
  else
    if Nat.pow 2 63 ≤ n then throw .range
    return Int.ofNat n

/-- A whole number, or why the text is none. -/
def int (t : Text) : Except Text Int := (readInt t).mapError (refusal "ParseInt" t)

/-! ## Truth values -/

def trueWords : List Text := ["1", "t", "T", "TRUE", "true", "True"]
def falseWords : List Text := ["0", "f", "F", "FALSE", "false", "False"]

def bool (t : Text) : Except Text Bool :=
  if trueWords.elem t then .ok true
  else if falseWords.elem t then .ok false
  else .error (refusal "ParseBool" t .syntactic)

/-! ## Durations -/

def units : List (Text × Nat) :=
  [("ns", 1), ("us", 1000), ("µs", 1000), ("μs", 1000), ("ms", 1000000), ("s", 1000000000),
   ("m", 60000000000), ("h", 3600000000000)]

def durationBound : Nat := Nat.pow 2 63

/-- A text in quotes with every byte outside of plain ASCII as an escape. -/
def asciiQuoted (t : Text) : Text :=
  let byte (b : UInt8) : Text :=
    if b < 32 || 128 ≤ b then "\\x" ++ Text.hexPadded 2 b.toNat
    else if b = 34 || b = 92 then [92, b]
    else [b]
  "\"" ++ t.flatMap byte ++ "\""

inductive DurationFault where
  | malformed
  | noUnit
  | unknownUnit (unit : Text)

def DurationFault.message (t : Text) : DurationFault → Text
  | .malformed => "time: invalid duration " ++ asciiQuoted t
  | .noUnit => "time: missing unit in duration " ++ asciiQuoted t
  | .unknownUnit u => "time: unknown unit " ++ asciiQuoted u ++ " in duration " ++ asciiQuoted t

def isDigit (b : UInt8) : Bool := 48 ≤ b && b ≤ 57

def decimal (digits : Text) : Nat := digits.foldl (fun n b => n * 10 + (b.toNat - 48)) 0

/-- One quantity with its unit, and the rest. -/
def quantity (t : Text) : Except DurationFault (Nat × Text) := do
  let whole := t.takeWhile isDigit
  let rest := t.drop whole.length
  let fraction := if rest.head? = some 46 then (rest.drop 1).takeWhile isDigit else []
  let rest := if rest.head? = some 46 then rest.drop (1 + fraction.length) else rest
  if whole = [] && fraction = [] || durationBound < decimal whole then throw .malformed
  let name := rest.takeWhile fun b => !(b = 46 || isDigit b)
  if name = [] then throw .noUnit
  match units.lookup name with
  | none => throw (.unknownUnit name)
  | some unit =>
    let nanos := decimal whole * unit + decimal fraction * unit / Nat.pow 10 fraction.length
    if durationBound < nanos then throw .malformed
    return (nanos, rest.drop name.length)

/-- Adds up quantities until the text ends. Each takes a byte at least, which bounds their number. -/
def quantities : (fuel : Nat) → (sum : Nat) → Text → Except DurationFault Nat
  | 0, sum, _ => .ok sum
  | _ + 1, sum, [] => .ok sum
  | fuel + 1, sum, t => do
    let (nanos, rest) ← quantity t
    if durationBound < sum + nanos then throw .malformed
    quantities fuel (sum + nanos) rest

/-- A duration in nanoseconds: quantities with units, behind an optional sign. -/
def readDuration (t : Text) : Except DurationFault Int := do
  let (negative, body) :=
    match t with
    | 45 :: rest => (true, rest)
    | 43 :: rest => (false, rest)
    | rest => (false, rest)
  if body = [48] then return 0
  if body = [] then throw .malformed
  let n ← quantities body.length 0 body
  if !negative && durationBound ≤ n then throw .malformed
  return if negative then -(Int.ofNat n) else Int.ofNat n

def duration (t : Text) : Except Text Int := (readDuration t).mapError (DurationFault.message t)

/-! ## Lists -/

structure Position where
  line : Nat
  column : Nat := 1

inductive FieldsFault where
  | nothing
  | bareQuote (first : Nat) (place : Position)
  | quote (first : Nat) (place : Position)

/-- A place in the words of a fault. -/
def FieldsFault.at (first : Nat) (place : Position) : Text :=
  (if first = place.line then [] else "record on line " ++ Text.ofNat first ++ "; " : Text)
    ++ "parse error on line " ++ Text.ofNat place.line ++ ", column " ++ Text.ofNat place.column
    ++ ": "

def FieldsFault.message : FieldsFault → Text
  | .nothing => "EOF"
  | .bareQuote first place => FieldsFault.at first place ++ "bare \" in non-quoted field"
  | .quote first place => FieldsFault.at first place ++ "extraneous or missing \" in quoted-field"

/-- The text with plain line ends. A carriage return at the very end goes too. -/
def plainEnds : Text → Text
  | [] => []
  | [13] => []
  | 13 :: 10 :: rest => 10 :: plainEnds rest
  | b :: rest => b :: plainEnds rest

def finishField (field : Text) (later : Except FieldsFault (List Text)) :
    Except FieldsFault (List Text) :=
  later.map (field.reverse :: ·)

inductive FieldMode where
  | start
  | bare
  | quoted

/-- Reads the fields of one line. `field` holds the field at hand, last byte first. Between quotes
commas and line ends belong to the field, and two quotes stand for one. -/
def readFields (first : Nat) :
    FieldMode → (place : Position) → (field : Text) → Text → Except FieldsFault (List Text)
  | .quoted, place, _, [] => .error (.quote first place)
  | _, _, field, [] => .ok [field.reverse]
  | .quoted, place, field, b :: rest =>
    if b = 34 then
      match rest with
      | 34 :: rest => readFields first .quoted { place with column := place.column + 2 } (34 :: field) rest
      | 44 :: rest =>
        finishField field (readFields first .start { place with column := place.column + 2 } [] rest)
      | 10 :: _ => .ok [field.reverse]
      | [] => .ok [field.reverse]
      | _ => .error (.quote first place)
    else
      let next : Position :=
        if b = 10 && !rest.isEmpty then { line := place.line + 1 }
        else { place with column := place.column + 1 }
      readFields first .quoted next (b :: field) rest
  | .start, place, field, b :: rest =>
    if b = 34 then readFields first .quoted { place with column := place.column + 1 } field rest
    else if b = 44 then
      finishField field (readFields first .start { place with column := place.column + 1 } [] rest)
    else if b = 10 then .ok [field.reverse]
    else readFields first .bare { place with column := place.column + 1 } (b :: field) rest
  | .bare, place, field, b :: rest =>
    if b = 34 then .error (.bareQuote first place)
    else if b = 44 then
      finishField field (readFields first .start { place with column := place.column + 1 } [] rest)
    else if b = 10 then .ok [field.reverse]
    else readFields first .bare { place with column := place.column + 1 } (b :: field) rest

/-- The fields of the first line that is not empty; an empty text has none. -/
def fields (t : Text) : Except Text (List Text) :=
  if t = [] then .ok []
  else
    let body := plainEnds t
    let blank := (body.takeWhile (· = 10)).length
    let line := blank + 1
    (if blank = body.length then .error .nothing
      else readFields line .start { line := line } [] (body.drop blank)).mapError FieldsFault.message

end Monomorph.Cli
