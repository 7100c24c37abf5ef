import Monomorph.Text.Basic
import Monomorph.Text.Decomposition

/-!
# The composed normal form

Canonical normalisation of Unicode text: characters are taken apart, combining marks are put into
the order of their classes, and what can be put together again is. Texts that mean the same
characters come out equal.
-/

namespace Monomorph.Text

/-- The combining class of a code; zero for a character that starts a sequence. -/
def combiningClass (code : Nat) : Nat :=
  let holds : List Nat → Bool
    | first :: last :: _ => first ≤ code && code ≤ last
    | _ => false
  if code < 0x300 then 0
  else ((combiningRows.find? holds).bind fun row => row[2]?).getD 0

namespace Hangul

def syllables : Nat := 0xAC00
def leads : Nat := 0x1100
def vowels : Nat := 0x1161
def tails : Nat := 0x11A7
def leadCount : Nat := 19
def vowelCount : Nat := 21
def tailCount : Nat := 28

def isSyllable (code : Nat) : Bool :=
  syllables ≤ code && code < syllables + leadCount * vowelCount * tailCount

/-- The letters of a syllable: lead, vowel, and a tail unless there is none. -/
def split (code : Nat) : List Nat :=
  let i := code - syllables
  let tail := i % tailCount
  [leads + i / (vowelCount * tailCount), vowels + i / tailCount % vowelCount]
    ++ (if tail = 0 then [] else [tails + tail])

/-- The syllable of a lead and a vowel, or of a syllable without tail and a tail. -/
def unite? (a b : Nat) : Option Nat :=
  if leads ≤ a && a < leads + leadCount && vowels ≤ b && b < vowels + vowelCount then
    some (syllables + ((a - leads) * vowelCount + (b - vowels)) * tailCount)
  else if isSyllable a && (a - syllables) % tailCount == 0 && tails < b && b < tails + tailCount then
    some (a + (b - tails))
  else none

end Hangul

/-- The codes that one code is directly made of. -/
def parts? (code : Nat) : Option (List Nat) :=
  if code < 0xC0 then none
  else
    ((composedRows ++ separatedRows ++ singletonRows).find? fun row => row.head? == some code).map
      List.tail

/-- Takes a code apart as far as possible. No chain of parts is longer than four. -/
def takeApart : (depth : Nat) → Nat → List Nat
  | 0, code => [code]
  | depth + 1, code =>
    if Hangul.isSyllable code then Hangul.split code
    else
      match parts? code with
      | none => [code]
      | some parts => parts.flatMap (takeApart depth)

/-- A unit of text with its combining class. -/
abbrev Classed := Scalar × Nat

/-- The units of a text taken apart, with their classes. -/
def decomposed (cs : List Scalar) : List Classed :=
  cs.flatMap fun
    | .char c => (takeApart 8 c.toNat).map fun n => (.char (Char.ofNat n), combiningClass n)
    | .stray b => [(.stray b, 0)]

/-- Puts a mark in front of an ordered run: behind the marks of lower class, and before those of
its own, which come later in the text. -/
def placeMark (x : Classed) : List Classed → List Classed
  | [] => [x]
  | y :: ys => if y.2 < x.2 then y :: placeMark x ys else x :: y :: ys

/-- Orders the marks behind each starter by class, those of one class as they came. -/
def orderMarks : List Classed → List Classed
  | [] => []
  | x :: rest =>
    let done := orderMarks rest
    if x.2 = 0 then x :: done
    else placeMark x (done.takeWhile fun y => y.2 ≠ 0) ++ done.dropWhile fun y => y.2 ≠ 0

def unite? (a b : Scalar) : Option Scalar :=
  match a, b with
  | .char a, .char b =>
    match Hangul.unite? a.toNat b.toNat with
    | some n => some (.char (Char.ofNat n))
    | none =>
      (composedRows.find? fun row => row.tail == [a.toNat, b.toNat]).bind fun row =>
        row.head?.map fun n => .char (Char.ofNat n)
  | _, _ => none

/-- Puts characters together. `starter` is the last starter, `marks` are the marks kept behind it,
last first, and `last` is the class of the last of them. A unit joins the starter unless a kept
mark of no lower class stands between them. -/
def uniteFrom (starter : Scalar) (marks : List Scalar) (last : Nat) : List Classed → List Scalar
  | [] => starter :: marks.reverse
  | (c, k) :: rest =>
    let blocked : Bool := !marks.isEmpty && (last ≥ k)
    match if blocked then none else unite? starter c with
    | some joined => uniteFrom joined marks last rest
    | none =>
      if k = 0 then starter :: (marks.reverse ++ uniteFrom c [] 0 rest)
      else uniteFrom starter (c :: marks) k rest

/-- Puts characters together from the first starter on. -/
def uniteAll : List Classed → List Scalar
  | [] => []
  | (c, k) :: rest => if k = 0 then uniteFrom c [] 0 rest else c :: uniteAll rest

/-- The composed normal form. -/
def composed (cs : List Scalar) : List Scalar := uniteAll (orderMarks (decomposed cs))

end Monomorph.Text
