import Monomorph.Text.Basic

/-!
# Rounded quotients

Durations and shares are computed in numbers of fifty-three significant bits: a whole number times
a power of two, each result the nearest such number and ties to the even one. Durations are far
from the ends of the exponent range, so the exponent is not limited here. The sign is kept beside
the magnitude, because a result that rounds to zero still shows it.

A number is written with a fixed count of decimal places: the exact value is rounded once, a half to
the even digit.
-/

namespace Monomorph

/-- The quotient rounded to the nearest whole number, a half to the even one. -/
def roundHalfEven (num den : Nat) : Nat :=
  let q := num / den
  let r := num % den
  if 2 * r < den then q
  else if den < 2 * r then q + 1
  else if q % 2 = 0 then q
  else q + 1

/-- The magnitude `mant * 2 ^ exp` with a sign. -/
structure Double where
  negative : Bool := false
  mant : Nat
  exp : Int

namespace Double

/-- `2 ^ k` above or below the line. -/
def scaled (num den : Nat) (k : Int) : Nat × Nat :=
  if 0 ≤ k then (num * Nat.pow 2 k.toNat, den) else (num, den * Nat.pow 2 (-k).toNat)

/-- The nearest number to `num / den`. -/
def ofRatio (negative : Bool) (num den : Nat) : Double :=
  if num = 0 then { negative, mant := 0, exp := 0 }
  else
    let guess : Int := (Nat.log2 num : Int) - (Nat.log2 den : Int) - 52
    let (n, d) := scaled num den (-guess)
    let exp := if n / d < Nat.pow 2 52 then guess - 1 else guess
    let (n, d) := scaled num den (-exp)
    { negative, mant := roundHalfEven n d, exp }

def ofInt (n : Int) : Double := ofRatio (n < 0) n.natAbs 1

def ratio (x : Double) : Nat × Nat := scaled x.mant 1 x.exp

/-- The rounded quotient by a positive whole number. -/
def divNat (x : Double) (d : Nat) : Double :=
  let (n, k) := x.ratio
  ofRatio x.negative n (k * d)

/-- The rounded sum of two numbers of one sign. -/
def addSameSign (x y : Double) : Double :=
  let (a, b) := x.ratio
  let (c, d) := y.ratio
  ofRatio (x.negative || y.negative) (a * d + c * b) (b * d)

end Double

/-- Decimal digits of `n` with the point before the last `places` digits. -/
def pointed (places n : Nat) : Text :=
  if places = 0 then Text.ofNat n
  else
    Text.ofNat (n / Nat.pow 10 places) ++ "."
      ++ Text.zeroPadded places (n % Nat.pow 10 places)

/-- A number with so many places. -/
def Double.fixed (places : Nat) (x : Double) : Text :=
  let (n, d) := x.ratio
  (if x.negative then "-" else "" : String) ++ pointed places (roundHalfEven (n * Nat.pow 10 places) d)

def millis (nanos : Int) : Double := (Double.ofInt nanos).divNat 1000000

/-- A duration in seconds: the whole seconds plus the rounded rest. -/
def seconds (nanos : Int) : Double :=
  let negative : Bool := nanos < 0
  let n := nanos.natAbs
  (Double.ofRatio (negative && n ≥ 1000000000) (n / 1000000000) 1).addSameSign
    (Double.ofRatio (negative && n % 1000000000 ≠ 0) (n % 1000000000) 1000000000)

end Monomorph
