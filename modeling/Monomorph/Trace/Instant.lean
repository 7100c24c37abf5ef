import Monomorph.Text.Basic

/-!
# Instants

A point in time in seconds and nanoseconds since 1970, in UTC, and its two written forms.
-/

namespace Monomorph

/-- Seconds and nanoseconds since the start of 1970. -/
structure Instant where
  sec : Int
  nano : Nat

namespace Instant

/-- An instant from any count of nanoseconds beside the seconds. -/
def ofUnix (sec nano : Int) : Instant :=
  { sec := sec + nano.fdiv 1000000000, nano := (nano.fmod 1000000000).toNat }

def since (later earlier : Instant) : Int64 :=
  Int64.ofInt ((later.sec - earlier.sec) * 1000000000 + ((later.nano : Int) - earlier.nano))

/-- Year, month and day of a day count since 1970. Years are counted from March on, in eras of four
centuries. -/
def civil (days : Int) : Int × Nat × Nat :=
  let z := days + 719468
  let era := z.fdiv 146097
  let doe := (z.fmod 146097).toNat
  let yoe := (doe - doe / 1460 + doe / 36524 - doe / 146096) / 365
  let doy := doe - (365 * yoe + yoe / 4 - yoe / 100)
  let mp := (5 * doy + 2) / 153
  let day := doy - (153 * mp + 2) / 5 + 1
  let month := if mp < 10 then mp + 3 else mp - 9
  let year := (yoe : Int) + era * 400 + (if month ≤ 2 then 1 else 0)
  (year, month, day)

def clock (t : Instant) : Text :=
  let s := (t.sec.fmod 86400).toNat
  Text.zeroPadded 2 (s / 3600) ++ ":" ++ Text.zeroPadded 2 (s / 60 % 60) ++ ":" ++ Text.zeroPadded 2 (s % 60)

/-- The time of day with milliseconds, cut off and not rounded. -/
def timeOfDay (t : Instant) : Text := t.clock ++ "." ++ Text.zeroPadded 3 (t.nano / 1000000)

def digits (t : Instant) : Text :=
  let (year, month, day) := civil (t.sec.fdiv 86400)
  let s := (t.sec.fmod 86400).toNat
  Text.zeroPadded 4 year.natAbs ++ Text.zeroPadded 2 month ++ Text.zeroPadded 2 day
    ++ Text.zeroPadded 2 (s / 3600) ++ Text.zeroPadded 2 (s / 60 % 60) ++ Text.zeroPadded 2 (s % 60)

def dropTrailingZeros (digits : Text) : Text := (digits.reverse.dropWhile (· = 48)).reverse

/-- Date and time with as many decimals as needed. -/
def full (t : Instant) : Text :=
  let (year, month, day) := civil (t.sec.fdiv 86400)
  (if year < 0 then "-" else "" : String) ++ Text.zeroPadded 4 year.natAbs ++ "-"
    ++ Text.zeroPadded 2 month ++ "-" ++ Text.zeroPadded 2 day ++ "T" ++ t.clock
    ++ (if t.nano = 0 then [] else "." ++ dropTrailingZeros (Text.zeroPadded 9 t.nano) : Text) ++ "Z"

end Instant

end Monomorph
