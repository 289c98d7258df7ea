import Gameroom.Number.Basic

/-!
Timestamps of clock readings in milliseconds since 1970, in universal time, to the microsecond.
-/
namespace Gameroom.Timestamp

/-- The last second that a calendar's own counter of years can hold. -/
def lastCounted : Int := 67768036191676799

def firstCounted : Int := -67768040609740800

/-- Whole seconds and microseconds of a number of seconds. Microseconds are rounded, a half to the
even one. -/
def split (seconds : Float) : Except Fault (Int × Int) :=
  match Scaled.ofFloat? seconds with
  | none => .error (if seconds.isNaN then .timeNotANumber else .timeTooLarge)
  | some v =>
    let whole := v.truncate
    let part := Scaled.ofFloat? ((seconds - floatOfInt whole) * 1000000.0)
    let micros := (part.map Scaled.round).getD 0
    -- Rounding can fill a second up; before 1970 the part is negative and borrows one.
    let (whole, micros) :=
      if 1000000 ≤ micros then (whole + 1, micros - 1000000)
      else if micros < 0 then (whole - 1, micros + 1000000)
      else (whole, micros)
    if Int64.minValue.toInt ≤ whole ∧ whole ≤ Int64.maxValue.toInt then .ok (whole, micros)
    else .error .timeTooLarge

/-- The year, month and day of a day counted from 1970-01-01. -/
def civil (day : Int) : Int × Nat × Nat :=
  let z := day + 719468
  let era := Int.fdiv z 146097
  let doe := (z - era * 146097).toNat
  let yoe := (doe - doe / 1460 + doe / 36524 - doe / 146096) / 365
  let doy := doe - (365 * yoe + yoe / 4 - yoe / 100)
  let mp := (5 * doy + 2) / 153
  let month := if mp < 10 then mp + 3 else mp - 9
  let year : Int := yoe + era * 400 + (if month ≤ 2 then 1 else 0)
  (year, month, doy - (153 * mp + 2) / 5 + 1)

def padded (width n : Nat) : String :=
  let digits := Nat.toDigits 10 n
  String.ofList (List.replicate (width - digits.length) '0' ++ digits)

def ofMillis (reading : Float) : Except Fault String := do
  let (seconds, micros) ← split (reading / 1000.0)
  if seconds < firstCounted ∨ lastCounted < seconds then throw .timeUnrepresentable
  let day := Int.fdiv seconds 86400
  let second := (seconds - day * 86400).toNat
  let (year, month, date) := civil day
  if year < 1 ∨ 9999 < year then throw (.yearOutOfRange year)
  let fraction := if micros = 0 then "" else "." ++ padded 6 micros.toNat
  return padded 4 year.toNat ++ "-" ++ padded 2 month ++ "-" ++ padded 2 date ++ "T" ++
    padded 2 (second / 3600) ++ ":" ++ padded 2 (second / 60 % 60) ++ ":" ++
    padded 2 (second % 60) ++ fraction ++ "+00:00"

end Gameroom.Timestamp
