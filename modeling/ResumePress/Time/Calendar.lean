import ResumePress.Time

/-!
The calendar date and the time of day of a point of time, in universal time. Years are counted
from March, so that the leap day is the last of its year.
-/

namespace ResumePress

/-- A date of the calendar. -/
structure Date where
  year : Nat
  month : Nat
  day : Nat
deriving DecidableEq

namespace Date

/-- The date of a day counted from the start of 1970. -/
def ofDays (days : Nat) : Date :=
  let shifted := days + 719468
  let era := shifted / 146097
  let dayOfEra := shifted % 146097
  let yearOfEra := (dayOfEra - dayOfEra / 1460 + dayOfEra / 36524 - dayOfEra / 146096) / 365
  let dayOfYear := dayOfEra - (365 * yearOfEra + yearOfEra / 4 - yearOfEra / 100)
  let march := (5 * dayOfYear + 2) / 153
  let month := if march < 10 then march + 3 else march - 9
  { year := yearOfEra + era * 400 + if month ≤ 2 then 1 else 0
    month := month
    day := dayOfYear - (153 * march + 2) / 5 + 1 }

example : ofDays 0 = ⟨1970, 1, 1⟩ ∧ ofDays 19782 = ⟨2024, 2, 29⟩ ∧ ofDays 20454 = ⟨2026, 1, 1⟩ := by
  decide

end Date

namespace Instant

/-- A number in decimal with leading zeros up to `width` digits. -/
def digits (width n : Nat) : String :=
  let text := Nat.toDigits 10 n
  String.ofList (List.replicate (width - text.length) '0' ++ text)

/-- The whole seconds since the start of 1970. -/
def seconds (t : Instant) : Nat := t / 1000000000

/-- The date on which a point of time falls. -/
def date (t : Instant) : Date := Date.ofDays (t.seconds / 86400)

/-- Date and time of day without separators but for a `T`. -/
def compact (t : Instant) : String :=
  let d := t.date
  let s := t.seconds % 86400
  digits 4 d.year ++ digits 2 d.month ++ digits 2 d.day ++ "T" ++
    digits 2 (s / 3600) ++ digits 2 (s / 60 % 60) ++ digits 2 (s % 60)

/-- Date and time of day with separators, the fraction of the second, and the zone. -/
def zoned (t : Instant) : String :=
  let d := t.date
  let s := t.seconds % 86400
  digits 4 d.year ++ "-" ++ digits 2 d.month ++ "-" ++ digits 2 d.day ++ "T" ++
    digits 2 (s / 3600) ++ ":" ++ digits 2 (s / 60 % 60) ++ ":" ++ digits 2 (s % 60) ++ "." ++
    digits 9 (t % 1000000000) ++ "+00:00"

end Instant

end ResumePress
