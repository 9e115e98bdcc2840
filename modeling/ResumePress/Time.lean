/-!
Lengths and points of time in whole nanoseconds. A point of time is counted from the start of
1970. The time from a later point to an earlier one is zero, so a thing from the future has no age.
-/

namespace ResumePress

/-- A length of time in nanoseconds. -/
abbrev Duration := Nat

/-- A point of time in nanoseconds since the start of 1970. -/
abbrev Instant := Nat

namespace Duration

/-- A length given in milliseconds. -/
def ofMillis (n : Nat) : Duration := n * 1000000

/-- A length given in seconds. -/
def ofSecs (n : Nat) : Duration := n * 1000000000

/-- The whole milliseconds of a length. -/
def millis (d : Duration) : Nat := d / 1000000

/-- A number with `places` decimal places, without trailing zeros and without an empty fraction. -/
def decimal (places n : Nat) : List Char :=
  let digits := Nat.toDigits 10 n
  let padded := List.replicate (places + 1 - digits.length) '0' ++ digits
  let whole := padded.take (padded.length - places)
  let fraction := ((padded.drop whole.length).reverse.dropWhile (· == '0')).reverse
  whole ++ if fraction.isEmpty then [] else '.' :: fraction

/-- The length in the largest unit that makes it at least one. -/
def text (d : Duration) : String :=
  if 1000000000 ≤ d then String.ofList (decimal 9 d) ++ "s"
  else if 1000000 ≤ d then String.ofList (decimal 6 d) ++ "ms"
  else if 1000 ≤ d then String.ofList (decimal 3 d) ++ "µs"
  else toString d ++ "ns"

example : text (ofMillis 120500) = "120.5s" ∧ text (ofMillis 200) = "200ms" ∧ text 0 = "0ns" := by
  decide +kernel

end Duration

namespace Instant

/-- The time from `earlier` to `later`, zero if `later` comes first. -/
def since (later earlier : Instant) : Duration := later - earlier

end Instant

end ResumePress
