import CommandGrammar.Numeral

/-!
# Durations

A signed number of nanoseconds whose size stays within `2 ^ 63 - 1` milliseconds. The text names
the seconds only.
-/

namespace CommandGrammar

/-- The largest number of nanoseconds in a duration. -/
def Duration.limit : Int := (Int.pow 2 63 - 1) * Int.pow 10 6

structure Duration where
  nanos : Int
  inRange : -Duration.limit ≤ nanos ∧ nanos ≤ Duration.limit := by decide
  deriving DecidableEq, Repr

namespace Duration

/-- No time at all. -/
def zero : Duration := ⟨0, by decide⟩

/-- So many nanoseconds, if that is in range. -/
def ofNanos? (n : Int) : Option Duration :=
  if h : -limit ≤ n ∧ n ≤ limit then some ⟨n, h⟩ else none

/-- So many seconds and less than a second of nanoseconds added to them. -/
def of? (seconds : Int) (nanos : Nat) : Option Duration :=
  if nanos < Nat.pow 10 9 then ofNanos? (seconds * Int.pow 10 9 + nanos) else none

/-- The whole seconds, towards zero. -/
def seconds (d : Duration) : Int :=
  d.nanos.tdiv (Int.pow 10 9)

/-- The nanoseconds beyond the whole seconds, with the sign of the duration. -/
def subsecond (d : Duration) : Int :=
  d.nanos.tmod (Int.pow 10 9)

/-- A fraction of a second: nothing, or a point and nine digits less the zeros at their end. -/
def fractionText (nano : Nat) : String :=
  if nano = 0 then ""
  else
    let ds := (Numeral.padded 9 nano).toList
    "." ++ String.ofList (ds.reverse.dropWhile (· == '0')).reverse

/-- Sign, mark and seconds; zero is written as no days. -/
def text (d : Duration) : String :=
  if d.nanos = 0 then "P0D"
  else
    (if d.nanos < 0 then "-" else "") ++ "PT" ++ toString (d.nanos.natAbs / Nat.pow 10 9) ++
      fractionText (d.nanos.natAbs % Nat.pow 10 9) ++ "S"

theorem ofNanos?_nanos (d : Duration) : ofNanos? d.nanos = some d := by
  simp [ofNanos?, d.inRange]

end Duration

end CommandGrammar
