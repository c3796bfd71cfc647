import CommandGrammar.Numeral

/-!
# Times of day

A time of day to the nanosecond. The second 60 is a leap second.
-/

namespace CommandGrammar

structure TimeOfDay where
  hour : Nat
  minute : Nat
  second : Nat
  nano : Nat
  hour_lt : hour < 24 := by decide
  minute_lt : minute < 60 := by decide
  second_le : second ≤ 60 := by decide
  nano_lt : nano < Nat.pow 10 9 := by decide
  deriving DecidableEq, Repr

namespace TimeOfDay

def midnight : TimeOfDay := ⟨0, 0, 0, 0, by decide, by decide, by decide, by decide⟩

/-- The time with the given parts, if they are in range. -/
def of? (hour minute second nano : Nat) : Option TimeOfDay :=
  if h : hour < 24 ∧ minute < 60 ∧ second ≤ 60 ∧ nano < Nat.pow 10 9 then
    some ⟨hour, minute, second, nano, h.1, h.2.1, h.2.2.1, h.2.2.2⟩
  else none

theorem of?_eq_some {t : TimeOfDay} : of? t.hour t.minute t.second t.nano = some t := by
  simp [of?, t.hour_lt, t.minute_lt, t.second_le, show t.nano < 1000000000 from t.nano_lt]

def wholeSeconds (t : TimeOfDay) : TimeOfDay :=
  { t with nano := 0, nano_lt := by decide }

/-- The nanoseconds since midnight. -/
def toNanos (t : TimeOfDay) : Nat :=
  ((t.hour * 60 + t.minute) * 60 + t.second) * Nat.pow 10 9 + t.nano

/-- The time so many nanoseconds after midnight. -/
def ofNanos? (n : Nat) : Option TimeOfDay :=
  let seconds := n / Nat.pow 10 9
  of? (seconds / 3600) (seconds / 60 % 60) (seconds % 60) (n % Nat.pow 10 9)

/-- A fraction of a second: none, or a point and three, six or nine digits. -/
def fractionText (nano : Nat) : String :=
  if nano = 0 then ""
  else if nano % Nat.pow 10 6 = 0 then "." ++ Numeral.padded 3 (nano / Nat.pow 10 6)
  else if nano % Nat.pow 10 3 = 0 then "." ++ Numeral.padded 6 (nano / Nat.pow 10 3)
  else "." ++ Numeral.padded 9 nano

/-- Hour, minute and second joined by colons. -/
def clockText (t : TimeOfDay) : String :=
  Numeral.padded 2 t.hour ++ ":" ++ Numeral.padded 2 t.minute ++ ":" ++ Numeral.padded 2 t.second

/-- Hour, minute, second and fraction. -/
def text (t : TimeOfDay) : String :=
  t.clockText ++ fractionText t.nano

end TimeOfDay

end CommandGrammar
