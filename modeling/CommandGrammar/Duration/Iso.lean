import CommandGrammar.Duration
import CommandGrammar.Text.Case

/-!
# Written durations

Durations are written as `P`, days, `T`, hours, minutes and seconds, each component a number and
its letter. The marks `P` and `T` may be left out: they are put back from the letters that occur.
Numbers carry their own signs and a sign may stand in front of the whole.
-/

namespace CommandGrammar.Duration

/-- A signed number as it is written; a minus sign before zero is kept. -/
structure Amount where
  negative : Bool
  size : Nat
  deriving DecidableEq, Repr

/-- The number an amount stands for. -/
def Amount.value (a : Amount) : Int :=
  if a.negative then -(a.size : Int) else a.size

/-- The components of a written duration. The fraction is in nanoseconds; `clock` tells whether
the mark `T` was there. -/
structure Components where
  negative : Bool
  days : Option Amount
  clock : Bool
  hours : Option Amount
  minutes : Option Amount
  seconds : Option Amount
  fraction : Nat
  deriving DecidableEq, Repr

/-- A sign in front, and what follows it. -/
def splitSign : List Char → Option Char × List Char
  | '-' :: rest => (some '-', rest)
  | '+' :: rest => (some '+', rest)
  | cs => (none, cs)

/-- Marks put back into a text without sign, in capitals. Without `T`, a text with days and other
letters has it after its days, and a text without days has it in front. -/
def restoreMarks (cs : List Char) : List Char :=
  let marked :=
    if cs.contains 'T' then cs
    else if cs.contains 'D' then
      if cs.any fun c => c == 'H' || c == 'M' || c == 'S' then
        cs.flatMap fun c => if c = 'D' then ['D', 'T'] else [c]
      else cs
    else match cs with
      | 'P' :: rest => 'P' :: 'T' :: rest
      | _ => 'T' :: cs
  match marked with
  | 'P' :: _ => marked
  | _ => 'P' :: marked

/-- A number with an optional sign, and what follows it. -/
def readAmount (cs : List Char) : Option (Amount × List Char) :=
  let (sign, body) := splitSign cs
  let ds := body.takeWhile Char.isDigit
  (Numeral.natural 10 ds).map fun n => (⟨sign == some '-', n⟩, body.drop ds.length)

/-- A number before its letter; anything else is left as it is. -/
def readComponent (letter : Char) (cs : List Char) : Option Amount × List Char :=
  match readAmount cs with
  | some (a, c :: rest) => if c = letter then (some a, rest) else (none, cs)
  | _ => (none, cs)

/-- Up to nine digits as a number of nanoseconds, and what follows them. -/
def readFraction (cs : List Char) : Option (Nat × List Char) :=
  let ds := cs.takeWhile Char.isDigit
  if ds.length ≤ 9 then
    (Numeral.digitsFrom 10 0 ds).map fun n => (n * Nat.pow 10 (9 - ds.length), cs.drop ds.length)
  else none

/-- Seconds with an optional fraction before the letter. -/
def readSeconds (cs : List Char) : Option Amount × Nat × List Char :=
  match readAmount cs with
  | some (a, 'S' :: rest) => (some a, 0, rest)
  | some (a, c :: rest) =>
    if c = '.' ∨ c = ',' then
      match readFraction rest with
      | some (n, 'S' :: rest) => (some a, n, rest)
      | _ => (none, 0, cs)
    else (none, 0, cs)
  | _ => (none, 0, cs)

/-- The components after the mark `T`, up to the end of the text. -/
def readClock (negative : Bool) (days : Option Amount) (cs : List Char) : Option Components :=
  let (hours, cs) := readComponent 'H' cs
  let (minutes, cs) := readComponent 'M' cs
  let (seconds, fraction, cs) := readSeconds cs
  if cs.isEmpty then some ⟨negative, days, true, hours, minutes, seconds, fraction⟩ else none

/-- The components of a text with both marks. -/
def readComponents (sign : Option Char) (cs : List Char) : Option Components :=
  match cs with
  | 'P' :: rest =>
    let negative := sign == some '-'
    match readComponent 'D' rest with
    | (days, 'T' :: rest) => readClock negative days rest
    | (days, []) => some ⟨negative, days, false, none, none, none, 0⟩
    | _ => none
  | _ => none

/-- Some component is there, and one follows the mark `T` if that is. -/
def Components.complete (c : Components) : Bool :=
  let timed := c.hours.isSome || c.minutes.isSome || c.seconds.isSome
  timed || (c.days.isSome && !c.clock)

/-- An intermediate result, which must fit 128 bits. -/
def wide (n : Int) : Option Int :=
  if Numeral.fits 128 n then some n else none

/-- A component in nanoseconds. -/
def scaled (a : Option Amount) (unit : Int) : Option Int :=
  match a with
  | none => some 0
  | some a => do wide ((← wide a.value) * unit)

/-- The nanoseconds of the components; the fraction follows the sign of the seconds as written. -/
def Components.total (c : Components) : Option Int := do
  let second : Int := Int.pow 10 9
  let total ← scaled c.days (86400 * second)
  let total ← wide (total + (← scaled c.hours (3600 * second)))
  let total ← wide (total + (← scaled c.minutes (60 * second)))
  let total ← wide (total + (← scaled c.seconds second))
  let behind := match c.seconds with
    | some a => a.negative
    | none => false
  let total ← wide (if behind then total - c.fraction else total + c.fraction)
  wide (if c.negative then -total else total)

/-- The duration a text stands for, with or without its marks, in letters of either case. -/
def ofString? (s : String) : Option Duration := do
  let (sign, body) := splitSign (Text.uppercase s).toList
  let c ← readComponents sign (restoreMarks body)
  if c.complete then ofNanos? (← c.total) else none

end CommandGrammar.Duration
