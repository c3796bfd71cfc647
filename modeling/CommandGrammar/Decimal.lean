import CommandGrammar.Numeral

/-!
# Decimal numbers of any size

A decimal is an integer and the number of its digits behind the point, so `1.50` and `1.5` are
written differently and are equal as numbers. Text is positional unless the zeros needed for it
are too many.
-/

namespace CommandGrammar

/-- The number `digits / 10 ^ scale`. -/
structure Decimal where
  digits : Int
  scale : Int
  deriving DecidableEq, Repr

namespace Decimal

/-- How decimals are written: how many zeros may stand between the point and the first digit, and
how many after the last digit of an integer, before the exponent form is used; the marks of the
exponent in the two forms. -/
structure Format where
  leadingZeros : Nat
  trailingZeros : Nat
  fractionMark : String
  integerMark : String

/-- Up to five zeros lead and up to fifteen trail. -/
def format : Format := ⟨5, 15, "E", "e"⟩

/-- An exponent is a signed number of 128 bits. -/
def exponent (cs : List Char) : Option Int :=
  (Numeral.signed 10 cs).filter (Numeral.fits 128)

/-- The text before and after the first character that satisfies `p`, without it. -/
def cutAt (p : Char → Bool) (cs : List Char) : List Char × Option (List Char) :=
  match cs.span (fun c => !p c) with
  | (left, []) => (left, none)
  | (left, _ :: right) => (left, some right)

/-- Digits with an optional point and an optional exponent; the scale must fit 64 bits. -/
def ofChars? (cs : List Char) : Option Decimal := do
  let (base, tail) := cutAt (fun c => c == 'e' || c == 'E') cs
  let power ← match tail with
    | none => some 0
    | some t => exponent t
  if base.isEmpty then none
  let (lead, fraction) := cutAt (· == '.') base
  let trail := fraction.getD []
  let scale := ((trail.filter (· != '_')).length : Int) - power
  let digits ← Numeral.integer (lead ++ trail)
  if Numeral.fits 64 scale then some ⟨digits, scale⟩ else none

/-- The decimal a text stands for. -/
def ofString? (s : String) : Option Decimal :=
  ofChars? s.toList

/-- An exponent with its sign always written. -/
def signedText (n : Int) : String :=
  if n < 0 then toString n else "+" ++ toString n

/-- The digits of a number without sign, as text, with the format's exponent where the positional
form would need too many zeros. -/
def magnitudeText (f : Format) (n : Nat) (scale : Int) : String :=
  let digits := Nat.toDigits 10 n
  let count : Int := digits.length
  if n = 0 then "0"
  else if (f.leadingZeros : Int) < scale - count then
    let body := match digits with
      | d :: e :: rest => d :: '.' :: e :: rest
      | _ => digits
    String.ofList body ++ f.fractionMark ++ signedText (count - scale - 1)
  else if (f.trailingZeros : Int) < -scale then
    String.ofList digits ++ f.integerMark ++ signedText (-scale)
  else if scale ≤ 0 then
    String.ofList (digits ++ List.replicate (-scale).toNat '0')
  else if scale < count then
    let whole := (count - scale).toNat
    String.ofList (digits.take whole ++ '.' :: digits.drop whole)
  else
    String.ofList ('0' :: '.' :: List.replicate (scale - count).toNat '0' ++ digits)

def text (d : Decimal) : String :=
  (if d.digits < 0 then "-" else "") ++ magnitudeText format d.digits.natAbs d.scale

/-- Two decimals are the same number when their digits agree at the larger of their scales. The
scales of equal numbers other than zero differ by no more than the digits either has. -/
def sameNumber (a b : Decimal) : Bool :=
  if a.digits == 0 || b.digits == 0 then a.digits == 0 && b.digits == 0
  else
    let gap := (a.scale - b.scale).natAbs
    let (fine, coarse) := if a.scale ≤ b.scale then (b, a) else (a, b)
    gap < (Nat.toDigits 10 fine.digits.natAbs).length && fine.digits == coarse.digits * Int.pow 10 gap

end Decimal

end CommandGrammar
