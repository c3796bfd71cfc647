import CommandGrammar.Numeral

/-!
# Binary floating point numbers as decimal text

Reading rounds the exact quotient a text stands for to the nearest 64-bit number, the even one of
two. Writing gives the fewest digits that read back as the same number, without an exponent.
-/

namespace CommandGrammar.Binary64

/-- The quotient rounded to the nearest integer, a half to the even one. -/
def roundDiv (num den : Nat) : Nat :=
  let q := num / den
  let twice := 2 * (num % den)
  if den < twice || (twice == den && q % 2 == 1) then q + 1 else q

/-- The quotient `num / den / 2 ^ e` rounded to the nearest integer. -/
def roundScaled (num den : Nat) (e : Int) : Nat :=
  if 0 ≤ e then roundDiv num (den * Nat.pow 2 e.toNat) else roundDiv (num * Nat.pow 2 (-e).toNat) den

/-- The largest power of two, as exponent, not above a quotient. -/
def log2Div (num den : Nat) : Int :=
  let guess : Int := (num.log2 : Int) - den.log2
  let reached : Bool :=
    if 0 ≤ guess then den * Nat.pow 2 guess.toNat ≤ num else den ≤ num * Nat.pow 2 (-guess).toNat
  if reached then guess else guess - 1

/-- The bits of the number nearest to a positive quotient. Numbers of 53 significant bits are
spaced by a power of two that is never below the smallest positive number. -/
def nearestBits (num den : Nat) : Nat :=
  if num = 0 then 0
  else
    let e : Int := max (log2Div num den - 52) (-1074)
    let m := roundScaled num den e
    if m < Nat.pow 2 52 then m
    else
      let bits := (e + 1074).toNat * Nat.pow 2 52 + m
      if 2047 * Nat.pow 2 52 ≤ bits then 2047 * Nat.pow 2 52 else bits

/-- The bits of the number nearest to `m * 10 ^ e`. Beyond three hundred and some places the answer
is infinity or zero whatever the digits are. -/
def decimalBits (m : Nat) (e : Int) : Nat :=
  let places : Int := (Nat.toDigits 10 m).length + e
  if m = 0 then 0
  else if 400 < places then 2047 * Nat.pow 2 52
  else if places < -400 then 0
  else if 0 ≤ e then nearestBits (m * Nat.pow 10 e.toNat) 1
  else nearestBits m (Nat.pow 10 (-e).toNat)

/-- A string of digits, possibly empty. -/
def digits (cs : List Char) : Option Nat :=
  Numeral.digitsFrom 10 0 cs

/-- Digits around an optional point, with an optional exponent: at least one digit stands in the
number and in the exponent. -/
def magnitudeBits (cs : List Char) : Option Nat := do
  let (base, tail) := cs.span (fun c => c != 'e' && c != 'E')
  let power ← match tail with
    | [] => some 0
    | _ :: t => Numeral.signed 10 t
  let (whole, rest) := base.span (· != '.')
  let fraction := rest.drop 1
  if whole.isEmpty && fraction.isEmpty then none
  let m ← digits (whole ++ fraction)
  return decimalBits m (power - fraction.length)

/-- The number a text stands for: digits, or the words for infinity and for no number, in letters
of either case. -/
def ofChars? (cs : List Char) : Option Float := do
  let (negative, body) := match cs with
    | '-' :: rest => (true, rest)
    | '+' :: rest => (false, rest)
    | _ => (false, cs)
  let word := String.ofList (body.map Char.toLower)
  let bits ←
    if word == "inf" || word == "infinity" then some (2047 * Nat.pow 2 52)
    else if word == "nan" then some (2047 * Nat.pow 2 52 + Nat.pow 2 51)
    else magnitudeBits body
  return Float.ofBits (UInt64.ofNat (if negative then Nat.pow 2 63 + bits else bits))

/-- The number a text stands for. -/
def ofString? (s : String) : Option Float :=
  ofChars? s.toList

/-- The reals that round to a number, in quarters of its last place: from `value - below` to
`value + above`, ends included when the last place is even. All are to be multiplied by
`2 ^ (place - 2)`. -/
structure Neighbourhood where
  value : Nat
  below : Nat
  above : Nat
  closed : Bool
  place : Int

/-- The neighbourhood of the positive finite number with the given bits. Below a power of two the
spacing is halved. -/
def neighbourhood (bits : Nat) : Neighbourhood :=
  let exponent : Nat := bits / Nat.pow 2 52
  let fraction : Nat := bits % Nat.pow 2 52
  if exponent = 0 then ⟨4 * fraction, 2, 2, fraction % 2 == 0, -1074⟩
  else
    ⟨4 * (Nat.pow 2 52 + fraction), if fraction = 0 then 1 else 2, 2, fraction % 2 == 0,
      (exponent : Int) - 1075⟩

/-- Whether `c * unit`, in the neighbourhood's quarters, rounds to its number. -/
def Neighbourhood.holds (b : Neighbourhood) (scale unit c : Nat) : Bool :=
  let low := (b.value - b.below) * scale
  let high := (b.value + b.above) * scale
  if b.closed then low ≤ c * unit && c * unit ≤ high else low < c * unit && c * unit < high

/-- The number of digits before the point of the quotient `num / den`, negative when zeros follow
the point. -/
def digitsBeforePoint (num den : Nat) : Int :=
  if den ≤ num then ((Nat.toDigits 10 (num / den)).length : Int)
  else 1 - ((Nat.toDigits 10 ((den - 1) / num)).length : Int)

/-- The shortest digits of a neighbourhood's number among grids of `count`, `count + 1`, … digits:
of the two grid points around it the nearer one that rounds to it, the upper one of two equally
near. The answer is the digits and the power of ten of the last of them. -/
def shortestFrom (b : Neighbourhood) (top : Int) : (tries count : Nat) → Nat × Int
  | 0, _ => (0, 0)
  | tries + 1, count =>
    let k := top - count
    let scale := Nat.pow 2 (b.place - 2).toNat * Nat.pow 10 (-k).toNat
    let unit := Nat.pow 2 (2 - b.place).toNat * Nat.pow 10 k.toNat
    let v := b.value * scale
    let c := v / unit
    let lower := b.holds scale unit c
    let upper := b.holds scale unit (c + 1)
    if lower && (!upper || 2 * (v - c * unit) < unit) then (c, k)
    else if upper then (c + 1, k)
    else shortestFrom b top tries (count + 1)

/-- The shortest digits of the positive finite number with the given bits; seventeen always
suffice. -/
def shortest (bits : Nat) : Nat × Int :=
  let b := neighbourhood bits
  let top := digitsBeforePoint (b.value * Nat.pow 2 (b.place - 2).toNat) (Nat.pow 2 (2 - b.place).toNat)
  shortestFrom b top 18 1

/-- Digits times a power of ten, written out. -/
def positional (m : Nat) (k : Int) : String :=
  let ds := Nat.toDigits 10 m
  if 0 ≤ k then String.ofList (ds ++ List.replicate k.toNat '0')
  else
    let behind := (-k).toNat
    let ds := List.replicate (behind + 1 - ds.length) '0' ++ ds
    let whole := ds.take (ds.length - behind)
    let fraction := ds.drop (ds.length - behind)
    let fraction := (fraction.reverse.dropWhile (· == '0')).reverse
    if fraction.isEmpty then String.ofList whole
    else String.ofList (whole ++ '.' :: fraction)

def bitsText (bits : Nat) : String :=
  let sign := if Nat.pow 2 63 ≤ bits then "-" else ""
  let bits := bits % Nat.pow 2 63
  if 2047 * Nat.pow 2 52 < bits then "NaN"
  else if bits = 2047 * Nat.pow 2 52 then sign ++ "inf"
  else if bits = 0 then sign ++ "0"
  else
    let (m, k) := shortest bits
    sign ++ positional m k

def text (x : Float) : String :=
  bitsText x.toBits.toNat

end CommandGrammar.Binary64
