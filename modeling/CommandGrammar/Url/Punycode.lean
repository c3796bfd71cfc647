/-!
# Punycode

Labels beyond ASCII as ASCII text: the ASCII characters, then the others as differences of their
position and value, each a number with digits of a base that adapts. Reading takes the differences
back in the same order.
-/

namespace CommandGrammar.Punycode

/-- The numbers that fix the encoding. -/
def base : Nat := 36

/-- The digits of a value: letters, then the decimal digits. -/
def digit (n : Nat) : Char :=
  Char.ofNat (if n < 26 then 0x61 + n else 0x16 + n)

/-- The largest digit that ends a number at a place, for a bias. -/
def threshold (k bias : Nat) : Nat :=
  if k ≤ bias then 1 else if bias + 26 ≤ k then 26 else k - bias

/-- The number of times a difference is divided to fit the first places, and what is left. -/
def shrink : (fuel delta k : Nat) → Nat × Nat
  | 0, delta, k => (delta, k)
  | fuel + 1, delta, k => if 455 < delta then shrink fuel (delta / 35) (k + base) else (delta, k)

/-- The bias after a difference was written, `count` characters being done. -/
def adapt (delta count : Nat) (first : Bool) : Nat :=
  let delta := if first then delta / 700 else delta / 2
  let delta := delta + delta / count
  let (delta, k) := shrink delta delta 0
  k + 36 * delta / (delta + 38)

/-- The digits of a difference, from place `k` on. -/
def digits : (fuel q k bias : Nat) → List Char
  | 0, _, _, _ => []
  | fuel + 1, q, k, bias =>
    let t := threshold k bias
    if q < t then [digit q]
    else digit (t + (q - t) % (base - t)) :: digits fuel ((q - t) / (base - t)) (k + base) bias

/-- Where the encoding stands: difference so far, bias, and the number of characters done. -/
structure State where
  delta : Nat
  bias : Nat
  count : Nat

/-- One value written for each character that has it. -/
def encodeValue (value basics : Nat) (s : State) : List Nat → List Char × State
  | [] => ([], s)
  | c :: rest =>
    if c < value then encodeValue value basics { s with delta := s.delta + 1 } rest
    else if c = value then
      let out := digits (s.delta + 1) s.delta base s.bias
      let bias := adapt s.delta (s.count + 1) (s.count == basics)
      let (tail, s) := encodeValue value basics ⟨0, bias, s.count + 1⟩ rest
      (out ++ tail, s)
    else encodeValue value basics s rest

/-- The values beyond ASCII in rising order, each once, written one after the other; `last` is the
value after the one before. -/
def encodeValues (cs : List Nat) (basics : Nat) : (last : Nat) → State → List Nat → List Char
  | _, _, [] => []
  | last, s, value :: values =>
    let s := { s with delta := s.delta + (value - last) * (s.count + 1) }
    let (out, s) := encodeValue value basics s cs
    out ++ encodeValues cs basics (value + 1) { s with delta := s.delta + 1 } values

/-- The values of a list from 128 on, in rising order, each once. -/
def extended (cs : List Nat) : List Nat :=
  ((cs.filter (0x80 ≤ ·)).mergeSort (· ≤ ·)).eraseDups

/-- The ASCII form of a label. -/
def encode (label : List Char) : List Char :=
  let cs := label.map Char.toNat
  let plain := label.filter (·.toNat < 0x80)
  let n := plain.length
  plain ++ (if n = 0 then [] else ['-']) ++ encodeValues cs n 0x80 ⟨0, 72, n⟩ (extended cs)

def digitValue (c : Char) : Option Nat :=
  if 0x61 ≤ c.toNat && c.toNat ≤ 0x7a then some (c.toNat - 0x61)
  else if c.isDigit then some (c.toNat - 0x16)
  else none

theorem digitValue_digit (n : Nat) (h : n < 36) : digitValue (digit n) = some n := by
  have all : ∀ m ∈ List.range 36, digitValue (digit m) = some m := by decide
  exact all n (List.mem_range.mpr h)

/-- The difference whose digits come next, from place `k` on, and what follows it. -/
def readDifference (bias : Nat) : (k weight sum : Nat) → List Char → Option (Nat × List Char)
  | _, _, _, [] => none
  | k, weight, sum, c :: rest => do
    let d ← digitValue c
    let t := threshold k bias
    if d < t then return (sum + d * weight, rest)
    else readDifference bias (k + base) (weight * (base - t)) (sum + d * weight) rest

/-- Characters put into a label, one for each difference; no more than there are digits. -/
def insertAll : (fuel value place bias : Nat) → (label digits : List Char) → Option (List Char)
  | _, _, _, _, label, [] => some label
  | 0, _, _, _, _, _ :: _ => none
  | fuel + 1, value, place, bias, label, c :: rest => do
    let (delta, rest) ← readDifference bias base 1 0 (c :: rest)
    let count := label.length + 1
    let next := value + (place + delta) / count
    let spot := (place + delta) % count
    if next.isValidChar then
      insertAll fuel next (spot + 1) (adapt delta count (place == 0))
        (label.take spot ++ Char.ofNat next :: label.drop spot) rest
    else none

/-- The label that an ASCII form stands for. -/
def decode (ascii : List Char) : Option (List Char) :=
  let tail := (ascii.reverse.takeWhile (· != '-')).reverse
  let plain := (ascii.take (ascii.length - tail.length)).dropLast
  if plain.all (·.toNat < 0x80) then insertAll tail.length 0x80 0 72 plain tail else none

end CommandGrammar.Punycode
