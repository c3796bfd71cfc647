/-!
# Numerals

Signed numerals in a radix and the ranges of the word sizes they are stored in. A prefix `0x` or
`0b` selects hexadecimal or binary; the sign comes after the prefix.
-/

namespace CommandGrammar.Numeral

/-- The value of a digit: ten decimal digits, then letters of either case. -/
def digitValue (c : Char) : Option Nat :=
  if '0' ≤ c ∧ c ≤ '9' then some (c.toNat - '0'.toNat)
  else if 'a' ≤ c ∧ c ≤ 'z' then some (c.toNat - 'a'.toNat + 10)
  else if 'A' ≤ c ∧ c ≤ 'Z' then some (c.toNat - 'A'.toNat + 10)
  else none

/-- The value of a digit in a radix; a digit too large for it is none. -/
def digit (radix : Nat) (c : Char) : Option Nat :=
  (digitValue c).filter (· < radix)

/-- The value of the digits read so far followed by the given ones. -/
def digitsFrom (radix : Nat) : Nat → List Char → Option Nat
  | acc, [] => some acc
  | acc, c :: rest => (digit radix c).bind fun d => digitsFrom radix (acc * radix + d) rest

/-- A non-empty string of digits. -/
def natural (radix : Nat) : List Char → Option Nat
  | [] => none
  | c :: rest => digitsFrom radix 0 (c :: rest)

/-- An optional sign before a non-empty string of digits. -/
def signed (radix : Nat) : List Char → Option Int
  | '-' :: rest => (natural radix rest).map fun n => -(n : Int)
  | '+' :: rest => (natural radix rest).map fun n => (n : Int)
  | cs => (natural radix cs).map fun n => (n : Int)

/-- A signed numeral whose radix is chosen by a prefix. -/
def prefixed : List Char → Option Int
  | '0' :: 'x' :: rest => signed 16 rest
  | '0' :: 'b' :: rest => signed 2 rest
  | cs => signed 10 cs

/-- A number that fits a signed word of so many bits. -/
def fits (bits : Nat) (n : Int) : Bool :=
  -Int.pow 2 (bits - 1) ≤ n && n < Int.pow 2 (bits - 1)

/-- A prefixed numeral in the range of 32 bits. -/
def int32 (s : String) : Option Int32 :=
  ((prefixed s.toList).filter (fits 32)).map Int32.ofInt

/-- A prefixed numeral in the range of 64 bits. -/
def int64 (s : String) : Option Int64 :=
  ((prefixed s.toList).filter (fits 64)).map Int64.ofInt

/-- The decimal digits of a number, at least `width` of them. -/
def padded (width n : Nat) : String :=
  let digits := Nat.toDigits 10 n
  String.ofList (List.replicate (width - digits.length) '0' ++ digits)

/-- Digits that may be grouped by underscores after the first of them, with an optional plus
sign. -/
def grouped (cs : List Char) : Option Nat :=
  let digits := match cs with
    | '+' :: '+' :: _ => cs
    | '+' :: rest => rest
    | _ => cs
  match digits with
  | [] => none
  | '_' :: _ => none
  | _ => digitsFrom 10 0 (digits.filter (· != '_'))

/-- An integer of any size, its digits grouped as one likes. -/
def integer (cs : List Char) : Option Int :=
  match cs with
  | '-' :: '+' :: _ => none
  | '-' :: rest => (grouped rest).map fun n => -(n : Int)
  | _ => (grouped cs).map fun n => (n : Int)

theorem digitsFrom_append (radix acc : Nat) (left right : List Char) :
    digitsFrom radix acc (left ++ right) =
      (digitsFrom radix acc left).bind fun n => digitsFrom radix n right := by
  induction left generalizing acc with
  | nil => rfl
  | cons c rest ih =>
    simp only [List.cons_append, digitsFrom]
    cases digit radix c with
    | none => rfl
    | some d => exact ih _

end CommandGrammar.Numeral
