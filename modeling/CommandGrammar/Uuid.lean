import CommandGrammar.Numeral

/-!
# Universally unique identifiers

A number of 128 bits. It is read from 32 hexadecimal digits, plain or in the five hyphenated
groups, the latter also in braces or after `urn:uuid:`; it is written in groups.
-/

namespace CommandGrammar

/-- An identifier of 128 bits. -/
structure Uuid where
  bits : BitVec 128
  deriving DecidableEq, Repr

namespace Uuid

/-- The identifier of 32 hexadecimal digits. -/
def ofDigits? (cs : List Char) : Option Uuid :=
  if cs.length = 32 then (Numeral.natural 16 cs).map fun n => ⟨BitVec.ofNat 128 n⟩ else none

/-- The identifier of five groups of 8, 4, 4, 4 and 12 digits joined by hyphens. -/
def ofGroups? (cs : List Char) : Option Uuid :=
  if cs.length = 36 && cs[8]? == some '-' && cs[13]? == some '-' && cs[18]? == some '-' &&
      cs[23]? == some '-' then
    ofDigits? (cs.filter (· != '-'))
  else none

/-- The identifier a text stands for. -/
def ofString? (s : String) : Option Uuid :=
  let cs := s.toList
  if cs.length = 32 then ofDigits? cs
  else if cs.length = 36 then ofGroups? cs
  else if cs.length = 38 && cs.head? == some '{' && cs.getLast? == some '}' then
    ofGroups? (cs.drop 1).dropLast
  else if "urn:uuid:".toList.isPrefixOf cs then ofGroups? (cs.drop 9)
  else none

/-- A number as hexadecimal digits, `width` of them. -/
def hex (width n : Nat) : String :=
  let ds := Nat.toDigits 16 n
  String.ofList (List.replicate (width - ds.length) '0' ++ ds)

/-- The text of an identifier: small hexadecimal digits in five groups. -/
def text (u : Uuid) : String :=
  let n := u.bits.toNat
  String.intercalate "-"
    [hex 8 (n / Nat.pow 2 96), hex 4 (n / Nat.pow 2 80 % Nat.pow 2 16), hex 4 (n / Nat.pow 2 64 % Nat.pow 2 16),
      hex 4 (n / Nat.pow 2 48 % Nat.pow 2 16), hex 12 (n % Nat.pow 2 48)]

end Uuid

end CommandGrammar
