import CommandGrammar.Numeral
import CommandGrammar.Uuid

/-!
# Internet addresses

Addresses of 32 bits as four decimal octets, and of 128 bits as eight hexadecimal groups of which
one run of zeros may be left out. The longest run of at least two zeros is left out in writing.
-/

namespace CommandGrammar

/-- An address of four octets or of eight groups of 16 bits, the first one the highest. -/
inductive IpAddress where
  | v4 (octets : BitVec 32)
  | v6 (groups : BitVec 128)
  deriving DecidableEq, Repr

namespace IpAddress

/-- The leading digits of a text in a radix, and what follows them. -/
def spanDigits (radix : Nat) (cs : List Char) : List Char × List Char :=
  cs.span fun c => (Numeral.digit radix c).isSome

/-- A decimal octet: up to three digits, no leading zero, at most 255. -/
def readOctet (cs : List Char) : Option (Nat × List Char) := do
  let (ds, rest) := spanDigits 10 cs
  let n ← Numeral.natural 10 ds
  if ds.length ≤ 3 && (ds.length == 1 || ds.head? != some '0') && n ≤ 255 then some (n, rest)
  else none

/-- A hexadecimal group of up to four digits. -/
def readGroup (cs : List Char) : Option (Nat × List Char) := do
  let (ds, rest) := spanDigits 16 cs
  let n ← Numeral.natural 16 ds
  if ds.length ≤ 4 then some (n, rest) else none

/-- The text after a character that must stand at its start. -/
def expect (sep : Char) : List Char → Option (List Char)
  | [] => none
  | c :: rest => if c = sep then some rest else none

/-- Four octets separated by points, as one number. -/
def readV4 (cs : List Char) : Option (Nat × List Char) := do
  let (a, cs) ← readOctet cs
  let (b, cs) ← readOctet (← expect '.' cs)
  let (c, cs) ← readOctet (← expect '.' cs)
  let (d, cs) ← readOctet (← expect '.' cs)
  return (((a * 256 + b) * 256 + c) * 256 + d, cs)

/-- Up to `limit` groups separated by colons, the last two of which may be written as four octets:
the groups, whether octets ended them, and the rest of the text. -/
def readGroups : (limit : Nat) → (first : Bool) → List Char → List Nat × Bool × List Char
  | 0, _, cs => ([], false, cs)
  | limit + 1, first, cs =>
    match if first then some cs else expect ':' cs with
    | none => ([], false, cs)
    | some body =>
      match if limit = 0 then none else readV4 body with
      | some (n, rest) => ([n / Nat.pow 2 16, n % Nat.pow 2 16], true, rest)
      | none =>
        match readGroup body with
        | none => ([], false, cs)
        | some (g, rest) =>
          let (gs, octets, rest) := readGroups limit false rest
          (g :: gs, octets, rest)

/-- The number of groups of 16 bits, the first one the highest. -/
def joinGroups (gs : List Nat) : Nat :=
  gs.foldl (fun n g => n * Nat.pow 2 16 + g) 0

/-- Eight groups, or fewer around a double colon that stands for the missing zeros. -/
def readV6 (cs : List Char) : Option (Nat × List Char) := do
  let (head, octets, rest) := readGroups 8 true cs
  if head.length = 8 then return (joinGroups head, rest)
  if octets then none
  let rest ← expect ':' (← expect ':' rest)
  let (tail, _, rest) := readGroups (7 - head.length) true rest
  let zeros := List.replicate (8 - head.length - tail.length) 0
  return (joinGroups (head ++ zeros ++ tail), rest)

/-- The address a text stands for. -/
def ofString? (s : String) : Option IpAddress :=
  match readV4 s.toList with
  | some (n, []) => some (.v4 (BitVec.ofNat 32 n))
  | _ =>
    match readV6 s.toList with
    | some (n, []) => some (.v6 (BitVec.ofNat 128 n))
    | _ => none

/-- The four octets of an address, joined by points. -/
def octetsText (n : Nat) : String :=
  String.intercalate "."
    [toString (n / Nat.pow 2 24), toString (n / Nat.pow 2 16 % 256), toString (n / Nat.pow 2 8 % 256),
      toString (n % 256)]

/-- The eight groups of an address. -/
def groupsOf (n : Nat) : List Nat :=
  (List.range 8).map fun i => n / Nat.pow 2 (16 * (7 - i)) % Nat.pow 2 16

/-- The length of the run of zeros at the start of a list. -/
def zeroRun (gs : List Nat) : Nat :=
  (gs.takeWhile (· == 0)).length

/-- Where the first longest run of zeros starts, and its length. -/
def longestZeros (gs : List Nat) : Nat × Nat :=
  (List.range gs.length).foldl
    (fun best i =>
      let n := zeroRun (gs.drop i)
      if best.2 < n then (i, n) else best)
    (0, 0)

/-- Groups as hexadecimal digits joined by colons. -/
def hexGroups (gs : List Nat) : String :=
  String.intercalate ":" (gs.map fun g => Uuid.hex 1 g)

/-- The groups of an address with the longest run of at least two zeros left out. -/
def groupsText (n : Nat) : String :=
  let gs := groupsOf n
  let (start, length) := longestZeros gs
  if length < 2 then hexGroups gs
  else hexGroups (gs.take start) ++ "::" ++ hexGroups (gs.drop (start + length))

/-- The text of an address. An address that carries four octets after the mark for them shows
them as such. -/
def text : IpAddress → String
  | .v4 a => octetsText a.toNat
  | .v6 a =>
    let n := a.toNat
    if n / Nat.pow 2 32 = 0xffff then "::ffff:" ++ octetsText (n % Nat.pow 2 32) else groupsText n

end IpAddress

end CommandGrammar
