import CommandGrammar.IpAddress
import CommandGrammar.Text.Blank
import CommandGrammar.Text.Case
import CommandGrammar.Text.Ranges
import CommandGrammar.Text.Split
import CommandGrammar.Url.Percent
import CommandGrammar.Url.Punycode

/-!
# Hosts of addresses

A host of a well-known scheme is a domain name or a number; other schemes have any text there. A
domain is written in small ASCII letters, and one whose last label is a number is an address of
four octets, in any of the forms numbers have had.
-/

namespace CommandGrammar.Host

/-- Characters that no host may hold. -/
def forbidden (c : Char) : Bool :=
  c.toNat == 0 ||
    ['\t', '\n', '\r', ' ', '#', '/', ':', '<', '>', '?', '@', '[', '\\', ']', '^', '|'].contains c

def forbiddenInDomain (c : Char) : Bool :=
  forbidden c || c.toNat < 0x20 || c == '%' || c.toNat == 0x7f

/-- An address of eight groups between brackets, in its shortest form. -/
def bracketed (cs : List Char) : Option String :=
  if cs.getLast? = some ']' then
    match IpAddress.readV6 cs.dropLast with
    | some (n, []) => some ("[" ++ IpAddress.groupsText n ++ "]")
    | _ => none
  else none

/-- A number with the marks of radix 16 and 8. -/
def readNumber (cs : List Char) : Option Nat :=
  match cs with
  | [] => none
  | '0' :: 'x' :: [] => some 0
  | '0' :: 'x' :: rest => Numeral.natural 16 rest
  | '0' :: c :: rest => Numeral.natural 8 (c :: rest)
  | _ => Numeral.natural 10 cs

/-- The labels of a domain without an empty last one. -/
def labels (domain : List Char) : List (List Char) :=
  let ls := Text.pieces '.' domain
  if 1 < ls.length && ls.getLast? == some [] then ls.dropLast else ls

/-- Whether the last label is a number. -/
def endsInNumber (domain : List Char) : Bool :=
  match (labels domain).getLast? with
  | none => false
  | some l =>
    (!l.isEmpty && l.all Char.isDigit) || ((l.take 2 == ['0', 'x']) && (readNumber l).isSome)

/-- The address of up to four numbers: all but the last are octets, the last fills the rest. -/
def readOctets (domain : List Char) : Option Nat := do
  let ns ← (labels domain).mapM readNumber
  if 4 < ns.length then none
  let last ← ns.getLast?
  let high := ns.dropLast
  if high.any (255 < ·) || Nat.pow 256 (5 - ns.length) ≤ last then none
  else
    let octets := (List.range high.length).foldl
      (fun sum i => sum + high.getD i 0 * Nat.pow 256 (3 - i)) 0
    return octets + last

/-- Characters that a domain may be written with and that are left out of it: marks for breaks,
joins and variants. -/
def silent (c : Char) : Bool :=
  [0xad, 0x34f, 0x200b, 0x2060, 0x2064, 0xfeff].contains c.toNat ||
    (0x180b ≤ c.toNat && c.toNat ≤ 0x180d) || (0xfe00 ≤ c.toNat && c.toNat ≤ 0xfe0f)

/-- The form a character has in domains: full width forms and ideographic stops stand for ASCII
characters, all blanks for one, and letters are small. -/
def plainForm (c : Char) : List Char :=
  let n := c.toNat
  if silent c then []
  else if n = 0x3002 || n = 0xff61 then ['.']
  else if Text.isBlank c then [' ']
  else if 0xff01 ≤ n && n ≤ 0xff5e then Text.lowerChar (Char.ofNat (n - 0xfee0))
  else Text.lowerChar c

def beyond (c : Char) : Bool := 0x80 ≤ c.toNat

/-- Characters beyond ASCII that no label may hold: controls, marks for the direction of writing,
and those without a meaning of their own. -/
def unwritable : Text.Ranges := ⟨[
  (0x80, 0x9f), (0x200e, 0x200f), (0x202a, 0x202e), (0x2061, 0x2063), (0x2065, 0x206f),
  (0xe000, 0xf8ff), (0xfdd0, 0xfdef), (0xfff9, 0xffff), (0xe0000, 0xe00ff), (0xf0000, 0x10ffff)]⟩

/-- The mark of labels that stand for others. -/
def mark : List Char := "xn--".toList

/-- Whether an ASCII label with the mark stands for a label beyond ASCII, written as it should
be. -/
def standsForLabel (l : List Char) : Bool :=
  match Punycode.decode (l.drop mark.length) with
  | some cs =>
    cs.any beyond && !cs.any unwritable.contains && cs.flatMap plainForm == cs &&
      mark ++ Punycode.encode cs == l
  | none => false

def asciiLabel (l : List Char) : Option (List Char) :=
  if l.any unwritable.contains then none
  else if mark.isPrefixOf l then if standsForLabel l then some l else none
  else if l.any beyond then some (mark ++ Punycode.encode l)
  else some l

/-- The written form of a domain. -/
def domainText (cs : List Char) : Option (List Char) := do
  let ascii ← (Text.pieces '.' (cs.flatMap plainForm)).mapM asciiLabel
  let domain := ['.'].intercalate ascii
  if domain.any forbiddenInDomain then none else some domain

/-- The host of a well-known scheme. -/
def special (cs : List Char) : Option String :=
  match cs with
  | '[' :: rest => bracketed rest
  | _ => do
    let domain ← domainText (← Percent.ofBytes? (Percent.decode cs))
    if domain.isEmpty then none
    else if endsInNumber domain then return IpAddress.octetsText (← readOctets domain)
    else return String.ofList domain

/-- The host of any other scheme. -/
def general (cs : List Char) : Option String :=
  match cs with
  | '[' :: rest => bracketed rest
  | _ =>
    if cs.any forbidden then none else some (String.ofList (Percent.encode Percent.controls cs))

end CommandGrammar.Host
