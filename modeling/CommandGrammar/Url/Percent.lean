import CommandGrammar.Numeral

/-!
# Percent encoding

Characters that may not stand in a part of an address are written as the bytes of their UTF-8
form, each as a percent sign and two capital hexadecimal digits.
-/

namespace CommandGrammar.Percent

/-- A hexadecimal digit in capitals. -/
def hexDigit (n : Nat) : Char :=
  Char.ofNat (if n < 10 then 0x30 + n else 0x37 + n)

/-- The written form of a byte. -/
def encodeByte (b : UInt8) : List Char :=
  ['%', hexDigit (b.toNat / 16), hexDigit (b.toNat % 16)]

/-- A text with the characters of a set, and all beyond ASCII, encoded. -/
def encode (escaped : Char → Bool) (cs : List Char) : List Char :=
  cs.flatMap fun c =>
    if 0x80 ≤ c.toNat || escaped c then (String.utf8EncodeChar c).flatMap encodeByte else [c]

def controls (c : Char) : Bool :=
  c.toNat < 0x20 || c.toNat == 0x7f

def inFragment (c : Char) : Bool :=
  controls c || [' ', '"', '<', '>', '\x60'].contains c

def inPath (c : Char) : Bool :=
  inFragment c || ['#', '?', '\x7b', '\x7d'].contains c

def inUser (c : Char) : Bool :=
  inPath c || ['/', ':', ';', '=', '@', '[', '\\', ']', '^', '|'].contains c

/-- Characters encoded in a query; an apostrophe is one of them for the well-known schemes. -/
def inQuery (special : Bool) (c : Char) : Bool :=
  controls c || [' ', '"', '#', '<', '>'].contains c || (special && c == '\'')

/-- The bytes of a text with its encoded bytes decoded. A percent sign without two digits stands
for itself. -/
def decode : List Char → List UInt8
  | [] => []
  | '%' :: a :: b :: rest =>
    match Numeral.digit 16 a, Numeral.digit 16 b with
    | some x, some y => UInt8.ofNat (16 * x + y) :: decode rest
    | _, _ => 0x25 :: decode (a :: b :: rest)
  | c :: rest => String.utf8EncodeChar c ++ decode rest

/-- The text of well-formed UTF-8 bytes. -/
def ofBytes? (bs : List UInt8) : Option (List Char) :=
  (String.fromUTF8? ⟨bs.toArray⟩).map String.toList

end CommandGrammar.Percent
