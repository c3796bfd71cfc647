import CommandGrammar.Text.Printable

/-!
# Quoted text

Text between double quotes, with a backslash before what cannot stand there as it is: quotes,
backslashes, the common controls by their letters, and other characters that do not show by their
scalar value.
-/

namespace CommandGrammar.Text

/-- The characters that stand for one character inside quotes. -/
def quotedChar (c : Char) : List Char :=
  if c = '"' then ['\\', '"']
  else if c = '\\' then ['\\', '\\']
  else if c = '\t' then ['\\', 't']
  else if c = '\r' then ['\\', 'r']
  else if c = '\n' then ['\\', 'n']
  else if c.toNat = 0 then ['\\', '0']
  else if printable.contains c then [c]
  else '\\' :: 'u' :: '\x7b' :: Nat.toDigits 16 c.toNat ++ ['\x7d']

/-- The text between double quotes. -/
def quoted (s : String) : String :=
  String.ofList ('"' :: s.toList.flatMap quotedChar ++ ['"'])

end CommandGrammar.Text
