import CommandGrammar.Error
import CommandGrammar.Text.Blank
import CommandGrammar.Text.Split

/-!
# Tokens

A line is cut into tokens that know where they stand in it. Quoted words end at their quote, bare
words at a blank, and a backslash takes the next character as it is. A line that ends inside a quote
or after a backslash is refused, unless it is still being typed.
-/

namespace CommandGrammar

/-- A word of a line and the places, counted in characters, where it starts and stops. -/
structure Token where
  value : String
  start : Nat
  stop : Nat
  deriving DecidableEq, Repr

/-- How words are quoted: whether quotes are known at all, whether an unfinished word is taken as it
is, and whether blanks at the end of a line are passed over. -/
structure Quoting where
  quotes : Bool := true
  lenient : Bool := false
  trim : Bool := false
  deriving DecidableEq, Repr

/-- How a line is cut: into words with quotes and escapes, at spaces, or not at all. -/
inductive Tokenizer where
  | words (q : Quoting)
  | spaces
  | whole
  deriving DecidableEq, Repr

namespace Tokenizer

instance : Inhabited Tokenizer := ⟨.words {}⟩

/-- Where a reader of words stands: between words, after blanks or not; in a bare word, perhaps
after a backslash; in a quoted word, perhaps after a backslash. A word knows its start and its
characters so far, the last one first. -/
inductive Place where
  | between (blank : Bool)
  | bare (start : Nat) (word : List Char)
  | bareEscape (start : Nat) (word : List Char)
  | quoted (quote : Char) (start : Nat) (word : List Char)
  | quotedEscape (quote : Char) (start : Nat) (word : List Char)
  deriving DecidableEq, Repr

/-- How a line ends: between words, after blanks or not; inside a quote; after a backslash. -/
inductive Ending where
  | settled (blank : Bool)
  | openQuote
  | dangling
  deriving DecidableEq, Repr

/-- A word whose characters are given last one first. -/
def word (reversed : List Char) (start stop : Nat) : Token :=
  ⟨String.ofList reversed.reverse, start, stop⟩

def startWord (quotes : Bool) (pos : Nat) (c : Char) : Place :=
  if quotes && (c == '"' || c == '\'') then .quoted c pos []
  else if c = '\\' then .bareEscape pos []
  else .bare pos [c]

/-- One character read: the word it ends, if any, and the place after it. -/
def step (quotes : Bool) (pos : Nat) (c : Char) : Place → Option Token × Place
  | .between _ =>
    if Text.isBlank c then (none, .between true) else (none, startWord quotes pos c)
  | .bare start w =>
    if Text.isBlank c then (some (word w start pos), .between true)
    else if c = '\\' then (none, .bareEscape start w)
    else (none, .bare start (c :: w))
  | .bareEscape start w => (none, .bare start (c :: w))
  | .quoted q start w =>
    if c = q then (some (word w start (pos + 1)), .between false)
    else if c = '\\' then (none, .quotedEscape q start w)
    else (none, .quoted q start (c :: w))
  | .quotedEscape q start w => (none, .quoted q start (c :: w))

/-- The word that the end of a line ends, and how the line ends. -/
def finish (pos : Nat) : Place → Option Token × Ending
  | .between blank => (none, .settled blank)
  | .bare start w => (some (word w start pos), .settled false)
  | .bareEscape start w => (some (word w start pos), .dangling)
  | .quoted _ start w => (some (word w start pos), .openQuote)
  | .quotedEscape _ start w => (some (word w start pos), .dangling)

/-- The words of the rest of a line, read from a place in it, and how the line ends. -/
def scan (quotes : Bool) : Place → (pos : Nat) → List Char → List Token × Ending
  | place, pos, [] =>
    let (token, ending) := finish pos place
    (token.toList, ending)
  | place, pos, c :: rest =>
    let (token, place) := step quotes pos c place
    let (tokens, ending) := scan quotes place (pos + 1) rest
    (token.toList ++ tokens, ending)

/-- An error at the last character of a line. -/
def atEnd (message line : String) : ParseError :=
  ⟨message, line, line.length - 1, none⟩

/-- The words of a line. Blanks at its end stand for an empty word, unless they are passed over. -/
def words? (q : Quoting) (lenient : Bool) (line : String) : Except ParseError (List Token) :=
  let (tokens, ending) := scan q.quotes (.between false) 0 line.toList
  let length := line.length
  match ending with
  | .settled blank =>
    .ok (if blank && !q.trim then tokens ++ [⟨"", length, length⟩] else tokens)
  | .openQuote =>
    if lenient || q.lenient then .ok tokens
    else .error (atEnd "Unterminated quoted string found" line)
  | .dangling =>
    if lenient || q.lenient then .ok tokens
    else .error (atEnd "Buffer overrun while parsing args" line)

/-- The pieces that stand one after the other with a space between them; only the last one may be
empty. -/
def pieceTokens : (pos : Nat) → List (List Char) → List Token
  | _, [] => []
  | pos, [p] => [⟨String.ofList p, pos, pos + p.length⟩]
  | pos, p :: rest =>
    let tail := pieceTokens (pos + p.length + 1) rest
    if p.isEmpty then tail else ⟨String.ofList p, pos, pos + p.length⟩ :: tail

/-- The words between spaces; a line of nothing else has none. -/
def spaced (line : String) : List Token :=
  if line.toList.all (· == ' ') then [] else pieceTokens 0 (Text.pieces ' ' line.toList)

/-- The tokens of a line. A `lenient` reader takes a line that is still being typed. -/
def tokenize (t : Tokenizer) (lenient : Bool) (line : String) : Except ParseError (List Token) :=
  match t with
  | .words q => words? q lenient line
  | .spaces => .ok (spaced line)
  | .whole => .ok [⟨line, 0, line.length⟩]

end Tokenizer

end CommandGrammar
