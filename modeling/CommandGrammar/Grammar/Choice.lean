import CommandGrammar.Grammar.Parser
import CommandGrammar.Pattern.Reader
import CommandGrammar.Text.Case

/-!
# Choices

Arguments that name one or more of a set of candidates, and phrases that must be written as they
are. Candidates are listed once and for all, or computed for each source.
-/

namespace CommandGrammar

/-- Names and the values they stand for. The names of a fixed list differ. -/
inductive Provider where
  | fixed (entries : List (String × Value))
  | computed (names : Source → List String) (value : String → Option Value)

namespace Provider

/-- A fixed list; of entries with one name the first counts. -/
def ofList (entries : List (String × Value)) : Provider :=
  .fixed (entries.foldl
    (fun seen e => if seen.any (·.1 == e.1) then seen else seen ++ [e]) [])

def names (p : Provider) (source : Source) : List String :=
  match p with
  | .fixed entries => entries.map (·.1)
  | .computed names _ => names source

/-- The value of a name, which must be written exactly. -/
def value (p : Provider) (name : String) : Option Value :=
  match p with
  | .fixed entries => entries.lookup name
  | .computed _ value => value name

/-- The value of the first name that is the same but for case. -/
def valueIgnoringCase (p : Provider) (source : Source) (name : String) : Option Value :=
  ((p.names source).find? fun n => Text.sameIgnoringCase n name).bind p.value

end Provider

/-- An argument that is one name of a provider. -/
structure Choice where
  provider : Provider
  caseSensitive : Bool
  /-- Whether the usage lists the names; if left open, it does for a few of them. -/
  inUsage : Option Bool := none

namespace Choice

/-- The largest number of names that a usage lists by itself. -/
def usageCutoff : Nat := 5

def lookup (c : Choice) (source : Source) (name : String) : Option Value :=
  if c.caseSensitive then c.provider.value name else c.provider.valueIgnoringCase source name

def parser (key : String) (c : Choice) : Parser where
  key := some key
  parse env := do
    let name ← Reading.next
    match c.lookup env.source name with
    | some v => Reading.store key v
    | none =>
      Reading.reject ("Argument was not a valid choice. Valid choices: [" ++
        String.intercalate ", " (c.provider.names env.source) ++ "]")
  complete env s := .ofList (offersFor (c.provider.names env.source) s.cursor)
  usage source :=
    let names := c.provider.names source
    let listed := c.inUsage.getD (names.length ≤ usageCutoff)
    "<" ++ (if listed then String.intercalate "|" names else key) ++ ">"

end Choice

/-- An argument that is a pattern for the names of a provider: the start of a name, or a regular
expression for it. -/
structure Selection where
  provider : Provider
  regex : Bool

namespace Selection

/-- Which names a text selects, unless it is not well formed. -/
def matcher? (s : Selection) (text : String) : Option (String → Bool) :=
  if s.regex then
    (Pattern.ofString? { anyCase := true } ("^(?:" ++ text ++ ")")).map fun p => p.matchesIn
  else some fun name => Text.startsWithIgnoringCase name text

def storeAll (key : String) : List Value → Reading Unit
  | [] => pure ()
  | v :: vs => do
    Reading.store key v
    storeAll key vs

/-- The argument under a key. The first name that is the text but for case is taken alone; else all
that are selected and have a value. -/
def parser (key : String) (s : Selection) : Parser where
  key := some key
  parse env := do
    let text ← Reading.next
    match s.provider.valueIgnoringCase env.source text with
    | some v => Reading.store key v
    | none =>
      match s.matcher? text with
      | none => Reading.reject ("Invalid pattern '" ++ text ++ "'")
      | some selects =>
        match ((s.provider.names env.source).filter selects).filterMap s.provider.value with
        | [] =>
          Reading.reject ("No values matching pattern '" ++ text ++ "' present for " ++ key ++ "!")
        | vs => storeAll key vs
  complete env st :=
    let names := s.provider.names env.source
    match st.cursor.peek? with
    | none => .ofList names
    | some text =>
      match s.matcher? text with
      | some selects => .ofList (names.filter selects)
      | none => .none
  usage _ := "<" ++ key ++ ">"

end Selection

/-- Words that must be written, and the value that tells they were. -/
structure Phrase where
  words : List String
  value : Value

namespace Phrase

def readWords : List String → Reading Unit
  | [] => pure ()
  | expected :: rest => do
    let word ← Reading.next
    if Text.sameIgnoringCase word expected then readWords rest
    else
      Reading.reject
        ("Argument " ++ word ++ " did not match expected next argument " ++ expected)

/-- The expected word that the last token begins, if the tokens before it are as expected. The last
token is passed when it begins something else. -/
def offers : List String → Cursor → List String
  | [], _ => []
  | expected :: rest, c =>
    match c.next? with
    | none => []
    | some (word, c) =>
      if c.hasNext then if Text.sameIgnoringCase word expected then offers rest c else []
      else if Text.startsWithIgnoringCase expected word then [expected]
      else offers rest c

/-- The phrase; its value is stored when it has a key. -/
def parser (key : Option String) (p : Phrase) : Parser where
  key := key
  parse _ := do
    readWords p.words
    match key with
    | some key => Reading.store key p.value
    | none => pure ()
  complete _ s := .ofList (offers p.words s.cursor)
  usage _ := String.intercalate " " p.words

end Phrase

end CommandGrammar
