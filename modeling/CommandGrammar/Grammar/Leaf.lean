import CommandGrammar.Duration.Iso
import CommandGrammar.Grammar.Parser
import CommandGrammar.Url.Reader

/-!
# Typed arguments

Arguments that read one token as one value of a kind, or all tokens that are left as text.
-/

namespace CommandGrammar

/-- What an argument reads. -/
inductive Leaf where
  | string
  | integer
  | long
  | double
  | bigInteger
  | bigDecimal
  | uuid
  | url
  | ip
  /-- A date-time; the current time for one that is missing or cannot be read, if so wished. -/
  | dateTime (orNow : Bool)
  | duration
  /-- No token at all: it stores that it was there. -/
  | markTrue
  /-- All tokens that are left: as they stand in the line, or joined by spaces. -/
  | remaining (raw : Bool)
  deriving DecidableEq, Repr

namespace Leaf

/-- The kinds of arguments by name. -/
def named : List (String × Leaf) := [
  ("string", .string), ("integer", .integer), ("long", .long), ("double", .double),
  ("big_integer", .bigInteger), ("big_decimal", .bigDecimal), ("uuid", .uuid), ("url", .url),
  ("ip", .ip), ("date_time", .dateTime false), ("date_time_or_now", .dateTime true),
  ("duration", .duration), ("mark_true", .markTrue), ("remaining", .remaining false),
  ("remaining_raw", .remaining true)]

/-- The kind of argument with a name. -/
def ofName? (name : String) : Option Leaf :=
  named.lookup name

/-- A value, or a message about the text that is none. -/
def orMessage {α : Type} (make : α → Value) (message : String) : Option α → Except String Value
  | some a => .ok (make a)
  | none => .error message

def readToken (today : Date) (leaf : Leaf) (text : String) : Except String Value :=
  match leaf with
  | .integer =>
    orMessage .int ("Expected an integer, but input '" ++ text ++ "' was not") (Numeral.int32 text)
  | .long =>
    orMessage .long ("Expected a long, but input '" ++ text ++ "' was not") (Numeral.int64 text)
  | .double =>
    orMessage .double ("Expected a number, but input '" ++ text ++ "' was not")
      (Binary64.ofString? text)
  | .bigInteger =>
    orMessage .bigInt ("Expected an integer, but input '" ++ text ++ "' was not")
      (Numeral.integer text.toList)
  | .bigDecimal =>
    orMessage .bigDecimal ("Expected a number, but input '" ++ text ++ "' was not")
      (Decimal.ofString? text)
  | .uuid => orMessage .uuid ("Invalid UUID: " ++ text) (Uuid.ofString? text)
  | .url => orMessage .url ("Invalid URL: " ++ text) (Url.ofString? text)
  | .ip => orMessage .ip ("Invalid IP address: " ++ text) (IpAddress.ofString? text)
  | .dateTime _ =>
    orMessage .dateTime ("Invalid date-time: " ++ text) (DateTime.ofString? today text)
  | .duration => orMessage .duration ("Invalid duration: " ++ text) (Duration.ofString? text)
  | .string => .ok (.string text)
  | .markTrue => .ok (.bool true)
  | .remaining _ => .ok (.string text)

/-- The current time to the second. -/
def now (env : Env) : DateTime :=
  env.now.wholeSeconds

def readNext (leaf : Leaf) (env : Env) : Reading Value := do
  let text ← Reading.next
  match leaf.readToken env.now.date text with
  | .ok v => pure v
  | .error message => Reading.reject message

def readValue (leaf : Leaf) (env : Env) : Reading Value :=
  match leaf with
  | .markTrue => pure (.bool true)
  | .remaining raw => do
    let first ← Reading.next
    let cursor := (← get).cursor
    Reading.moveCursor Cursor.toEnd
    if raw then pure (.string cursor.rawFromCurrent)
    else pure (.string (String.intercalate " " (first :: cursor.remaining)))
  | .dateTime true =>
    (readNext leaf env).orElse fun s _ _ => .ok (.dateTime (now env)) s
  | _ => readNext leaf env

/-- How an argument is shown. -/
def usage (key : String) : Leaf → String
  | .markTrue => ""
  | .dateTime true => "[" ++ key ++ "]"
  | .remaining _ => "<" ++ key ++ "…>"
  | _ => "<" ++ key ++ ">"

/-- Only date-times have an offer, which is the current time. -/
def offers (leaf : Leaf) (env : Env) (c : Cursor) : List String :=
  match leaf with
  | .dateTime _ =>
    let time := (now env).clockText "T"
    if ((c.peek?).getD "").toList.isPrefixOf time.toList then [time] else []
  | _ => []

def parser (key : String) (leaf : Leaf) : Parser where
  key := some key
  parse env := do
    let v ← leaf.readValue env
    Reading.store key v
  complete env s := .ofList (leaf.offers env s.cursor)
  usage _ := leaf.usage key

end Leaf

end CommandGrammar
