/-!
# Errors

Why a command could not be read or run. A reading error knows its place in the input and points at
it with a caret; long input is cut down to a window around the place.

The place is a word of the machine, and the caret stands behind as many spaces as the place says. An
error that is read off a line points into that line, but one that is made by hand may point
anywhere: at a place that the window cannot be reckoned for, or behind more spaces than there is
memory for.
-/

namespace CommandGrammar

/-- What becomes of a sum that is too large for a word. -/
inductive Overflow where
  /-- The program stops. -/
  | stops
  /-- What is beyond the word is lost. -/
  | wraps
  deriving DecidableEq, Repr

/-- What a machine of words of sixty-four bits does with sums, and the most bytes that a text can
have on it; memory is asked for with numbers below half of the words. -/
structure Machine where
  overflow : Overflow
  room : Nat
  room_lt : room < Nat.pow 2 63 := by decide

namespace Machine

/-- How many words there are. -/
def word : Nat := Nat.pow 2 64

/-- The sum of two words. -/
def add? (m : Machine) (a b : Nat) : Option Nat :=
  if a + b < word then some (a + b)
  else
    match m.overflow with
    | .stops => none
    | .wraps => some ((a + b) % word)

theorem add?_of_lt (m : Machine) {a b : Nat} (small : a + b < word) : m.add? a b = some (a + b) :=
  if_pos small

/-- A sum is never more than it should be. -/
theorem le_of_add? {m : Machine} {a b sum : Nat} (added : m.add? a b = some sum) : sum ≤ a + b := by
  unfold add? at added
  split at added
  · exact Nat.le_of_eq (Option.some.inj added).symm
  · split at added
    · cases added
    · exact Option.some.inj added ▸ Nat.mod_le _ _

/-- There is no sum exactly where it stops the program. -/
theorem add?_eq_none_iff {m : Machine} {a b : Nat} :
    m.add? a b = none ↔ m.overflow = .stops ∧ word ≤ a + b := by
  unfold add?
  by_cases small : a + b < word
  · simp [small]
  · cases overflow : m.overflow <;> simp [small, Nat.le_of_not_lt small]

end Machine

/-- A reading error at a place of the input, counted in characters. `usage` says how the command is
written, once some level of it has added that. -/
structure ParseError where
  bare : String
  input : String
  position : Nat
  usage : Option String := none
  deriving DecidableEq, Repr

namespace ParseError

/-- How the input is shown under a message: whole up to `width` characters, else cut to a window
that keeps `radius` characters on either side of the place. -/
structure Window where
  width : Nat
  radius : Nat
  ellipsis : String

/-- Lines of eighty characters. -/
def window : Window := ⟨80, 37, "..."⟩

/-- The part of the input that is shown, and the column of the place in it. -/
def shown (w : Window) (input : List Char) (position : Nat) : List Char × Nat :=
  let mark := w.ellipsis.toList
  if input.length ≤ w.width then (input, position)
  else if position < w.radius then (input.take (w.width - mark.length) ++ mark, position)
  else
    let start := position - w.radius
    let stop := min (position + w.radius) input.length
    let slice := (input.take stop).drop start
    (mark ++ slice ++ if stop < input.length then mark else [], mark.length + w.radius)

/-- The input, or a window of it, with a caret under the place, where neither words nor memory run
out; `annotated?` is what a machine makes of it. -/
def annotated (e : ParseError) : String :=
  let (line, column) := shown window e.input.toList e.position
  String.ofList (line ++ '\n' :: List.replicate column ' ' ++ ['^'])

/-- The message, with the place shown when there is input. -/
def message (e : ParseError) : String :=
  if e.input.isEmpty then e.bare else e.bare ++ "\n" ++ e.annotated

/-! ## On a machine -/

/-- The part of a text from one place to another, if both stand in the text, in this order. -/
def cut? (cs : List Char) (start stop : Nat) : Option (List Char) :=
  if start ≤ stop ∧ stop ≤ cs.length then some ((cs.take stop).drop start) else none

/-- What a machine shows of the input, and the column of the place in it. -/
def shown? (m : Machine) (w : Window) (input : List Char) (position : Nat) :
    Option (List Char × Nat) :=
  let mark := w.ellipsis.toList
  if input.length ≤ w.width then some (input, position)
  else if position < w.radius then do
    let part ← cut? input 0 (w.width - mark.length)
    return (part ++ mark, position)
  else do
    let sum ← m.add? position w.radius
    let stop := min sum input.length
    let part ← cut? input (min (position - w.radius) stop) stop
    return (mark ++ part ++ if stop < input.length then mark else [], mark.length + w.radius)

/-- The input with a caret as a machine makes it, if it has room for all of it. -/
def annotated? (m : Machine) (e : ParseError) : Option String := do
  let (line, column) ← shown? m window e.input.toList e.position
  if (String.ofList line).utf8ByteSize + column + 2 ≤ m.room then
    return String.ofList (line ++ '\n' :: List.replicate column ' ' ++ ['^'])
  else none

/-- The message as a machine makes it. -/
def message? (m : Machine) (e : ParseError) : Option String :=
  if e.input.isEmpty then some e.bare
  else (e.annotated? m).map fun shown => e.bare ++ "\n" ++ shown

/-- The error with a usage in place of any it had. -/
def withUsage (e : ParseError) (usage : String) : ParseError :=
  { e with usage := some usage }

end ParseError

/-- One value was asked for under a key. -/
inductive ContextError where
  | notFound (key : String)
  | ambiguous (key : String) (count : Nat)
  deriving DecidableEq, Repr

/-- What was found instead of one value. -/
def ContextError.message : ContextError → String
  | .notFound key => "no value present for key '" ++ key ++ "'"
  | .ambiguous key count =>
    toString count ++ " values present for key '" ++ key ++ "', expected exactly one"

/-- Why a command failed. -/
inductive Error where
  | parse (e : ParseError)
  | commandNotFound (name : String)
  | permissionDenied (text : String)
  | command (text : String) (includeUsage : Bool)
  | context (e : ContextError)
  | invalidSpec (text : String)
  | duplicateAlias (owner name : String)
  /-- An unexpected failure, and the failures that caused it one after the other. -/
  | fault (text : String) (causes : List String)
  deriving DecidableEq, Repr

namespace Error

def message : Error → String
  | .parse e => e.message
  | .commandNotFound name => "No such command: " ++ name
  | .permissionDenied text => text
  | .command text _ => text
  | .context e => e.message
  | .invalidSpec text => "invalid command spec: " ++ text
  | .duplicateAlias owner name =>
    "owner '" ++ owner ++ "' already registered the alias '" ++ name ++ "'"
  | .fault text _ => text

def kind : Error → String
  | .parse _ => "parse"
  | .commandNotFound _ => "command_not_found"
  | .permissionDenied _ => "permission_denied"
  | .command _ includeUsage => if includeUsage then "command_with_usage" else "command"
  | .context (.notFound _) => "not_found"
  | .context (.ambiguous _ _) => "ambiguous"
  | .invalidSpec _ => "invalid_spec"
  | .duplicateAlias _ _ => "duplicate_alias"
  | .fault _ _ => "fault"

/-- The source lacks the permission a command asks for. -/
def denied : Error :=
  .permissionDenied "You do not have permission to use this command!"

/-- Whether the error is to be followed by the usage of its command. -/
def includesUsage : Error → Bool
  | .parse _ => true
  | .command _ includeUsage => includeUsage
  | _ => false

def usage? : Error → Option String
  | .parse e => e.usage
  | _ => none

/-- Below a command that was found, a missing one is an ordinary failure. -/
def nested : Error → Error
  | .commandNotFound name => .command ("No such child command: " ++ name) false
  | e => e

end Error

end CommandGrammar
