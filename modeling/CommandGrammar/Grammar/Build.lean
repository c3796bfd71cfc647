import CommandGrammar.Grammar.Element

/-!
# Building grammars

Elements of the common kinds, tables of flags from their declarations, and specified commands from
drafts. Nodes of subcommands are numbered in the order they are built, so their keys differ.
-/

namespace CommandGrammar

namespace Element

/-- Reads nothing. -/
def none : Element := .sequence []

def trueWords : List String := ["true", "t", "y", "yes", "verymuchso", "1"]

def falseWords : List String := ["false", "f", "n", "no", "notatall", "0"]

/-- One name of a fixed list. -/
def choices (key : String) (entries : List (String × Value)) (caseSensitive : Bool := true) :
    Element :=
  .choice key { provider := .ofList entries, caseSensitive }

/-- A word for a truth value. -/
def bool (key : String) : Element :=
  choices key
    (trueWords.map (fun w => (w, Value.bool true)) ++ falseWords.map fun w => (w, Value.bool false))

/-- All constants whose names begin with a text. Names count in small letters. -/
def enumeration (key : String) (names : List String) : Element :=
  let entries := names.mapIdx fun i n => (Text.lowercase n, Value.any (.constant i n))
  .selection key { provider := .ofList entries, regex := false }

/-- Flags with or without an element for their values, in the order they are declared. A flag
without one stores that it was there, under the first of its names. -/
structure FlagDeclarations where
  table : FlagTable := {}
  values : List Element := []

/-- One more declaration, unless it has no names. -/
def FlagDeclarations.declare (d : FlagDeclarations) (words : List String)
    (value : Option Element) : FlagDeclarations :=
  match words.flatMap FlagName.ofWord with
  | [] => d
  | first :: more =>
    { table := d.table.declare (first :: more)
      values := d.values ++ [value.getD (.leaf first.key .markTrue)] }

def FlagDeclarations.around (d : FlagDeclarations) (body : Element) : Element :=
  .flags d.table d.values body

/-- Reads nothing, and can be left out. -/
def isNone : Element → Bool
  | .sequence [] => true
  | _ => false

end Element

/-- Numbers for the nodes of subcommands. -/
abbrev Supply := StateM Nat

namespace Spec

/-- The own arguments of a command. -/
def own : Spec → Option Element
  | .mk own _ _ _ _ _ => own

/-- What a command runs. -/
def body : Spec → Body
  | .mk _ body _ _ _ _ => body

/-- The permission that a command asks for. -/
def permission : Spec → Option String
  | .mk _ _ _ _ permission _ => permission

/-- The extended description of a command. -/
def extended : Spec → Option String
  | .mk _ _ _ extended _ _ => extended

/-- How the line of a command is cut. -/
def tokenizer : Spec → Tokenizer
  | .mk _ _ _ _ _ tokenizer => tokenizer

end Spec

namespace Subcommands

/-- The key of the node with a number. -/
def keyOf (n : Nat) : String :=
  "child" ++ toString n

/-- A new node without subcommands. Own arguments that read nothing are left out. -/
def create (action : Option Action) (fallback : Option Element) (fallbackOnFail : Bool) :
    Supply Subcommands := fun n =>
  (.mk (keyOf n) action (fallback.filter fun e => !e.isNone) .empty fallbackOnFail, n + 1)

def key : Subcommands → String
  | .mk key _ _ _ _ => key

def action : Subcommands → Option Action
  | .mk _ action _ _ _ => action

/-- The own arguments of a node. -/
def fallback : Subcommands → Option Element
  | .mk _ _ fallback _ _ => fallback

def commands : Subcommands → Dispatcher Callable
  | .mk _ _ _ commands _ => commands

def register (n : Subcommands) (aliases : List String) (c : Callable) :
    Option CommandName × Subcommands :=
  match n with
  | .mk key action fallback commands onFail =>
    let (name, commands) := commands.register c aliases
    (name, .mk key action fallback commands onFail)

/-- The node with some more subcommands. -/
def registerAll (n : Subcommands) (children : List (List String × Callable)) : Subcommands :=
  children.foldl (fun n (aliases, c) => (n.register aliases c).2) n

end Subcommands

/-- What a specified command is made from. -/
structure SpecDraft where
  arguments : Option Element := none
  action : Option Action := none
  description : Option String := none
  extended : Option String := none
  permission : Option String := none
  children : List (List String × Callable) := []
  /-- Whether the arguments and the action also serve when a subcommand's arguments cannot be
  read. -/
  childFallback : Bool := true
  tokenizer : Tokenizer := .words {}

namespace SpecDraft

def plain (d : SpecDraft) (action : Action) : Spec :=
  .mk d.arguments (.action action) d.description d.extended d.permission d.tokenizer

/-- The command of a draft with subcommands: they follow its own arguments, or these and its action
serve for lines without a subcommand. -/
def branching (d : SpecDraft) : Supply Spec := do
  match d.action with
  | none =>
    let node ← Subcommands.create none none false
    return .mk d.arguments (.subcommands (node.registerAll d.children)) d.description d.extended
      d.permission d.tokenizer
  | some action =>
    let node ← Subcommands.create (some action) d.arguments d.childFallback
    return .mk none (.subcommands (node.registerAll d.children)) d.description d.extended
      d.permission d.tokenizer

/-- The command of a draft, which must have an action or subcommands. -/
def build (d : SpecDraft) : Supply (Except Error Spec) := do
  match d.children, d.action with
  | [], none => return .error (.invalidSpec "An executor is required")
  | [], some action => return .ok (d.plain action)
  | _ :: _, _ => return .ok (← d.branching)

end SpecDraft

end CommandGrammar
