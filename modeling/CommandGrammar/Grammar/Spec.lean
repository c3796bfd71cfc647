import CommandGrammar.Grammar.Combinator
import CommandGrammar.Grammar.Node

/-!
# Specified commands

A command with a grammar, texts, a permission and a way to cut its line into tokens. All tokens
must be read, and what is then run is an action or what a node of subcommands selects.
-/

namespace CommandGrammar

/-- The part of a specified command that decides what is run. -/
structure Core where
  node : Option Parser
  select : Env → Context → Plan

def Core.ofAction (action : Action) : Core :=
  ⟨none, fun _ context => .run (.act action context) false⟩

def Core.ofNode (n : Node) : Core :=
  ⟨some n.parser, n.select⟩

/-- The behaviour of a specified command: its own arguments and the part that decides what is
run. -/
structure Specified where
  own : Option Parser
  core : Core
  description : Option String := none
  extended : Option String := none
  permission : Option String := none
  tokenizer : Tokenizer := .words {}

namespace Specified

/-- The grammar: own arguments, and then the node if there is one. -/
def grammar (s : Specified) : Parser :=
  match s.own, s.core.node with
  | none, none => .sequence []
  | some p, none => p
  | none, some q => q
  | some p, some q => .sequence [p, q]

def permits (s : Specified) (source : Source) : Bool :=
  s.permission.all source.permits

/-- All tokens that are left, read by the grammar. -/
def populate (s : Specified) (env : Env) : Reading Unit := do
  s.grammar.parse env
  if ← Reading.hasNext then
    let _ ← Reading.next
    Reading.reject "Too many arguments!"

def read (s : Specified) (env : Env) (line : String) : Except ParseError Context := do
  let cursor ← Cursor.ofLine s.tokenizer false line
  match s.populate env ⟨cursor, .empty⟩ with
  | .ok _ t => .ok t.context
  | .error e _ => .error e

def plan (s : Specified) (env : Env) (line : String) : Plan :=
  if s.permits env.source then
    match s.read env line with
    | .ok context => s.core.select env context
    | .error e => .refuse (.parse e)
  else .refuse .denied

def suggestions (s : Specified) (env : Env) (line : String) : Suggestions :=
  if s.permits env.source then
    match Cursor.ofLine s.tokenizer true line with
    | .ok cursor => .ofCompletion (s.grammar.complete env ⟨cursor, .forCompletion⟩)
    | .error e => { result := .error (.parse e) }
  else .ofList []

/-- Description, usage and extended description, as far as they are there. -/
def help (s : Specified) (source : Source) : String :=
  String.intercalate "\n"
    (s.description.toList ++ s.grammar.usage source :: s.extended.toList)

def program (s : Specified) : Program where
  populate := s.populate
  complete := s.grammar.complete
  permits := s.permits
  select := s.core.select

def command (s : Specified) : Command where
  plan := s.plan
  suggestions := s.suggestions
  usage := s.grammar.usage
  description _ := s.description
  help source := some (s.help source)
  program := some s.program

end Specified

end CommandGrammar
