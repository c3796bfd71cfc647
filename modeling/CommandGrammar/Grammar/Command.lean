import CommandGrammar.Dispatcher
import CommandGrammar.Grammar.Parser
import CommandGrammar.Text.Split

/-!
# Commands

What can be registered under an alias, by its behaviour. Running a line is planned first: the plan
either refuses the line or names the one job to be done, so nothing runs unless all of the line was
understood and permitted.
-/

namespace CommandGrammar

/-- One thing to be run: an action with the values read for it, or a command that takes the text of
its arguments as it is. -/
inductive Job where
  | act (action : Action) (context : Context)
  | hand (run : Env → String → Reply Stop Outcome) (arguments : String)

def Job.run (env : Env) : Job → Reply Stop Outcome
  | .act action context => action env context
  | .hand run arguments => run env arguments

/-- What a line amounts to: a refusal, or a job. A job is `nested` below a dispatcher, where a
missing command is an ordinary failure. -/
inductive Plan where
  | refuse (e : Error)
  | run (job : Job) (nested : Bool)

namespace Plan

/-- A stop as it is seen above a dispatcher. -/
def nestStop : Stop → Stop
  | .error e => .error e.nested
  | .panic text => .panic text

/-- The plan as it is seen above a dispatcher. -/
def nest : Plan → Plan
  | .refuse e => .refuse e.nested
  | .run job _ => .run job true

def carryOut (env : Env) : Plan → Reply Stop Outcome
  | .refuse e => .fail (.error e)
  | .run job nested =>
    let reply := job.run env
    if nested then reply.mapError nestStop else reply

end Plan

/-- A command with a grammar, which a line of subcommands reads in place. -/
structure Program where
  /-- Reads all tokens that are left. -/
  populate : Env → Reading Unit
  complete : Env → State → Completion
  permits : Source → Bool
  /-- What is to be run with the values read. -/
  select : Env → Context → Plan

/-- What is said to a line that is being typed: offers or an error, unless the search for them is
`endless`. -/
structure Suggestions extends Reply Error (List String) where
  endless : Bool := false

namespace Suggestions

def ofList (offers : List String) : Suggestions := { result := .ok offers }

def ofCompletion (c : Completion) : Suggestions :=
  { lines := c.lines, result := .ok c.offers, endless := c.endless }

/-- What is offered, an error being told in a line. -/
def completion (tell : Error → String) (s : Suggestions) : Completion :=
  match s.result with
  | .ok offers => ⟨s.lines, offers, s.endless⟩
  | .error e => ⟨s.lines ++ [tell e], [], s.endless⟩

end Suggestions

/-- How something that is registered under an alias behaves. -/
structure Command where
  plan : Env → String → Plan
  suggestions : Env → String → Suggestions
  usage : Source → String
  description : Source → Option String
  help : Source → Option String
  program : Option Program := none

/-- Runs a line of arguments. -/
def Command.process (c : Command) (env : Env) (arguments : String) : Reply Stop Outcome :=
  (c.plan env arguments).carryOut env

/-- A command without a grammar. -/
structure RawCommand where
  run : Env → String → Reply Stop Outcome
  suggestions : Env → String → Reply Error (List String)
  usage : String := ""
  description : Option String := none
  help : Option String := none

/-- The behaviour of a command without a grammar. -/
def RawCommand.command (r : RawCommand) : Command where
  plan _ arguments := .run (.hand r.run arguments) false
  suggestions env arguments := { r.suggestions env arguments with }
  usage _ := r.usage
  description _ := r.description
  help _ := r.help

namespace Dispatcher

/-- The first word of a line and the text after the space that ends it. -/
def splitLine (line : String) : String × String :=
  match Text.splitOnce ' ' line.toList with
  | some (name, arguments) => (String.ofList name, String.ofList arguments)
  | none => (line, "")

/-- The plan of a line that begins with an alias. -/
def plan (d : Dispatcher Command) (env : Env) (line : String) : Plan :=
  let (name, arguments) := splitLine line
  match d.get? (some env.source) name with
  | none => .refuse (.commandNotFound name)
  | some m => (m.callable.plan env arguments).nest

/-- The offers for a line: aliases for its first word, else what its command offers. -/
def suggestions (d : Dispatcher Command) (env : Env) (line : String) : Suggestions :=
  match Text.splitOnce ' ' line.toList with
  | none => .ofList (d.keysFor line)
  | some (name, arguments) =>
    match d.get? (some env.source) (String.ofList name) with
    | some m => m.callable.suggestions env (String.ofList arguments)
    | none => .ofList []

/-- A line for each command: what it is known by and its description, or else its usage. -/
def help (d : Dispatcher Command) (source : Source) : Option String :=
  match d.commands with
  | [] => none
  | ms =>
    let line (m : Mapping Command) : String :=
      m.name.primary ++ " " ++ (m.callable.description source).getD (m.callable.usage source)
    some (String.intercalate "\n" ("Available commands:" :: ms.map line))

def command (d : Dispatcher Command) : Command where
  plan := d.plan
  suggestions := d.suggestions
  usage := d.usage
  description _ := none
  help := d.help

end Dispatcher

end CommandGrammar
