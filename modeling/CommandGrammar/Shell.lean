import CommandGrammar.Manager
import CommandGrammar.Text.Blank

/-!
# Shells

A shell reads lines from a script of inputs and runs each of them, until the input ends.
-/

namespace CommandGrammar

/-- How a shell looks and what it remembers. -/
structure ShellConfig where
  prompt : String := "> "
  banner : Option String := none
  historySize : Nat := 1000
  historyIgnoreDups : Bool := true
  sourceName : String := "console"
  deriving DecidableEq, Repr

/-- What reading a line gives. -/
inductive Input where
  | line (text : String)
  | interrupted
  | failure (e : Error)
  | ended
  deriving DecidableEq, Repr

/-- What a line is run against: the commands, and what has become of the surroundings. -/
structure Standing where
  manager : Manager
  surroundings : Env → Env := id

/-- What running a line changes. A command may register others, take some away or change what its
source is allowed, and what it does may depend on the lines run before it. -/
abbrev Effect := Env → (history : List String) → (line : String) → Standing → Standing

/-- Commands that change nothing. -/
def Effect.none : Effect := fun _ _ _ before => before

/-- A shell: its commands, the inputs to come, the lines run so far, the prompts shown so far. After
the last input the script has ended. -/
structure Shell extends Standing where
  config : ShellConfig
  script : List Input
  history : List String := []
  prompts : List String := []

namespace Shell

/-- A line run, and the lines it sends. -/
def execute (s : Shell) (env : Env) (line : String) : List String × Outcome :=
  s.manager.process (s.surroundings env) line

/-- The shell behind a line that it ran. -/
def remember (s : Shell) (env : Env) (effect : Effect) (line : String) : Shell :=
  { s with
    toStanding := effect env s.history line s.toStanding
    history := s.history ++ [line] }

/-- One input taken: the lines sent, and whether more may come, or the failure of reading. A blank
line is passed over. -/
def step (s : Shell) (env : Env) (effect : Effect := .none) : List String × Except Error Bool × Shell :=
  let s := { s with prompts := s.prompts ++ [s.config.prompt] }
  match s.script with
  | [] => ([], .ok false, s)
  | input :: rest =>
    let s := { s with script := rest }
    match input with
    | .line text =>
      let line := String.ofList (Text.trim text.toList)
      if line.isEmpty then ([], .ok true, s)
      else ((s.execute env line).1, .ok true, s.remember env effect line)
    | .interrupted => ([], .ok true, s)
    | .failure e => ([], .error e, s)
    | .ended => ([], .ok false, s)

/-- Inputs taken until one ends the session. -/
def runSteps (env : Env) (effect : Effect) : (steps : Nat) → Shell → List String × Except Error Unit × Shell
  | 0, s => ([], .ok (), s)
  | steps + 1, s =>
    match s.step env effect with
    | (lines, .error e, s) => (lines, .error e, s)
    | (lines, .ok false, s) => (lines, .ok (), s)
    | (lines, .ok true, s) =>
      let (more, result, s) := runSteps env effect steps s
      (lines ++ more, result, s)

/-- A session: the banner, and then inputs until one ends it. No more steps are taken than there are
inputs and the end of them. -/
def run (s : Shell) (env : Env) (effect : Effect := .none) :
    List String × Except Error Unit × Shell :=
  let (lines, result, t) := runSteps env effect (s.script.length + 1) s
  (s.config.banner.toList ++ lines, result, t)

end Shell

end CommandGrammar
