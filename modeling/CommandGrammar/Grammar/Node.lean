import CommandGrammar.Grammar.Command
import CommandGrammar.Report

/-!
# Subcommands

A node of a grammar where a word names a subcommand, whose own grammar reads what follows. What the
word named is stored, and decides later what is run. A node may have arguments and an action of its
own, for lines that name no subcommand.
-/

namespace CommandGrammar

/-- A node of subcommands: the key it stores under, its own action, its own arguments, and whether
these are also tried when a subcommand's arguments cannot be read. -/
structure Node where
  key : String
  action : Option Action
  fallback : Option Parser
  commands : Dispatcher Command
  fallbackOnFail : Bool

namespace Node

/-- The key of the arguments of a subcommand without a grammar. -/
def argumentsKey (n : Node) : String :=
  n.key ++ "_args"

/-- The line from the next token on, all tokens being passed. -/
def restOfLine : Reading String := do
  if ← Reading.hasNext then
    let _ ← Reading.next
    let cursor := (← get).cursor
    Reading.moveCursor Cursor.toEnd
    pure cursor.rawFromCurrent
  else pure ""

/-- The arguments of a subcommand. -/
def populate (n : Node) (c : Command) (env : Env) : Reading Unit :=
  match c.program with
  | some program => program.populate env
  | none => do
    let rest ← restOfLine
    Reading.store n.argumentsKey (.string rest)

/-- The value that tells which subcommand was named. -/
def handle (n : Node) (m : Mapping Command) : Value :=
  .any (.command n.key m.name)

/-- The usage of a failure below a subcommand: the word that named it and what was said below, or
else the usage of the subcommand. -/
def failureUsage (source : Source) (typed : String) (c : Command) (e : ParseError) : ParseError :=
  e.withUsage (typed ++ " " ++ e.usage.getD (c.usage source))

/-- A failure below a subcommand: the node's own arguments may be tried instead. -/
def recover (n : Node) (env : Env) (typed : String) (c : Command) (entry : State) (e : ParseError) :
    EStateM.Result ParseError State Unit :=
  match n.fallbackOnFail, n.fallback with
  | true, some p => p.parse env entry
  | _, _ => .error (failureUsage env.source typed c e) entry

/-- A subcommand with its arguments. A word that names none is left to the node's own arguments, if
it has an action for them. -/
def readNamed (n : Node) (env : Env) : Reading Unit := fun entry =>
  match entry.cursor.next? with
  | none => .error entry.cursor.exhausted entry
  | some (typed, c) =>
    match n.commands.get? (some env.source) typed with
    | none =>
      match n.action, n.fallback with
      | some _, some p => p.parse env entry
      | _, _ =>
        let s := { entry with cursor := c }
        Reading.reject ("Input command " ++ typed ++ " was not a valid subcommand!") s
    | some m =>
      match n.populate m.callable env { entry with cursor := c } with
      | .ok _ s => Reading.store n.key (n.handle m) s
      | .error e _ => n.recover env typed m.callable entry e

/-- A subcommand, or the node's own arguments when no token is left and it has an action. -/
def read (n : Node) (env : Env) : Reading Unit := do
  if n.action.isSome && !(← Reading.hasNext) then
    match n.fallback with
    | some p => p.parse env
    | none => pure ()
  else n.readNamed env

/-- The offers of a subcommand for its arguments, the word that named it being read. -/
def completeBelow (c : Command) (env : Env) (s : State) : Completion :=
  match c.program with
  | some program => program.complete env s
  | none =>
    let cursor := s.cursor.next?.elim s.cursor (·.2)
    (c.suggestions env cursor.rawFromCurrent).completion fun e => Report.error e.message

/-- The offers of the node's own arguments and, for the word being typed, of the aliases. Behind
that word only the subcommand it names has offers. -/
def complete (n : Node) (env : Env) (s : State) : Completion :=
  let own := n.fallback.elim .none fun p => Completion.none.replace (p.complete env s)
  match s.cursor.next? with
  | none => own.add (.ofList n.commands.table.keys)
  | some (typed, c) =>
    if c.hasNext then
      match n.commands.get? (some env.source) typed with
      | none => own.clear
      | some m => own.replace (completeBelow m.callable env { s with cursor := c })
    else own.add (.ofList (n.commands.keysFor typed))

/-- The subcommands and the node's own arguments. -/
def usage (n : Node) (source : Source) : String :=
  let named := n.commands.usage source
  match n.fallback with
  | none => named
  | some p =>
    let own := p.usage source
    if own.isEmpty then named else named ++ "|" ++ own

def parser (n : Node) : Parser where
  key := some n.key
  parse := n.read
  complete := n.complete
  usage := n.usage

/-- The subcommand that the values name. -/
def selected? (n : Node) (context : Context) : Option (Mapping Command) :=
  match context.one? n.key with
  | some (.any (.command node name)) => if node = n.key then n.commands.ofId? name.id else none
  | _ => none

/-- What is to be run with the values read: the subcommand they name, for a source that may run it,
or else the node's own action. -/
def select (n : Node) (env : Env) (context : Context) : Plan :=
  match n.selected? context with
  | some m =>
    match m.callable.program with
    | some program =>
      if program.permits env.source then program.select env context else .refuse .denied
    | none =>
      let arguments := ((context.one? n.argumentsKey).bind Value.asString?).getD ""
      m.callable.plan env arguments
  | none =>
    match n.action with
    | some action => .run (.act action context) false
    | none =>
      .refuse (.command ("Invalid subcommand state -- no more than one mapping may be provided " ++
        "for child arg " ++ n.key) false)

end Node

end CommandGrammar
