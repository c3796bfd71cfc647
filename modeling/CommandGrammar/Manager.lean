import CommandGrammar.Grammar.Element
import CommandGrammar.Report

/-!
# Managers

What an application talks to: a dispatcher whose commands belong to owners. Each alias is registered
by itself and behind its owner's name, no owner registers one twice, and whatever goes wrong while a
line is run is told to its source in words.
-/

namespace CommandGrammar

/-- Whoever registers commands. -/
structure Owner where
  id : String
  name : Option String := none
  version : Option String := none
  description : Option String := none
  url : Option String := none
  authors : List String := []
  deriving DecidableEq, Repr

/-- An owner and the commands it registered. -/
structure Holding where
  owner : Owner
  commands : List CommandName
  deriving DecidableEq, Repr

/-- Commands and who they belong to. Owners stand in the order of their names. -/
structure Manager where
  dispatcher : Dispatcher Callable
  holdings : List Holding

namespace Manager

/-- A manager without commands. -/
def empty (policy : Policy := Policy.first) : Manager :=
  ⟨.empty policy, []⟩

def holds (m : Manager) (owner : String) (id : Nat) : Bool :=
  m.holdings.any fun h => h.owner.id == owner && h.commands.any fun c => c.id == id

/-- A command added to its owner's; an owner is known as it was the first time. -/
def addHolding (owner : Owner) (name : CommandName) : List Holding → List Holding
  | [] => [⟨owner, [name]⟩]
  | h :: rest =>
    if owner.id = h.owner.id then { h with commands := h.commands ++ [name] } :: rest
    else if owner.id < h.owner.id then ⟨owner, [name]⟩ :: h :: rest
    else h :: addHolding owner name rest

/-- The holdings without a command; an owner without commands is forgotten. -/
def forget (holdings : List Holding) (id : Nat) : List Holding :=
  (holdings.map fun h => { h with commands := h.commands.filter fun c => c.id != id }).filter
    fun h => !h.commands.isEmpty

/-- An alias in small letters and without spaces. -/
def normalAlias (name : String) : String :=
  String.ofList ((Text.lowercase name).toList.filter (· != ' '))

/-- An alias behind its owner's name. -/
def qualified (owner name : String) : String :=
  owner ++ ":" ++ name

/-- Whether an owner holds a command under an alias. -/
def taken (m : Manager) (owner name : String) : Bool :=
  (m.dispatcher.all name).any fun c => m.holds owner c.name.id

/-- The aliases as they are registered: each once, by itself and behind the owner's name. The first
one that the owner holds already is an error. -/
def claimAliases (m : Manager) (owner : String) : (seen : List String) → List String →
    Except Error (List String)
  | _, [] => .ok []
  | seen, original :: rest => do
    let name := normalAlias original
    if seen.contains name then claimAliases m owner seen rest
    else if m.taken owner name then .error (.duplicateAlias owner name)
    else return name :: qualified owner name :: (← claimAliases m owner (seen ++ [name]) rest)

/-- A command registered for an owner, its aliases being rewritten in the end. -/
def registerWith (m : Manager) (owner : Owner) (c : Callable) (aliases : List String)
    (rewrite : List String → List String) : Except Error (Option CommandName × Manager) := do
  let claimed ← m.claimAliases owner.id [] aliases
  match m.dispatcher.registerWith c claimed rewrite with
  | (none, dispatcher) => return (none, { m with dispatcher })
  | (some name, dispatcher) =>
    return (some name, ⟨dispatcher, addHolding owner name m.holdings⟩)

/-- A command registered for an owner. -/
def register (m : Manager) (owner : Owner) (c : Callable) (aliases : List String) :
    Except Error (Option CommandName × Manager) :=
  m.registerWith owner c aliases id

/-- The manager without a command, and the command if it was there. -/
def removeId (m : Manager) (id : Nat) : Option CommandName × Manager :=
  match m.dispatcher.removeId id with
  | (none, _) => (none, m)
  | (some name, dispatcher) => (some name, ⟨dispatcher, forget m.holdings name.id⟩)

/-- The holdings without those of some commands that are under no alias any more. -/
def forgetUnreachable (dispatcher : Dispatcher Callable) (holdings : List Holding)
    (removed : List Nat) : List Holding :=
  removed.foldl
    (fun hs id => if dispatcher.containsId id then hs else forget hs id) holdings

/-- The manager without an alias, and the commands that were under it. -/
def remove (m : Manager) (key : String) : List CommandName × Manager :=
  let (removed, dispatcher) := m.dispatcher.remove key
  let names := removed.map (·.name)
  (names, ⟨dispatcher, forgetUnreachable dispatcher m.holdings (names.map (·.id))⟩)

/-- The manager without some aliases, and whether it had one of them. -/
def removeAll (m : Manager) (keys : List String) : Bool × Manager :=
  let removed := (keys.flatMap m.dispatcher.all).map (·.name.id)
  let (found, dispatcher) := m.dispatcher.removeAll keys
  (found, ⟨dispatcher, forgetUnreachable dispatcher m.holdings removed⟩)

def owners (m : Manager) : List Owner :=
  m.holdings.map (·.owner)

def ownedBy (m : Manager) (owner : String) : List CommandName :=
  ((m.holdings.find? fun h => h.owner.id == owner).map (·.commands)).getD []

def ownerOf? (m : Manager) (id : Nat) : Option Owner :=
  (m.holdings.find? fun h => h.commands.any fun c => c.id == id).map (·.owner)

def behaviour (m : Manager) : Dispatcher Command :=
  Callable.behaviours m.dispatcher

/-- A line for each command. -/
def help (m : Manager) (source : Source) : Option String :=
  m.behaviour.help source

/-- The aliases that stand for a command known by them. -/
def usage (m : Manager) (source : Source) : String :=
  m.behaviour.usage source

/-- The lines that tell of an error, and how the command of the line is used where the error asks
for that. -/
def report (m : Manager) (source : Source) (line : String) (e : Error) : List String :=
  match e with
  | .permissionDenied text => [Report.error text]
  | .fault text causes => [Report.fault (Report.chain text causes)]
  | _ =>
    let name := (Dispatcher.splitLine line).1
    let usage :=
      if e.includesUsage then
        match m.behaviour.get? (some source) name with
        | some c =>
          [Report.error ("Usage: " ++ name ++ " " ++ e.usage?.getD (c.callable.usage source))]
        | none => []
      else []
    Report.error e.message :: usage

/-- The outcome of a line and the lines sent. A line that failed has the empty outcome. -/
def process (m : Manager) (env : Env) (line : String) : List String × Outcome :=
  let env := { env with listing := m.help env.source }
  let reply := m.behaviour.command.process env line
  match reply.result with
  | .ok outcome => (reply.lines, outcome)
  | .error (.error e) => (reply.lines ++ m.report env.source line e, .empty)
  | .error (.panic text) => (reply.lines ++ [Report.fault (text.getD "panic")], .empty)

/-- The offers for a line that is being typed. -/
def suggestions (m : Manager) (env : Env) (line : String) : Completion :=
  (m.behaviour.suggestions env line).completion fun e =>
    Report.error ("Error getting suggestions: " ++ e.message)

/-- The text before a place, counted in bytes; all of it if the place is not between characters. -/
def before (line : List Char) (place : Nat) : List Char :=
  let rec go : List Char → Nat → Option (List Char)
    | _, 0 => some []
    | [], _ + 1 => none
    | c :: rest, n + 1 =>
      if c.utf8Size ≤ n + 1 then (go rest (n + 1 - c.utf8Size)).map (c :: ·) else none
  (go line place).getD line

/-- The place behind the last space, counted in bytes. -/
def wordStart (cs : List Char) : Nat :=
  let word := cs.reverse.takeWhile (· != ' ')
  (cs.take (cs.length - word.length)).foldl (fun n c => n + c.utf8Size) 0

/-- Where the word at a place starts, and the offers for it. -/
def completeLine (m : Manager) (env : Env) (line : String) (place : Nat) : Nat × Completion :=
  let typed := before line.toList place
  (wordStart typed, m.suggestions env (String.ofList typed))

end Manager

end CommandGrammar
