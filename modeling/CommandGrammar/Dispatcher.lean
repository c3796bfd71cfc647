import CommandGrammar.Names
import CommandGrammar.Multimap
import CommandGrammar.Source
import CommandGrammar.Text.Case

/-!
# Dispatchers

A table of commands under aliases in small letters. Several commands may share an alias; a policy
picks one of them whenever it is asked for.
-/

namespace CommandGrammar

/-- What picks one of several commands under an alias, by its place among them, for whoever asks. -/
abbrev Policy := Option Source → String → List CommandName → Option Nat

/-- A command and its names. -/
structure Mapping (C : Type) where
  name : CommandName
  callable : C

/-- Commands under their aliases. `nextId` is above the numbers of all commands registered. -/
structure Dispatcher (C : Type) where
  policy : Policy
  table : Multimap (Mapping C)
  nextId : Nat

namespace Policy

/-- The first command that is known by the alias, else the first of all. -/
def first : Policy := fun _ typed names =>
  let lower := Text.lowercase typed
  (names.findIdx? fun n => Text.lowercase n.primary == lower).or (some 0)

/-- The command registered last. -/
def last : Policy := fun _ _ names => some (names.length - 1)

/-- None of them. -/
def never : Policy := fun _ _ _ => none

/-- The first command that is known by the name of whoever asks. -/
def ofSource : Policy := fun source _ names =>
  source.bind fun s => names.findIdx? fun n => n.primary == s.name

end Policy

namespace Dispatcher

variable {C : Type}

/-- A dispatcher without commands. -/
def empty (policy : Policy := Policy.first) : Dispatcher C :=
  ⟨policy, {}, 0⟩

instance : Inhabited (Dispatcher C) := ⟨empty⟩

/-- All commands under an alias, in the order they were registered. -/
def all (d : Dispatcher C) (key : String) : List (Mapping C) :=
  d.table.values (Text.lowercase key)

/-- The command an alias stands for. -/
def get? (d : Dispatcher C) (source : Option Source) (key : String) : Option (Mapping C) :=
  match d.all key with
  | [] => none
  | [m] => some m
  | ms => (d.policy source key (ms.map (·.name))).bind fun i => ms[i]?

/-- A command registered under what is left of its aliases after they are rewritten; the first one
is what it is known by. Without aliases nothing is registered. -/
def registerWith (d : Dispatcher C) (callable : C) (aliases : List String)
    (rewrite : List String → List String) : Option CommandName × Dispatcher C :=
  match rewrite aliases with
  | [] => (none, d)
  | primary :: others =>
    let name : CommandName := ⟨d.nextId, primary, Names.ofList (primary :: others)⟩
    let table := (primary :: others).foldl
      (fun t key => t.insert (Text.lowercase key) ⟨name, callable⟩) d.table
    (some name, { d with table, nextId := d.nextId + 1 })

/-- A command registered under aliases. -/
def register (d : Dispatcher C) (callable : C) (aliases : List String) :
    Option CommandName × Dispatcher C :=
  d.registerWith callable aliases id

/-- The commands under an alias, and the dispatcher without that alias. -/
def remove (d : Dispatcher C) (key : String) : List (Mapping C) × Dispatcher C :=
  (d.all key, { d with table := d.table.erase (Text.lowercase key) })

/-- The dispatcher without some aliases, and whether it had one of them. -/
def removeAll (d : Dispatcher C) : List String → Bool × Dispatcher C
  | [] => (false, d)
  | key :: rest =>
    let found := d.table.contains (Text.lowercase key)
    let (later, d) := removeAll { d with table := d.table.erase (Text.lowercase key) } rest
    (found || later, d)

/-- Whether a command is registered under some alias. -/
def containsId (d : Dispatcher C) (id : Nat) : Bool :=
  d.table.allValues.any fun m => m.name.id == id

/-- The dispatcher without a command, and the command if it was there. -/
def removeId (d : Dispatcher C) (id : Nat) : Option CommandName × Dispatcher C :=
  match d.table.allValues.find? fun m => m.name.id == id with
  | none => (none, d)
  | some m => (some m.name, { d with table := d.table.filter fun _ m => m.name.id != id })

/-- The dispatcher without some commands, and whether it had one of them. -/
def removeIds (d : Dispatcher C) (ids : List Nat) : Bool × Dispatcher C :=
  let table := d.table.filter fun _ m => !ids.contains m.name.id
  (table.size != d.table.size, { d with table })

/-- The commands, each once, in the order of the aliases they are first found under. -/
def commands (d : Dispatcher C) : List (Mapping C) :=
  d.table.allValues.foldl
    (fun seen m => if seen.any fun n => n.name.id == m.name.id then seen else seen ++ [m]) []

/-- What the commands are known by. -/
def primaryAliases (d : Dispatcher C) : List String :=
  Names.ofList (d.table.allValues.map (·.name.primary))

def aliases (d : Dispatcher C) : List String :=
  Names.ofList (d.table.allValues.flatMap (·.name.aliases))

def containsAlias (d : Dispatcher C) (key : String) : Bool :=
  d.table.contains (Text.lowercase key)

/-- The number of entries: a command counts once for each of its aliases. -/
def size (d : Dispatcher C) : Nat :=
  d.table.size

/-- Whether there are no commands. -/
def isEmpty (d : Dispatcher C) : Bool :=
  d.table.isEmpty

/-- The command with a number. -/
def ofId? (d : Dispatcher C) (id : Nat) : Option (Mapping C) :=
  d.table.allValues.find? fun m => m.name.id == id

/-- The aliases that begin with a text, ignoring case. -/
def keysFor (d : Dispatcher C) (typed : String) : List String :=
  d.table.keys.filter fun key => Text.startsWithIgnoringCase key typed

/-- The aliases that stand for a command known by them. -/
def usage (d : Dispatcher C) (source : Source) : String :=
  String.intercalate "|" (d.table.keys.filter fun key =>
    match d.get? (some source) key with
    | some m => Text.lowercase m.name.primary == key
    | none => false)

end Dispatcher

end CommandGrammar
