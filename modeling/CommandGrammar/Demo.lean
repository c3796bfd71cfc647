import CommandGrammar.Action
import CommandGrammar.Grammar.Build
import CommandGrammar.Manager
import CommandGrammar.Text.Split

/-!
# Sample commands

A few commands that show what grammars can do: text, arithmetic with subcommands, flags, the time,
and a list of the commands there are.
-/

namespace CommandGrammar.Demo

/-- The owner of the sample commands. -/
def owner : Owner where
  id := "demo"
  name := some "cmdweave demo"
  version := some "0.1.0"
  description := some "Sample commands"

def int (context : Context) (key : String) : Reply Stop Int32 := do
  match (← Action.one context key).asInt? with
  | some n => pure n
  | none => .fail (.error (.command (key ++ " is not an integer") false))

/-- Prints text. -/
def echo : SpecDraft where
  description := some "Prints its arguments"
  arguments := some (.optional (.leaf "text" (.remaining false)) (some (.string "")) false)
  action := some fun _ context => do
    let text ← Action.one context "text"
    Reply.send (text.asString?.getD "")
    pure .succeeded

/-- A number, if it fits 32 bits. -/
def narrow (n : Int) : Option Int32 :=
  if Numeral.fits 32 n then some (Int32.ofInt n) else none

/-- An operation on two numbers that may have no result. -/
def binary (description : String) (op : Int → Int → Option Int) : SpecDraft where
  description := some description
  arguments := some (.sequence [.leaf "a" .integer, .leaf "b" .integer])
  action := some fun _ context => do
    let a ← int context "a"
    let b ← int context "b"
    match (op a.toInt b.toInt).bind narrow with
    | some value =>
      Reply.send (toString value.toInt)
      pure (.answer value)
    | none =>
      .fail (.error (.command
        ("Cannot compute " ++ toString a.toInt ++ " and " ++ toString b.toInt) false))

/-- Integer arithmetic. -/
def operations : List (List String × SpecDraft) := [
  (["add", "plus"], binary "Adds two numbers" fun a b => some (a + b)),
  (["sub"], binary "Subtracts b from a" fun a b => some (a - b)),
  (["mul"], binary "Multiplies two numbers" fun a b => some (a * b)),
  (["div"], binary "Divides a by b" fun a b => if b = 0 then none else some (a.tdiv b))]

/-- A word with flags for its volume and the number of times. -/
def greetGrammar : Element :=
  let flags : Element.FlagDeclarations := {}
  ((flags.declare ["l", "-loud"] none).declare ["t", "-times"]
    (some (.leaf "times" .integer))).around (.leaf "name" .string)

def greet : SpecDraft where
  description := some "Greets someone"
  arguments := some greetGrammar
  action := some fun _ context => do
    let name ← Action.one context "name"
    let plain := "Hello, " ++ name.text ++ "!"
    let greeting := if context.has "l" then Text.uppercase plain else plain
    let times := ((context.one? "times").bind Value.asInt?).getD 1
    Reply.sendAll (List.replicate times.toInt.toNat greeting)
    pure { success := some times }

def time : SpecDraft where
  description := some "Shows the local time, optionally shifted"
  extended := some "Offsets use ISO-8601 or shorthand such as 90m or 1d2h."
  arguments := some (.optional (.leaf "offset" .duration) (some (.duration .zero)) false)
  action := some fun env context => do
    let offset := ((context.one? "offset").bind Value.asDuration?).getD .zero
    match env.now.add? offset with
    | some t =>
      Reply.send (t.clockText " ")
      pure .succeeded
    | none => .fail (.panic (some "\x60NaiveDateTime + TimeDelta\x60 overflowed"))

/-- Lists the commands there are. -/
def help : SpecDraft where
  description := some "Lists the available commands"
  action := some fun env _ => do
    match env.listing with
    | some text => Reply.sendAll (Text.lines text)
    | none => pure ()
    pure .succeeded

/-- One sample command registered. -/
def registerDraft (m : Manager) (d : SpecDraft) (aliases : List String) :
    Supply (Except Error Manager) := do
  match ← d.build with
  | .error e => return .error e
  | .ok spec => return (m.register owner (.spec spec) aliases).map (·.2)

def buildAll : List (List String × SpecDraft) →
    Supply (Except Error (List (List String × Callable)))
  | [] => return .ok []
  | (aliases, d) :: rest => do
    match ← d.build with
    | .error e => return .error e
    | .ok spec => return (← buildAll rest).map ((aliases, .spec spec) :: ·)

/-- Sample commands registered one after the other, up to the first that cannot be. The commands
before it stay. -/
def registerAll (m : Manager) : List (List String × SpecDraft) →
    Supply (Manager × Except Error Unit)
  | [] => return (m, .ok ())
  | (aliases, d) :: rest => do
    match ← registerDraft m d aliases with
    | .error e => return (m, .error e)
    | .ok m => registerAll m rest

/-- The sample commands registered with a manager. -/
def register (m : Manager) : Supply (Manager × Except Error Unit) := do
  match ← buildAll operations with
  | .error e => return (m, .error e)
  | .ok children =>
    let math : SpecDraft := { description := some "Integer arithmetic", children }
    registerAll m [(["echo", "say"], echo), (["math"], math), (["greet"], greet), (["time"], time),
      (["help", "?"], help)]

end CommandGrammar.Demo
