import CommandGrammar.Calendar.DateTime
import CommandGrammar.Context
import CommandGrammar.Error

/-!
# Sources and replies

Whoever types a command has a name and permissions, and receives lines. What is run for a source
replies with the lines it sends and with a result.
-/

namespace CommandGrammar

/-- Whoever types commands. -/
structure Source where
  name : String
  permits : String → Bool := fun _ => true
  locale : String := "en_US"

/-- A source with all permissions but some. -/
def Source.withDenied (name : String) (denied : List String) : Source :=
  { name, permits := fun p => !denied.contains p }

/-- A source that keeps the lines it receives. -/
structure BufferedSource where
  source : Source
  received : List String := []

namespace BufferedSource

def send (b : BufferedSource) (line : String) : BufferedSource :=
  { b with received := b.received ++ [line] }

/-- The lines received, and the source without them. -/
def take (b : BufferedSource) : List String × BufferedSource :=
  (b.received, { b with received := [] })

end BufferedSource

/-- What surrounds the running of a command: its source, the local time, and the text that lists
the commands there are. -/
structure Env where
  source : Source
  now : DateTime
  listing : Option String := none

/-- Lines sent, and a result. -/
structure Reply (ε α : Type) where
  lines : List String := []
  result : Except ε α

namespace Reply

variable {ε δ α β : Type}

/-- A result without lines. -/
def ok (a : α) : Reply ε α := ⟨[], .ok a⟩

/-- A failure without lines. -/
def fail (e : ε) : Reply ε α := ⟨[], .error e⟩

def send (line : String) : Reply ε Unit := ⟨[line], .ok ()⟩

/-- One reply after the other; a failure is the last. -/
def bind (r : Reply ε α) (f : α → Reply ε β) : Reply ε β :=
  match r.result with
  | .ok a =>
    let s := f a
    ⟨r.lines ++ s.lines, s.result⟩
  | .error e => ⟨r.lines, .error e⟩

instance : Monad (Reply ε) where
  pure := ok
  bind := bind

/-- The reply with its failure changed. -/
def mapError (f : ε → δ) (r : Reply ε α) : Reply δ α :=
  ⟨r.lines, r.result.mapError f⟩

/-- A result that is there already. -/
def ofExcept (r : Except ε α) : Reply ε α := ⟨[], r⟩

def sendAll (lines : List String) : Reply ε Unit := ⟨lines, .ok ()⟩

end Reply

/-- What a command did: how often it succeeded, and a number it was asked for. -/
structure Outcome where
  success : Option Int32 := none
  query : Option Int32 := none
  deriving DecidableEq, Repr

namespace Outcome

/-- Nothing worth telling. -/
def empty : Outcome := {}

def succeeded : Outcome := { success := some 1 }

def answer (n : Int32) : Outcome := { query := some n }

/-- Whether nothing is told. -/
def isEmpty (o : Outcome) : Bool :=
  o.success.isNone && o.query.isNone

end Outcome

/-- Why a run stopped: an error, or a breakdown with the text it left. -/
inductive Stop where
  | error (e : Error)
  | panic (text : Option String)
  deriving DecidableEq, Repr

/-- What a command does with the values its arguments were read as. -/
abbrev Action := Env → Context → Reply Stop Outcome

end CommandGrammar
