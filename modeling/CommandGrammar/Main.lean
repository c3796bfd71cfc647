import CommandGrammar.Demo
import CommandGrammar.Shell
import Std.Time

/-!
# The console

A console for the sample commands: it reads lines from its standard input until that ends.
-/

namespace CommandGrammar.Console

def version : String := "cmdweave 0.1.0"

/-- How the console looks. -/
def config : ShellConfig where
  prompt := "cmdweave> "
  banner := some
    "cmdweave demo console. Type 'help' for commands, Tab to complete, Ctrl+D to exit."

/-- Whether the arguments ask for the version only. -/
def asksVersion (arguments : List String) : Bool :=
  arguments.any fun a => a == "-V" || a == "--version"

/-- A shell with the sample commands. -/
def shell : Except Error Shell :=
  match (Demo.register .empty).run 0 with
  | ((manager, .ok ()), _) => .ok { manager, config, script := [] }
  | ((_, .error e), _) => .error e

/-- A failure as it is printed, in red. -/
def failureText (e : Error) : String :=
  "\x1b[31mError: " ++ e.message ++ "\x1b[0m"

/-- A time of the system's calendar; a date out of range is taken for the first of 1970. -/
def dateTimeOf (t : Std.Time.PlainDateTime) : DateTime :=
  let date := Date.of? t.date.year.toInt t.date.month.toNat t.date.day.toNat
  let time := TimeOfDay.of? t.time.hour.toNat t.time.minute.toNat t.time.second.toNat
    t.time.nanosecond.toNat
  ⟨date.getD { year := 1970, month := 1, day := 1 }, time.getD .midnight⟩

def now : IO DateTime := do
  return dateTimeOf (← Std.Time.PlainDateTime.now)

/-- One line after the other, each run with the time at which it was read. -/
partial def converse (stdin : IO.FS.Stream) (s : Shell) : IO UInt32 := do
  IO.print s.config.prompt
  (← IO.getStdout).flush
  let line ← stdin.getLine
  if line.isEmpty then return 0
  let env : Env := { source := { name := s.config.sourceName }, now := ← now }
  let (lines, result, s) := { s with script := [.line line] }.step env
  lines.forM IO.println
  match result with
  | .ok true => converse stdin s
  | .ok false => return 0
  | .error e => do
    IO.eprintln (failureText e)
    return 1

/-- The console, or its version if that is asked for. -/
def run (arguments : List String) : IO UInt32 := do
  if asksVersion arguments then
    IO.println version
    return 0
  match shell with
  | .error e => do
    IO.eprintln (failureText e)
    return 1
  | .ok s => do
    s.config.banner.forM IO.println
    converse (← IO.getStdin) s

end CommandGrammar.Console

/-- The console as a program. -/
def main (arguments : List String) : IO UInt32 :=
  CommandGrammar.Console.run arguments
