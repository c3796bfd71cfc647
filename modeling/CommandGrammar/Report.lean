/-!
# Reports

Lines that tell a source what went wrong. Text of unknown origin is made plain first: a tab becomes
four spaces and every line ending a line feed.
-/

namespace CommandGrammar.Report

/-- A line about an error. -/
def error (text : String) : String :=
  "[ERROR] " ++ text

/-- Tabs as four spaces. -/
def spaceTabs (cs : List Char) : List Char :=
  cs.flatMap fun c => if c = '\t' then [' ', ' ', ' ', ' '] else [c]

/-- A carriage return with its line feed as a line feed. -/
def joinEndings : List Char → List Char
  | '\r' :: '\n' :: rest => '\n' :: joinEndings rest
  | c :: rest => c :: joinEndings rest
  | [] => []

/-- A carriage return as a line feed. -/
def feedReturns (cs : List Char) : List Char :=
  cs.map fun c => if c = '\r' then '\n' else c

def plain (text : String) : String :=
  String.ofList (feedReturns (joinEndings (spaceTabs text.toList)))

/-- A line about a failure that was not foreseen. -/
def fault (text : String) : String :=
  error ("Error occurred while executing command: " ++ plain text)

/-- A failure and those that caused it, one after the other. -/
def chain (text : String) (causes : List String) : String :=
  String.join (text :: causes.map ("\nCaused by: " ++ ·))

end CommandGrammar.Report
