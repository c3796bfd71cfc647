import CommandGrammar.Source

/-!
# Simple actions

Actions that show what was read, answer with it, or stop.
-/

namespace CommandGrammar.Action

/-- Sends a text and has a given outcome. -/
def say (text : String) (outcome : Outcome) : Action := fun _ _ =>
  ⟨[text], .ok outcome⟩

def fail (e : Error) : Action := fun _ _ => .fail (.error e)

/-- Breaks down, leaving a text or none. -/
def panic (text : Option String) : Action := fun _ _ => .fail (.panic text)

def keyLine (lead : String) (context : Context) (key : String) : String :=
  lead ++ key ++ "=" ++ String.intercalate "," ((context.all key).map Value.text)

/-- Sends a line for each key, with a lead before it. -/
def dump (lead : String) : Action := fun _ context =>
  ⟨context.keys.map (keyLine lead context), .ok .succeeded⟩

/-- The only value under a key, or a stop. -/
def one (context : Context) (key : String) : Reply Stop Value :=
  .ofExcept ((context.one key).mapError fun e => .error (.context e))

/-- Sends the only value under a key, and answers with it if it is a number, else with minus
one. -/
def require (key : String) : Action := fun _ context => do
  let v ← one context key
  Reply.send (key ++ ": " ++ v.text)
  pure (.answer (v.asInt?.getD (-1)))

end CommandGrammar.Action
