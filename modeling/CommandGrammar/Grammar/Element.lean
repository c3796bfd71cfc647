import CommandGrammar.Grammar.Choice
import CommandGrammar.Grammar.Combinator
import CommandGrammar.Grammar.Flags
import CommandGrammar.Grammar.Leaf
import CommandGrammar.Grammar.Spec

/-!
# Grammars

The grammar of a command is a tree of elements; subcommands make it a tree of commands as well. One
fold takes each tree to its behaviour, so what an element does is said by the combinator of its
constructor.
-/

namespace CommandGrammar

mutual

/-- A part of a grammar. -/
inductive Element where
  /-- Elements one after the other. -/
  | sequence (items : List Element)
  /-- The first element that reads. -/
  | firstOf (items : List Element)
  /-- An element that may be absent, with the value that then stands for it; a weak one counts as
  absent whenever it does not read. -/
  | optional (item : Element) (default : Option Value) (weak : Bool)
  /-- An element so many times. -/
  | repeated (item : Element) (times : Nat)
  /-- An element until the tokens run out. -/
  | allOf (item : Element)
  /-- An element whose key may hold one value. -/
  | onlyOne (item : Element)
  /-- One name of a set. -/
  | choice (key : String) (c : Choice)
  /-- All names that a text selects. -/
  | selection (key : String) (s : Selection)
  /-- A phrase to be written as it is. -/
  | phrase (key : Option String) (p : Phrase)
  /-- A typed argument. -/
  | leaf (key : String) (l : Leaf)
  /-- Flags with the elements of their values, around the other arguments. -/
  | flags (table : FlagTable) (values : List Element) (body : Element)
  /-- An element with offers of its own. -/
  | suggesting (item : Element) (suggestions : Source → List String) (requireBegin : Bool)
  /-- An element with some of its offers. -/
  | constrained (item : Element) (keep : String → Bool)
  /-- A node of subcommands. -/
  | child (node : Subcommands)

/-- A node of subcommands. -/
inductive Subcommands where
  | mk (key : String) (action : Option Action) (fallback : Option Element)
      (commands : Dispatcher Callable) (fallbackOnFail : Bool)

/-- What can be registered under an alias. -/
inductive Callable where
  | spec (s : Spec)
  | dispatcher (d : Dispatcher Callable)
  | raw (r : RawCommand)

/-- A specified command. -/
inductive Spec where
  | mk (own : Option Element) (body : Body) (description extended permission : Option String)
      (tokenizer : Tokenizer)

/-- What a specified command runs: an action, or a node of subcommands behind its own arguments. -/
inductive Body where
  | action (a : Action)
  | subcommands (n : Subcommands)

end

mutual

def Element.parser : Element → Parser
  | .sequence items => .sequence (Element.parsers items)
  | .firstOf items => .firstOf (Element.parsers items)
  | .optional item default weak => item.parser.optional default weak
  | .repeated item times => item.parser.repeated times
  | .allOf item => item.parser.allOf
  | .onlyOne item => item.parser.onlyOne
  | .choice key c => c.parser key
  | .selection key s => s.parser key
  | .phrase key p => p.parser key
  | .leaf key l => l.parser key
  | .flags table values body => .flagged ⟨table, Element.parsers values⟩ body.parser
  | .suggesting item suggestions requireBegin => item.parser.suggesting suggestions requireBegin
  | .constrained item keep => item.parser.constrained keep
  | .child node => node.toNode.parser

def Element.parsers : List Element → List Parser
  | [] => []
  | e :: rest => e.parser :: Element.parsers rest

/-- The behaviour of an element that may be missing. -/
def Element.parser? : Option Element → Option Parser
  | none => none
  | some e => some e.parser

def Subcommands.toNode : Subcommands → Node
  | .mk key action fallback commands fallbackOnFail =>
    ⟨key, action, Element.parser? fallback, Callable.behaviours commands, fallbackOnFail⟩

def Callable.behaviours : Dispatcher Callable → Dispatcher Command
  | ⟨policy, ⟨entries⟩, nextId⟩ => ⟨policy, ⟨Callable.entries entries⟩, nextId⟩

/-- The behaviours of the entries of an alias table. -/
def Callable.entries : List (String × List (Mapping Callable)) →
    List (String × List (Mapping Command))
  | [] => []
  | e :: rest => Callable.entry e :: Callable.entries rest

/-- The behaviours under one alias. -/
def Callable.entry : String × List (Mapping Callable) → String × List (Mapping Command)
  | (key, ms) => (key, Callable.mappings ms)

/-- The behaviours of some registered commands. -/
def Callable.mappings : List (Mapping Callable) → List (Mapping Command)
  | [] => []
  | m :: rest => Callable.mapping m :: Callable.mappings rest

/-- The behaviour of a registered command. -/
def Callable.mapping : Mapping Callable → Mapping Command
  | ⟨name, c⟩ => ⟨name, c.command⟩

/-- The behaviour of what can be registered. -/
def Callable.command : Callable → Command
  | .spec s => s.behaviour.command
  | .dispatcher d => (Callable.behaviours d).command
  | .raw r => r.command

def Spec.behaviour : Spec → Specified
  | .mk own body description extended permission tokenizer =>
    ⟨Element.parser? own, body.core, description, extended, permission, tokenizer⟩

/-- The behaviour of what a specified command runs. -/
def Body.core : Body → Core
  | .action a => .ofAction a
  | .subcommands n => .ofNode n.toNode

end

theorem Element.parsers_eq_map (es : List Element) :
    Element.parsers es = es.map Element.parser := by
  induction es with
  | nil => rfl
  | cons e es ih => simp [Element.parsers, ih]

theorem Element.parser?_eq_map (e : Option Element) : Element.parser? e = e.map Element.parser := by
  cases e <;> rfl

theorem Callable.mappings_eq_map (ms : List (Mapping Callable)) :
    Callable.mappings ms = ms.map fun m => ⟨m.name, m.callable.command⟩ := by
  induction ms with
  | nil => rfl
  | cons m ms ih =>
    obtain ⟨name, c⟩ := m
    simp [Callable.mappings, Callable.mapping, ih]

/-- Taking a dispatcher to its behaviour changes the commands in it one by one. -/
theorem Callable.behaviours_eq (d : Dispatcher Callable) :
    Callable.behaviours d =
      ⟨d.policy, d.table.map fun m => ⟨m.name, m.callable.command⟩, d.nextId⟩ := by
  obtain ⟨policy, ⟨entries⟩, nextId⟩ := d
  have h : Callable.entries entries =
      entries.map fun e => (e.1, e.2.map fun m => ⟨m.name, m.callable.command⟩) := by
    induction entries with
    | nil => rfl
    | cons e es ih =>
      obtain ⟨key, ms⟩ := e
      simp [Callable.entries, Callable.entry, ih, Callable.mappings_eq_map]
  simp [Callable.behaviours, Multimap.map, h]

end CommandGrammar
