import CommandGrammar.Action
import CommandGrammar.Proofs.Grammar.Behaviour

/-!
# A node's own arguments

A node with an action may have arguments of its own, for lines whose first word names no subcommand.
Reading leaves such a line to them. Completing asks them as well, but keeps what they offer only while
that word is the last one.
-/

namespace CommandGrammar

open Reading

namespace Subcommands

variable {n : Subcommands} {a : Action} {own : Element} {env : Env} {s : State} {typed : String}
  {c : Cursor}

theorem read_unnamed (action : n.action = some a) (fallback : n.fallback = some own)
    (word : s.cursor.next? = some (typed, c))
    (unnamed : n.commands.get? (some env.source) typed = none) :
    n.toNode.read env s = own.parser.parse env s := by
  rw [read_of_next word, Node.readNamed, word]
  simp only [toNode_get?_none unnamed, toNode_action, action, toNode_fallback_some fallback]

/-- The last word may go on to an alias, or be one of the node's own arguments. -/
theorem mem_offers_last {o : String} (fallback : n.fallback = some own)
    (word : s.cursor.next? = some (typed, c)) (last : c.hasNext = false) :
    o ∈ (n.toNode.complete env s).offers ↔
      o ∈ (own.parser.complete env s).offers ∨ o ∈ n.commands.keysFor typed := by
  have aliases : n.toNode.commands.keysFor typed = n.commands.keysFor typed := by
    rw [toNode_commands, Dispatcher.keysFor_map]
  simp only [Node.complete, word, last, Bool.false_eq_true, if_false, toNode_fallback_some fallback,
    Option.elim_some, aliases]
  exact mem_appendNew

/-- Behind a word that names no subcommand there are no offers. -/
theorem offers_unnamed (word : s.cursor.next? = some (typed, c)) (more : c.hasNext = true)
    (unnamed : n.commands.get? (some env.source) typed = none) :
    (n.toNode.complete env s).offers = [] := by
  simp only [Node.complete, word, more, if_true, toNode_get?_none unnamed]
  rfl

/-- Where the first word names no subcommand, a node with an action reads what its own arguments
read. It offers what they offer, and the aliases that the word begins, only while the word is the
last one; so it misses some of their offers just where more words follow and they have any. -/
theorem unnamed_explored (action : n.action = some a) (fallback : n.fallback = some own)
    (word : s.cursor.next? = some (typed, c))
    (unnamed : n.commands.get? (some env.source) typed = none) :
    (Element.child n).parser.parse env s = own.parser.parse env s ∧
      (∀ o, o ∈ ((Element.child n).parser.complete env s).offers ↔
        c.hasNext = false ∧
          (o ∈ (own.parser.complete env s).offers ∨ o ∈ n.commands.keysFor typed)) ∧
      ((∃ o ∈ (own.parser.complete env s).offers,
          o ∉ ((Element.child n).parser.complete env s).offers) ↔
        c.hasNext = true ∧ (own.parser.complete env s).offers ≠ []) := by
  have offers : ∀ o, o ∈ ((Element.child n).parser.complete env s).offers ↔
      c.hasNext = false ∧
        (o ∈ (own.parser.complete env s).offers ∨ o ∈ n.commands.keysFor typed) := by
    intro o
    change o ∈ (n.toNode.complete env s).offers ↔ _
    cases more : c.hasNext with
    | false => simp [mem_offers_last fallback word more]
    | true => simp [offers_unnamed word more unnamed]
  refine ⟨read_unnamed action fallback word unnamed, offers, ?_⟩
  constructor
  · rintro ⟨o, offered, missed⟩
    rw [offers] at missed
    cases more : c.hasNext with
    | false => exact absurd ⟨more, .inl offered⟩ missed
    | true => exact ⟨rfl, List.ne_nil_of_mem offered⟩
  · rintro ⟨more, some⟩
    obtain ⟨o, offered⟩ := List.exists_mem_of_ne_nil _ some
    refine ⟨o, offered, ?_⟩
    rw [offers, more]
    rintro ⟨⟨⟩, -⟩

/-- The first of two own arguments is offered for a word that it begins with. -/
theorem unnamed_explored_of_prefix :
    let own : Element :=
      .sequence [.choices "a" [("red", .bool true)], .choices "b" [("green", .bool true)]]
    let sub : Spec := .mk none (.action (Action.say "y" .empty)) none none none (.words {})
    let n : Subcommands := .mk "child0" (some (Action.say "x" .empty)) (some own)
      (Dispatcher.empty.register (.spec sub) ["sub"]).2 false
    let now : DateTime :=
      ⟨{ year := 2001, month := 2, day := 3 }, { hour := 4, minute := 5, second := 6, nano := 0 }⟩
    let env : Env := { source := .withDenied "ann" [], now }
    let s : State := ⟨⟨"re", [⟨"re", 0, 2⟩], 0⟩, .forCompletion⟩
    (n.commands.get? (some env.source) "re").isNone = true ∧
      (Element.child n).parser.parse env s = own.parser.parse env s ∧
      "red" ∈ ((Element.child n).parser.complete env s).offers := by
  intro own sub n now env s
  have unnamed : n.commands.get? (some env.source) "re" = none := rfl
  obtain ⟨parsed, offers, -⟩ := unnamed_explored (n := n) (s := s) rfl rfl rfl unnamed
  have offered : "red" ∈ (own.parser.complete env s).offers := by decide
  exact ⟨rfl, parsed, (offers "red").mpr ⟨rfl, .inl offered⟩⟩

/-- The second of two own arguments is offered by them for the second word of a line that names no
subcommand, but not by the node. -/
theorem unnamed_unexplored_of_two_words :
    let own : Element :=
      .sequence [.choices "a" [("red", .bool true)], .choices "b" [("green", .bool true)]]
    let sub : Spec := .mk none (.action (Action.say "y" .empty)) none none none (.words {})
    let n : Subcommands := .mk "child0" (some (Action.say "x" .empty)) (some own)
      (Dispatcher.empty.register (.spec sub) ["sub"]).2 false
    let now : DateTime :=
      ⟨{ year := 2001, month := 2, day := 3 }, { hour := 4, minute := 5, second := 6, nano := 0 }⟩
    let env : Env := { source := .withDenied "ann" [], now }
    let s : State := ⟨⟨"red gr", [⟨"red", 0, 3⟩, ⟨"gr", 4, 6⟩], 0⟩, .forCompletion⟩
    (n.commands.get? (some env.source) "red").isNone = true ∧
      (own.parser.complete env s).offers = ["green"] ∧
      ((Element.child n).parser.complete env s).offers = [] := by
  intro own sub n now env s
  exact ⟨rfl, by decide +kernel, by decide +kernel⟩

end Subcommands

end CommandGrammar
