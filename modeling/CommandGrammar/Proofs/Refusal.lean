import CommandGrammar.Proofs.Nesting

/-!
# Failures below commands

A command that only has subcommands has read nothing when one of them cannot read what it is given.
It tells what was told there, with the word that named the subcommand put before the usage. On the way
up through several commands the usage so grows by the words that were typed.
-/

namespace CommandGrammar

open Reading

/-- The state with so many tokens more consumed. -/
def State.skip (s : State) (n : Nat) : State :=
  { s with cursor := { s.cursor with consumed := s.cursor.consumed + n } }

theorem State.skip_skip (s : State) (m n : Nat) : (s.skip m).skip n = s.skip (m + n) := by
  simp [skip, Nat.add_assoc]

/-- Reading a token skips it. -/
theorem State.of_next? {s : State} {v : String} {c : Cursor} (h : s.cursor.next? = some (v, c)) :
    { s with cursor := c } = s.skip 1 := by
  rw [(Cursor.of_next? h).1]
  rfl

namespace Spec

/-- Words lead from a command down to another through commands that have subcommands, but neither
arguments nor an action of their own. -/
inductive Leads (env : Env) : Spec → List String → Spec → Prop
  | here (s : Spec) : Leads env s [] s
  | down {s n word m s' words t} (own : Spec.own s = none) (body : Spec.body s = .subcommands n)
      (action : n.action = none) (fallback : n.fallback = none)
      (named : n.commands.get? (some env.source) word = some m) (leads : m.callable = .spec s')
      (rest : Leads env s' words t) : Leads env s (word :: words) t

variable {env : Env} {s t : Spec} {entry u : State} {e : ParseError}

/-- One level: nothing has been read, and the word stands before the usage that was told below, or
before that of the subcommand. -/
theorem populate_of_refused {n : Subcommands} {word : String} {m : Mapping Callable} {c : Cursor}
    (own : s.own = none) (body : s.body = .subcommands n) (action : n.action = none)
    (fallback : n.fallback = none) (named : n.commands.get? (some env.source) word = some m)
    (leads : m.callable = .spec t) (next : entry.cursor.next? = some (word, c))
    (refused : t.behaviour.populate env { entry with cursor := c } = .error e u) :
    s.behaviour.populate env entry = .error
      (e.withUsage (word ++ " " ++ e.usage.getD (t.grammar.parser.usage env.source))) entry := by
  have grammar : s.behaviour.grammar.parse env = n.toNode.read env := by
    rw [behaviour_grammar, Spec.grammar, own, body]
    rfl
  have read := Subcommands.read_named entry action fallback named leads next
  have usage : t.behaviour.command.usage = t.grammar.parser.usage := by
    change t.behaviour.grammar.usage = _
    rw [behaviour_grammar]
  simp only [refused, Node.failureUsage, usage] at read
  rw [← grammar] at read
  exact bind_of_error read _

/-- A command that words lead down from refuses the line where the command at the end of the way
refuses what follows the words. It tells the same message at the same place of the same line, with all
the words before the usage, and the cursor and the values are as they were before the first word. -/
theorem Leads.populate_refused {words : List String} (way : Leads env s words t) (nonempty : words ≠ [])
    {rest : List String} (typed : entry.cursor.remaining = words ++ rest)
    (refused : t.behaviour.populate env (entry.skip words.length) = .error e u) :
    s.behaviour.populate env entry = .error
      { e with usage := some (String.intercalate " " words ++ " " ++
          e.usage.getD (t.grammar.parser.usage env.source)) } entry := by
  -- Induction on the way; what is told at the second word on is told below the first one.
  induction way generalizing entry u with
  | here => exact absurd rfl nonempty
  | @down s n word m s' words t own body action fallback named leads below ih =>
      obtain ⟨c, next, left⟩ := Cursor.next?_of_remaining typed
      cases words with
      | nil =>
          cases below
          rw [List.length_singleton, ← State.of_next? next] at refused
          rw [populate_of_refused own body action fallback named leads next refused,
            String.intercalate_singleton]
          rfl
      | cons second words =>
          rw [List.length_cons, Nat.add_comm, ← State.skip_skip, ← State.of_next? next] at refused
          have told := ih (List.cons_ne_nil _ _) left refused
          rw [populate_of_refused own body action fallback named leads next told,
            String.intercalate_cons_of_ne_nil (List.cons_ne_nil _ _)]
          simp [ParseError.withUsage, String.append_assoc]

/-- A number that is none, two commands down. -/
theorem Leads.populate_refused_two_deep :
    let add : Spec := .mk (some (.leaf "n" .integer)) (.action (Action.require "n")) none none none
      (.words {})
    let inner := (Subcommands.mk "child1" none none .empty false).registerAll [(["add"], .spec add)]
    let math : Spec := .mk none (.subcommands inner) none none none (.words {})
    let outer := (Subcommands.mk "child0" none none .empty false).registerAll [(["math"], .spec math)]
    let top : Spec := .mk none (.subcommands outer) none none none (.words {})
    let now : DateTime :=
      ⟨{ year := 2001, month := 2, day := 3 }, { hour := 4, minute := 5, second := 6, nano := 0 }⟩
    let env : Env := { source := { name := "ann" }, now }
    let entry : State :=
      ⟨.ofTokens "Math add x" [⟨"Math", 0, 4⟩, ⟨"add", 5, 8⟩, ⟨"x", 9, 10⟩], .empty⟩
    Leads env top ["Math", "add"] add ∧ entry.cursor.remaining = ["Math", "add"] ++ ["x"] ∧
      top.behaviour.populate env entry = .error
        ⟨"Expected an integer, but input 'x' was not", "Math add x", 9, some "Math add <n>"⟩ entry := by
  intro add inner math outer top now env entry
  have way : Leads env top ["Math", "add"] add :=
    .down rfl rfl rfl rfl rfl rfl (.down rfl rfl rfl rfl rfl rfl (.here add))
  let told : ParseError := ⟨"Expected an integer, but input 'x' was not", "Math add x", 9, none⟩
  have refused : add.behaviour.populate env (entry.skip 2) = .error told (entry.skip 3) := rfl
  have typed : entry.cursor.remaining = ["Math", "add"] ++ ["x"] := rfl
  have passed := way.populate_refused (List.cons_ne_nil _ _) typed refused
  have usage : String.intercalate " " ["Math", "add"] ++ " " ++
      add.grammar.parser.usage env.source = "Math add <n>" := by decide +kernel
  exact ⟨way, typed, usage ▸ passed⟩

end Spec

end CommandGrammar
