import CommandGrammar.Proofs.Cursor
import CommandGrammar.Proofs.Grammar.Tree
import CommandGrammar.Proofs.Reading

/-!
# Behaviours of trees

The behaviour of a node, a command or a dispatcher, said with the tree it is the behaviour of: what
an alias stands for there is the behaviour of what it stands for in the tree.
-/

namespace CommandGrammar

theorem Multimap.lookup_map {V W : Type} (f : V → W) (key : String)
    (es : List (String × List V)) :
    lookup key (es.map fun (k, vs) => (k, vs.map f)) = (lookup key es).map (List.map f) := by
  induction es with
  | nil => rfl
  | cons e es ih =>
      obtain ⟨k, vs⟩ := e
      simp only [List.map_cons, lookup, ih]
      split <;> rfl

theorem Multimap.values_map {V W : Type} (f : V → W) (m : Multimap V) (key : String) :
    (m.map f).values key = (m.values key).map f := by
  simp only [values, get?, map, lookup_map]
  cases lookup key m.entries <;> rfl

/-- A registered command with the command changed. -/
def Mapping.map {C D : Type} (f : C → D) (m : Mapping C) : Mapping D :=
  ⟨m.name, f m.callable⟩

@[simp] theorem Mapping.map_name {C D : Type} (f : C → D) (m : Mapping C) :
    (m.map f).name = m.name := rfl

@[simp] theorem Mapping.map_callable {C D : Type} (f : C → D) (m : Mapping C) :
    (m.map f).callable = f m.callable := rfl

namespace Dispatcher

variable {C D : Type}

/-- The dispatcher with its commands changed one by one. -/
def map (f : C → D) (d : Dispatcher C) : Dispatcher D :=
  ⟨d.policy, d.table.map (Mapping.map f), d.nextId⟩

theorem all_map (f : C → D) (d : Dispatcher C) (key : String) :
    (d.map f).all key = (d.all key).map (Mapping.map f) :=
  Multimap.values_map (Mapping.map f) d.table _

/-- Which command an alias stands for does not depend on what the commands do. -/
theorem get?_map (f : C → D) (d : Dispatcher C) (source : Option Source) (key : String) :
    (d.map f).get? source key = (d.get? source key).map (Mapping.map f) := by
  unfold get?
  rw [all_map]
  match d.all key with
  | [] => rfl
  | [m] => rfl
  | m :: n :: ms =>
      have names : ((m :: n :: ms).map (Mapping.map f)).map (·.name) =
          (m :: n :: ms).map (·.name) := by
        simp [Function.comp_def]
      change ((d.policy source key (((m :: n :: ms).map (Mapping.map f)).map (·.name))).bind
          fun i => ((m :: n :: ms).map (Mapping.map f))[i]?) =
        ((d.policy source key ((m :: n :: ms).map (·.name))).bind
          fun i => (m :: n :: ms)[i]?).map (Mapping.map f)
      rw [names, Option.map_bind]
      simp only [List.getElem?_map, Function.comp_def]

theorem ofId?_map (f : C → D) (d : Dispatcher C) (id : Nat) :
    (d.map f).ofId? id = (d.ofId? id).map (Mapping.map f) := by
  have values : (d.map f).table.allValues = d.table.allValues.map (Mapping.map f) := by
    simp only [map, Multimap.map, Multimap.allValues, List.flatMap_map, List.map_flatMap]
  simp only [ofId?, values, List.find?_map]
  rfl

theorem keysFor_map (f : C → D) (d : Dispatcher C) (typed : String) :
    (d.map f).keysFor typed = d.keysFor typed := by
  have keys : (d.map f).table.keys = d.table.keys := by
    simp [map, Multimap.map, Multimap.keys, Function.comp_def]
  simp only [keysFor, keys]

theorem mem_callables_of_all {d : Dispatcher C} {key : String} {m : Mapping C} (h : m ∈ d.all key) :
    m.callable ∈ d.callables := by
  refine List.mem_map_of_mem (Multimap.mem_allValues.mpr ?_)
  have inEntries : ∀ {es : List (String × List (Mapping C))} {k : String},
      m ∈ (Multimap.lookup k es).getD [] → ∃ e ∈ es, m ∈ e.2 := by
    intro es k
    induction es with
    | nil => simp [Multimap.lookup]
    | cons e es ih =>
        simp only [Multimap.lookup]
        split
        · intro found
          exact ⟨e, List.mem_cons_self, found⟩
        · intro found
          obtain ⟨e', he', hm⟩ := ih found
          exact ⟨e', List.mem_cons_of_mem _ he', hm⟩
  exact inEntries h

theorem mem_all_of_get? {d : Dispatcher C} {source : Option Source} {key : String} {m : Mapping C}
    (h : d.get? source key = some m) : m ∈ d.all key := by
  unfold get? at h
  split at h
  · simp at h
  · rename_i found
    simp_all
  · rw [Option.bind_eq_some_iff] at h
    obtain ⟨i, -, found⟩ := h
    exact List.mem_of_getElem? found

theorem mem_callables_of_get? {d : Dispatcher C} {source : Option Source} {key : String}
    {m : Mapping C} (h : d.get? source key = some m) : m.callable ∈ d.callables :=
  mem_callables_of_all (mem_all_of_get? h)

theorem mem_callables_of_ofId? {d : Dispatcher C} {id : Nat} {m : Mapping C}
    (h : d.ofId? id = some m) : m.callable ∈ d.callables :=
  List.mem_map_of_mem (List.mem_of_find?_eq_some h)

end Dispatcher

/-! ## Flags -/

def FlagTable.scanner (table : FlagTable) (values : List Element) : FlagScanner :=
  ⟨table, Element.parsers values⟩

@[simp] theorem FlagTable.scanner_table (table : FlagTable) (values : List Element) :
    (table.scanner values).table = table := rfl

theorem FlagTable.scanner_value {table : FlagTable} {values : List Element} {index : Nat}
    {e : Element} (h : values[index]? = some e) :
    (table.scanner values).value index = e.parser := by
  simp [FlagScanner.value, scanner, Element.parsers_eq_map, h]

theorem FlagTable.scanner_value_none {table : FlagTable} {values : List Element} {index : Nat}
    (h : values[index]? = none) : (table.scanner values).value index = .sequence [] := by
  simp [FlagScanner.value, scanner, Element.parsers_eq_map, h]

/-! ## Nodes, commands and dispatchers -/

theorem Callable.behaviours_eq_map (d : Dispatcher Callable) :
    Callable.behaviours d = d.map Callable.command :=
  Callable.behaviours_eq d

namespace Subcommands

@[simp] theorem toNode_key (n : Subcommands) : n.toNode.key = n.key := by
  cases n; rfl

@[simp] theorem toNode_action (n : Subcommands) : n.toNode.action = n.action := by
  cases n; rfl

theorem toNode_fallback (n : Subcommands) : n.toNode.fallback = n.fallback.map Element.parser := by
  cases n with
  | mk key action fallback commands onFail => exact Element.parser?_eq_map fallback

theorem toNode_commands (n : Subcommands) : n.toNode.commands = n.commands.map Callable.command := by
  cases n with
  | mk key action fallback commands onFail => exact Callable.behaviours_eq_map commands

theorem toNode_get? (n : Subcommands) (env : Env) (typed : String) :
    n.toNode.commands.get? (some env.source) typed =
      (n.commands.get? (some env.source) typed).map (Mapping.map Callable.command) := by
  rw [toNode_commands, Dispatcher.get?_map]

theorem toNode_get?_some {n : Subcommands} {env : Env} {typed : String} {m : Mapping Callable}
    (h : n.commands.get? (some env.source) typed = some m) :
    n.toNode.commands.get? (some env.source) typed = some (m.map Callable.command) := by
  rw [toNode_get?, h]; rfl

theorem toNode_get?_none {n : Subcommands} {env : Env} {typed : String}
    (h : n.commands.get? (some env.source) typed = none) :
    n.toNode.commands.get? (some env.source) typed = none := by
  rw [toNode_get?, h]; rfl

theorem toNode_fallback_some {n : Subcommands} {e : Element} (h : n.fallback = some e) :
    n.toNode.fallback = some e.parser := by
  rw [toNode_fallback, h]; rfl

theorem toNode_fallback_none {n : Subcommands} (h : n.fallback = none) :
    n.toNode.fallback = none := by
  rw [toNode_fallback, h]; rfl

/-- Where a token is left, a node reads what that names. -/
theorem read_of_next {n : Subcommands} {env : Env} {s : State} {typed : String} {c : Cursor}
    (word : s.cursor.next? = some (typed, c)) : n.toNode.read env s = n.toNode.readNamed env s := by
  have more : s.cursor.hasNext = true := Cursor.hasNext_of_next?_some word
  unfold Node.read
  rw [Reading.bind_of_ok (Reading.hasNext_apply s), more]
  simp

theorem toNode_argumentsKey (n : Subcommands) : n.toNode.argumentsKey = n.key ++ "_args" := by
  rw [Node.argumentsKey, toNode_key]

end Subcommands

namespace Spec

open Reading

/-- Whether a source holds the permission of a command. -/
def permits (s : Spec) (source : Source) : Bool :=
  s.permission.all source.permits

@[simp] theorem behaviour_permits (s : Spec) (source : Source) :
    s.behaviour.permits source = s.permits source := by
  cases s; rfl

@[simp] theorem behaviour_core (s : Spec) : s.behaviour.core = s.body.core := by
  cases s; rfl

/-- The grammar of a command as an element: its own arguments and then its node. -/
def grammar (s : Spec) : Element :=
  match s.own, s.body with
  | none, .action _ => .sequence []
  | some e, .action _ => e
  | none, .subcommands n => .child n
  | some e, .subcommands n => .sequence [e, .child n]

theorem behaviour_grammar (s : Spec) : s.behaviour.grammar = s.grammar.parser := by
  cases s with
  | mk own body description extended permission tokenizer =>
      cases own <;> cases body <;> rfl

@[simp] theorem behaviour_tokenizer (s : Spec) : s.behaviour.tokenizer = s.tokenizer := by
  cases s; rfl

/-- The check at the end of a line passes where no token is left. -/
theorem finish_eq_ok {u t : State} :
    (do if ← hasNext then
          let _ ← next
          reject "Too many arguments!" : Reading Unit) u = .ok () t ↔
      u.cursor.remaining = [] ∧ u = t := by
  rw [bind_of_ok (hasNext_apply u)]
  by_cases empty : u.cursor.remaining = []
  · have ended := Cursor.hasNext_eq_false_iff.2 empty
    simp [ended, empty]
  · rw [if_pos (Cursor.hasNext_iff.2 empty), bind_apply]
    cases next u <;> simp [empty]

/-- All tokens that are left are read when the grammar reads and leaves none. -/
theorem populate_eq_ok {s : Spec} {env : Env} {entry t : State} :
    s.behaviour.populate env entry = .ok () t ↔
      s.behaviour.grammar.parse env entry = .ok () t ∧ t.cursor.remaining = [] := by
  rw [Specified.populate, bind_eq_ok]
  constructor
  · rintro ⟨⟨⟩, u, parsed, rest⟩
    obtain ⟨empty, rfl⟩ := finish_eq_ok.1 rest
    exact ⟨parsed, empty⟩
  · rintro ⟨parsed, empty⟩
    exact ⟨(), t, parsed, finish_eq_ok.2 ⟨empty, rfl⟩⟩

end Spec

/-! ## Properties of the parts

What is true of the behaviours of the parts of an element is true of what the element is made of. -/

section Parts

variable {P : Parser → Prop}

theorem Element.forall_parsers {es : List Element} (h : ∀ e ∈ es, P e.parser) :
    ∀ p ∈ Element.parsers es, P p := by
  rw [Element.parsers_eq_map]
  intro p hp
  obtain ⟨e, he, rfl⟩ := List.mem_map.mp hp
  exact h e he

theorem FlagTable.forall_value (table : FlagTable) {values : List Element}
    (none : P (.sequence [])) (h : ∀ e ∈ values, P e.parser) (index : Nat) :
    P ((table.scanner values).value index) := by
  cases there : values[index]? with
  | none =>
      rw [FlagTable.scanner_value_none there]
      exact none
  | some e =>
      rw [FlagTable.scanner_value there]
      exact h e (List.mem_of_getElem? there)

theorem Spec.forall_grammar {s : Spec} (sequence : ∀ ps, (∀ p ∈ ps, P p) → P (.sequence ps))
    (h : ∀ e ∈ s.parts, P e.parser) : P s.behaviour.grammar := by
  rw [Spec.behaviour_grammar]
  cases s with
  | mk own body description extended permission tokenizer =>
      cases own with
      | none =>
          cases body with
          | action a => exact sequence [] fun p hp => nomatch hp
          | subcommands n => exact h (.child n) (by simp [Spec.parts, Spec.own, Spec.body])
      | some e =>
          cases body with
          | action a => exact h e (by simp [Spec.parts, Spec.own])
          | subcommands n => exact sequence _ (Element.forall_parsers h)

theorem Subcommands.forall_fallback {n : Subcommands}
    (h : ∀ e ∈ (Element.child n).parts, P e.parser) (p : Parser)
    (there : n.toNode.fallback = some p) : P p := by
  rw [toNode_fallback, Option.map_eq_some_iff] at there
  obtain ⟨e, own, rfl⟩ := there
  exact h e (List.mem_append_left _ (by simp [own]))

/-- Only specified commands read in place. -/
theorem Callable.program_eq_none {c : Callable} (unspecified : ∀ s, c ≠ .spec s) :
    c.command.program = none := by
  cases c with
  | spec s => exact absurd rfl (unspecified s)
  | dispatcher d | raw r => rfl

/-- A subcommand that reads in place is a specified one, and its parts are parts of the node. -/
theorem Subcommands.program_of_get? {n : Subcommands} {env : Env} {typed : String}
    {m : Mapping Command} (named : n.toNode.commands.get? (some env.source) typed = some m)
    {p : Program} (program : m.callable.program = some p) :
    ∃ s : Spec, p = s.behaviour.program ∧ .spec s ∈ n.commands.callables ∧
      ∀ e ∈ s.parts, e ∈ (Element.child n).parts := by
  rw [toNode_get?, Option.map_eq_some_iff] at named
  obtain ⟨m, named, rfl⟩ := named
  have registered := Dispatcher.mem_callables_of_get? named
  rw [Mapping.map_callable] at program
  cases c : m.callable with
  | spec s =>
      rw [c] at program registered
      cases program
      exact ⟨s, rfl, registered, fun e he =>
        List.mem_append_right _ (List.mem_flatMap.mpr ⟨_, registered, he⟩)⟩
  | dispatcher d | raw r =>
      rw [c] at program
      cases program

end Parts

end CommandGrammar
