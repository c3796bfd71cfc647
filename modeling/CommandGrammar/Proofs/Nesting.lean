import CommandGrammar.Action
import CommandGrammar.Proofs.Dispatcher
import CommandGrammar.Proofs.Grammar.Aligned
import CommandGrammar.Proofs.Grammar.Hidden
import Mathlib.Data.List.Nodup

/-!
# Commands below commands

A command that only has subcommands adds nothing of its own: a line that names one after the other
down to a command does what that command does with the rest of the line. Only the keys of the nodes
that were passed tell the difference.
-/

namespace CommandGrammar

open Reading Tokenizer

/-! ## The way down -/

/-- A subcommand that was named: its node, the word, and what is registered. -/
structure Link where
  node : Subcommands
  word : String
  mapping : Mapping Callable

namespace Link

def key (k : Link) : String :=
  k.node.key

/-- What is stored for the subcommand. -/
def handle (k : Link) : Value :=
  .any (.command k.node.key k.mapping.name)

/-- What is stored on a way down, from its end on. -/
def pairs (links : List Link) : List (String × Value) :=
  (links.map fun k => (k.key, k.handle)).reverse

theorem pairs_cons (k : Link) (links : List Link) :
    pairs (k :: links) = pairs links ++ [(k.key, k.handle)] := by
  simp [pairs]

theorem keys_pairs (links : List Link) : (pairs links).map (·.1) = (links.map key).reverse := by
  simp [pairs, List.map_reverse, Function.comp_def]

end Link

/-- Words lead from a command down to another through commands that have subcommands, but neither
arguments nor an action of their own, and that the source may run. -/
inductive Chain (env : Env) : Spec → List Link → Spec → Prop
  | here (s : Spec) : Chain env s [] s
  | down {s n word m s' links t} (own : Spec.own s = none) (body : Spec.body s = .subcommands n)
      (action : n.action = none) (fallback : n.fallback = none)
      (permitted : s.permits env.source = true) (numbered : n.commands.Numbered)
      (named : n.commands.get? (some env.source) word = some m) (leads : m.callable = .spec s')
      (rest : Chain env s' links t) : Chain env s (⟨n, word, m⟩ :: links) t

/-- Registering subcommands keeps their numbers apart. -/
theorem Subcommands.numbered_registerAll {n : Subcommands} (h : n.commands.Numbered)
    (children : List (List String × Callable)) : (n.registerAll children).commands.Numbered := by
  unfold registerAll
  induction children generalizing n with
  | nil => exact h
  | cons child children ih =>
      have one : (n.register child.1 child.2).2.commands.Numbered := by
        cases n with
        | mk key action fallback commands onFail => exact h.register child.2 child.1
      exact ih one

/-- A node without arguments of its own reads the named subcommand, or fails as that does. -/
theorem Subcommands.read_named {n : Subcommands} {env : Env} {word : String} {m : Mapping Callable}
    {s : Spec} (entry : State) {c : Cursor} (action : n.action = none) (fallback : n.fallback = none)
    (named : n.commands.get? (some env.source) word = some m) (leads : m.callable = .spec s)
    (next : entry.cursor.next? = some (word, c)) :
    n.toNode.read env entry = match s.behaviour.populate env { entry with cursor := c } with
      | .ok _ u => .ok () { u with
          context := u.context.put n.key (.any (.command n.key m.name)) }
      | .error e _ => .error (Node.failureUsage env.source word s.behaviour.command e) entry := by
  have below : n.toNode.populate (m.map Callable.command).callable env { entry with cursor := c } =
      s.behaviour.populate env { entry with cursor := c } := by
    rw [Mapping.map_callable, leads]
    rfl
  have read : n.toNode.read env entry = n.toNode.readNamed env entry := by
    unfold Node.read
    rw [bind_of_ok (hasNext_apply _), toNode_action, action]
    rfl
  rw [read, Node.readNamed, next]
  simp only [toNode_get?_some named, below]
  cases s.behaviour.populate env { entry with cursor := c } with
  | ok a u => simp only [store_apply, Node.handle, toNode_key, Mapping.map_name]
  | error e u =>
      simp only [Node.recover, toNode_fallback_none fallback, Mapping.map_callable, leads]
      cases n.toNode.fallbackOnFail <;> rfl

namespace Subcommands

variable {n : Subcommands} {context : Context} {m : Mapping Callable}

theorem selected?_of_stored {key : String} (numbered : n.commands.Numbered)
    (listed : m ∈ n.commands.all key)
    (stored : context.one? n.key = some (.any (.command n.key m.name))) :
    n.selected? context = some m := by
  have found : n.commands.ofId? m.name.id = some m := numbered.ofId?_of_all listed
  simp [selected?, stored, found]

/-- A node asks for the permission of the subcommand that the values name. -/
theorem select_of_spec {env : Env} {s : Spec} (selected : n.selected? context = some m)
    (leads : m.callable = .spec s) (permitted : s.permits env.source = true) :
    n.toNode.select env context = s.body.core.select env context := by
  unfold Node.select
  rw [toNode_selected?, selected]
  simp only [Option.map_some, Mapping.map_callable, leads]
  change (if s.behaviour.permits env.source then s.behaviour.core.select env context
    else .refuse .denied) = _
  rw [Spec.behaviour_permits, permitted, if_pos rfl, Spec.behaviour_core]

/-- A subcommand without a grammar is handed the text that was stored for it. -/
theorem select_of_text {env : Env} (selected : n.selected? context = some m)
    (unspecified : ∀ s, m.callable ≠ .spec s) :
    n.toNode.select env context = m.callable.command.plan env (n.arguments context) := by
  unfold Node.select
  rw [toNode_selected?, selected, toNode_argumentsKey]
  cases callable : m.callable with
  | spec s => exact absurd callable (unspecified s)
  | dispatcher d | raw r =>
      simp only [Option.map_some, Mapping.map_callable, callable]
      rfl

theorem select_of_unnamed {env : Env} {a : Action} (unnamed : context.one? n.key = none)
    (action : n.action = some a) : n.toNode.select env context = .run (.act a context) false := by
  have selected : n.selected? context = none := by simp [selected?, unnamed]
  unfold Node.select
  rw [toNode_selected?, selected, toNode_action, action]
  rfl

end Subcommands

/-- What comes of a line that goes on to another command, where something comes of the rest with
that one: the values are stored behind its own, or the same is told of a failure. -/
inductive Passed (pairs : List (String × Value)) :
    EStateM.Result ParseError State Unit → EStateM.Result ParseError State Unit → Prop
  | ok {u} : Passed pairs (.ok () u) (.ok () ⟨u.cursor, u.context.putAll pairs⟩)
  | error {e e' u v} (bare : e'.bare = e.bare) : Passed pairs (.error e u) (.error e' v)

theorem Passed.refl (x : EStateM.Result ParseError State Unit) : Passed [] x x := by
  cases x with
  | ok a u => exact .ok
  | error e u => exact .error rfl

theorem Passed.trans {ps qs : List (String × Value)} {x y z : EStateM.Result ParseError State Unit}
    (h : Passed ps x y) (h' : Passed qs y z) : Passed (ps ++ qs) x z := by
  cases h with
  | ok =>
      cases h' with
      | ok =>
          rw [← Context.putAll_append]
          exact .ok
  | error bare =>
      cases h' with
      | error bare' => exact .error (bare'.trans bare)

theorem Spec.populate_passed {s s' : Spec} {n : Subcommands} {m : Mapping Callable} {env : Env}
    {first : Token} (own : s.own = none) (body : s.body = .subcommands n) (action : n.action = none)
    (fallback : n.fallback = none)
    (named : n.commands.get? (some env.source) first.value = some m) (leads : m.callable = .spec s')
    (raw : String) (before after : List Token) (context : Context) :
    Passed [(n.key, .any (.command n.key m.name))]
      (s'.behaviour.populate env ⟨.between raw (before ++ [first]) after, context⟩)
      (s.behaviour.populate env ⟨.between raw before (first :: after), context⟩) := by
  have grammar : s.behaviour.grammar.parse env = n.toNode.read env := by
    rw [Spec.behaviour_grammar, Spec.grammar, own, body]
    rfl
  have read := Subcommands.read_named ⟨.between raw before (first :: after), context⟩ action fallback
    named leads Cursor.next?_between_cons
  rw [← grammar] at read
  cases below : s'.behaviour.populate env ⟨.between raw (before ++ [first]) after, context⟩ with
  | ok a u =>
      simp only [below] at read
      have passed := (Spec.populate_eq_ok.mp below).2
      rw [Spec.populate_eq_ok.mpr ⟨read, passed⟩]
      exact .ok
  | error e u =>
      simp only [below] at read
      rw [Specified.populate, bind_of_error read]
      exact .error rfl

namespace Chain

variable {env : Env} {s t : Spec} {links : List Link}

theorem permits (chain : Chain env s links t) (permitted : t.permits env.source = true) :
    s.permits env.source = true := by
  cases chain with
  | here => exact permitted
  | down _ _ _ _ above => exact above

/-- What is left behind the words is read by the command at the end, and what was named is stored
behind its values. -/
theorem populate (chain : Chain env s links t) {front : List Token}
    (words : front.map (·.value) = links.map (·.word)) (raw : String) (before after : List Token)
    (context : Context) :
    Passed (Link.pairs links)
      (t.behaviour.populate env ⟨.between raw (before ++ front) after, context⟩)
      (s.behaviour.populate env ⟨.between raw before (front ++ after), context⟩) := by
  induction chain generalizing front before with
  | here s =>
      obtain rfl := List.map_eq_nil_iff.mp words
      rw [List.append_nil]
      exact .refl _
  | down own body action fallback _ _ named leads _ ih =>
      obtain ⟨first, front, rfl, rfl, others⟩ := List.map_eq_cons_iff.mp words
      have below := ih others (before ++ [first])
      rw [List.append_assoc] at below
      rw [Link.pairs_cons]
      exact below.trans
        (Spec.populate_passed own body action fallback named leads raw before (front ++ after) context)

/-- The values that were stored lead down the same way again, past commands that the source may
run. -/
theorem select (chain : Chain env s links t) (permitted : t.permits env.source = true)
    {context : Context} (stored : ∀ k ∈ links, context.one? k.key = some k.handle) :
    s.body.core.select env context = t.body.core.select env context := by
  induction chain with
  | here s => rfl
  | @down s n word m s' links t own body action fallback _ numbered named leads rest ih =>
      have lower := ih permitted fun k hk => stored k (List.mem_cons_of_mem _ hk)
      have there : context.one? n.key = some (.any (.command n.key m.name)) :=
        stored ⟨n, word, m⟩ List.mem_cons_self
      have selected := Subcommands.selected?_of_stored numbered (Dispatcher.mem_all_of_get? named) there
      rw [← lower, body]
      exact Subcommands.select_of_spec selected leads (rest.permits permitted)

end Chain

/-! ## Whole lines -/

/-- What a command does with a text, and another with a line that leads to the first one and goes on
with that text: both refuse it and tell the same, or both run what the first one selects, with
values that differ under some keys only. -/
inductive Transparent (env : Env) (hidden : List String) (t s : Spec) (rest line : String) : Prop
  | refused {e e'}
      (direct : (Callable.spec t).command.process env rest = .fail (.error (.parse e)))
      (nested : (Callable.spec s).command.process env line = .fail (.error (.parse e')))
      (bare : e'.bare = e.bare)
  | ran {context context'} (read : t.Reads env rest context) (readNested : s.Reads env line context')
      (agree : context.AgreeOff hidden context')
      (direct : (Callable.spec t).command.process env rest =
        (t.body.core.select env context).carryOut env)
      (nested : (Callable.spec s).command.process env line =
        (t.body.core.select env context').carryOut env)
      (same : (t.body.core.select env context).AgreeOff hidden (t.body.core.select env context'))
      (blind : (∀ a c below, t.body.core.select env context = .run (.act a c) below →
          a.Blind hidden env) →
        (Callable.spec s).command.process env line = (Callable.spec t).command.process env rest)

namespace Spec

variable {env : Env} {s : Spec} {line : String}

theorem process_of_reads {context : Context} (permitted : s.permits env.source = true)
    (h : s.Reads env line context) :
    (Callable.spec s).command.process env line = (s.body.core.select env context).carryOut env := by
  have planned : s.behaviour.plan env line = s.body.core.select env context := by
    simp [Specified.plan, permitted, read_eq_ok.mpr h]
  exact congrArg (·.carryOut env) planned

theorem process_of_error {e : ParseError} (permitted : s.permits env.source = true)
    (h : s.behaviour.read env line = .error e) :
    (Callable.spec s).command.process env line = .fail (.error (.parse e)) := by
  have planned : s.behaviour.plan env line = .refuse (.parse e) := by
    simp [Specified.plan, permitted, h]
  exact congrArg (·.carryOut env) planned

theorem read_of_cut (env : Env) {ts : List Token} (usual : s.tokenizer = .words {})
    (cut : words? {} false line = .ok ts) :
    s.behaviour.read env line =
      match s.behaviour.populate env ⟨.between line [] ts, .empty⟩ with
      | .ok _ u => .ok u.context
      | .error e _ => .error e := by
  unfold Specified.read Cursor.ofLine
  rw [behaviour_tokenizer, usual]
  simp only [tokenize, cut]
  rfl

theorem read_of_uncut (env : Env) {e : ParseError} (usual : s.tokenizer = .words {})
    (cut : words? {} false line = .error e) : s.behaviour.read env line = .error e := by
  unfold Specified.read Cursor.ofLine
  rw [behaviour_tokenizer, usual]
  simp only [tokenize, cut]
  rfl

end Spec

namespace Chain

variable {env : Env} {s t : Spec} {links : List Link}

/-- The values of a way down leave the others as they were, and lead down it again. -/
theorem ran (chain : Chain env s links t) (permitted : t.permits env.source = true)
    (distinct : (links.map Link.key).Nodup) (apart : (Callable.spec t).Apart (links.map Link.key))
    {rest line : String} {context : Context} (ordered : context.values.WellFormed)
    (unused : ∀ k ∈ links, context.values.get? k.key = none) (read : t.Reads env rest context)
    (nested : s.Reads env line (context.putAll (Link.pairs links))) :
    Transparent env (links.map Link.key) t s rest line := by
  let context' := context.putAll (Link.pairs links)
  have agree : context.AgreeOff (links.map Link.key) context' := by
    intro key off
    refine Context.get?_putAll_off ordered ?_
    simpa [Link.keys_pairs] using off
  have keys : ((Link.pairs links).map (·.1)).Nodup := by
    rw [Link.keys_pairs]
    exact List.nodup_reverse.mpr distinct
  have stored : ∀ k ∈ links, context'.one? k.key = some k.handle := by
    intro k hk
    refine Context.one?_putAll ordered keys ?_ (unused k hk)
    exact List.mem_reverse.mpr (List.mem_map_of_mem hk)
  have direct := Spec.process_of_reads permitted read
  have behind := Spec.process_of_reads (chain.permits permitted) nested
  rw [chain.select permitted stored] at behind
  have same := t.select_agreeOff env agree apart
  refine .ran read nested agree direct behind same ?_
  intro blind
  rw [direct, behind]
  exact same.carryOut blind

end Chain

end CommandGrammar
