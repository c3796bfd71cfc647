import CommandGrammar.Action
import CommandGrammar.Manager
import CommandGrammar.Proofs.Grammar.Behaviour

/-!
# What a line offers

The way of a line that is being typed through a tree of commands. A specified command that is asked
for its line has no offers for a source that may not run it. One that a node reads in place is not
asked so, and offers what its grammar offers.
-/

namespace CommandGrammar

open Reading

/-- The offers of a reply; none for a failure. -/
def Reply.offers (r : Reply Error (List String)) : List String :=
  match r.result with
  | .ok offers => offers
  | .error _ => []

theorem appendNew_eq_nil {xs ys : List String} : appendNew xs ys = [] ↔ xs = [] ∧ ys = [] := by
  simp only [List.eq_nil_iff_forall_not_mem, mem_appendNew, not_or, forall_and]

namespace Parser

variable {env : Env} {p : Parser} {ps : List Parser} {s t : State} {done : Completion}

theorem completeAll_cons_still (read : p.parse env s = .ok () t) (same : t.cursor.mark = s.cursor.mark) :
    completeAll env (p :: ps) s done =
      completeAll env ps { s with context := t.context } (done.add (p.complete env s)) := by
  simp only [completeAll, read, same, if_true]

theorem completeAll_cons_moved (read : p.parse env s = .ok () t)
    (moved : t.cursor.mark ≠ s.cursor.mark) (more : t.cursor.hasNext = true) :
    completeAll env (p :: ps) s done = completeAll env ps t done.clear := by
  simp only [completeAll, read, moved, if_false, more, if_true]

theorem completeAll_cons_absent (read : p.parse env s = .ok () t)
    (moved : t.cursor.mark ≠ s.cursor.mark) (spent : t.cursor.hasNext = false)
    (optional : p.isOptional = true) :
    completeAll env (p :: ps) s done = completeAll env ps s (done.add (p.complete env s)) := by
  simp [completeAll, read, moved, spent, optional]

theorem completeAll_cons_last (read : p.parse env s = .ok () t)
    (moved : t.cursor.mark ≠ s.cursor.mark) (spent : t.cursor.hasNext = false)
    (needed : p.isOptional = false) :
    completeAll env (p :: ps) s done = done.add (p.complete env s) := by
  simp [completeAll, read, moved, spent, needed]

theorem completeAll_cons_failed {e : ParseError} (failed : p.parse env s = .error e t) :
    completeAll env (p :: ps) s done = done.add (p.complete env s) := by
  simp only [completeAll, failed]

end Parser

def State.restText (s : State) : String :=
  (s.cursor.next?.elim s.cursor (·.2)).rawFromCurrent

theorem Node.offers_completeBelow {c : Command} (bare : c.program = none) {env : Env} (s : State) :
    (completeBelow c env s).offers = (c.suggestions env s.restText).offers := by
  unfold completeBelow Suggestions.completion
  rw [bare]
  simp only [State.restText, Reply.offers]
  cases (c.suggestions env _).result <;> rfl

/-! ## Asking for offers -/

/-- How a command is asked for offers: for the text of its arguments, or in place of a word that
named it. -/
inductive Request where
  | line (text : String)
  | inPlace (s : State)

namespace Callable

def offers (env : Env) (c : Callable) : Request → List String
  | .line text => (c.command.suggestions env text).offers
  | .inPlace s => (Node.completeBelow c.command env s).offers

variable {env : Env}

theorem offers_spec_inPlace (s : Spec) (st : State) :
    (Callable.spec s).offers env (.inPlace st) = (s.behaviour.grammar.complete env st).offers := rfl

theorem offers_dispatcher_inPlace (d : Dispatcher Callable) (st : State) :
    (Callable.dispatcher d).offers env (.inPlace st) =
      (Callable.dispatcher d).offers env (.line st.restText) :=
  Node.offers_completeBelow rfl st

theorem offers_alias {d : Dispatcher Callable} {text : String} {name rest : List Char}
    {m : Mapping Callable} (cut : Text.splitOnce ' ' text.toList = some (name, rest))
    (named : d.get? (some env.source) (String.ofList name) = some m) :
    (Callable.dispatcher d).offers env (.line text) =
      m.callable.offers env (.line (String.ofList rest)) := by
  change ((Callable.behaviours d).suggestions env text).offers = _
  unfold Dispatcher.suggestions
  rw [cut, behaviours_eq_map]
  simp only [Dispatcher.get?_map, named, Option.map_some]
  rfl

theorem offers_spec_line {s : Spec} {text : String} {cursor : Cursor}
    (cut : Cursor.ofLine s.tokenizer true text = .ok cursor) :
    (Callable.spec s).offers env (.line text) =
      if s.permits env.source then (Callable.spec s).offers env (.inPlace ⟨cursor, .forCompletion⟩)
      else [] := by
  change (s.behaviour.suggestions env text).offers = _
  unfold Specified.suggestions
  rw [Spec.behaviour_permits, Spec.behaviour_tokenizer, cut]
  split <;> rfl

theorem offers_spec_denied {s : Spec} (denied : s.permits env.source = false) (text : String) :
    (Callable.spec s).offers env (.line text) = [] := by
  change (s.behaviour.suggestions env text).offers = _
  unfold Specified.suggestions
  rw [Spec.behaviour_permits, denied]
  rfl

end Callable

/-! ## A node behind own arguments -/

namespace Subcommands

variable {env : Env} {n : Subcommands}

theorem remaining_restOfLine {st t : State} {rest : String} (h : Node.restOfLine st = .ok rest t) :
    t.cursor.remaining = [] := by
  unfold Node.restOfLine at h
  rw [bind_of_ok (hasNext_apply st)] at h
  by_cases empty : st.cursor.remaining = []
  · rw [Cursor.hasNext_eq_false_iff.2 empty] at h
    cases h
    exact empty
  · rw [if_pos (Cursor.hasNext_iff.2 empty)] at h
    obtain ⟨word, u, -, h⟩ := bind_eq_ok.1 h
    cases h
    simp only [Cursor.remaining, Cursor.values, Cursor.toEnd, List.drop_eq_nil_iff, List.length_map]
    omega

theorem remaining_populate {st t : State} {c : Callable}
    (h : n.toNode.populate c.command env st = .ok () t) : t.cursor.remaining = [] := by
  unfold Node.populate at h
  cases c with
  | spec s => exact (Spec.populate_eq_ok.1 h).2
  | dispatcher d | raw r =>
      obtain ⟨rest, u, read, stored⟩ := bind_eq_ok.1 h
      have same : u.cursor = t.cursor := by cases stored; rfl
      rw [← same]
      exact remaining_restOfLine read

/-- A node without own arguments that reads a subcommand reads all tokens that are left. -/
theorem remaining_read (plain : n.fallback = none) {st t : State} {typed : String} {c : Cursor}
    {m : Mapping Callable} (word : st.cursor.next? = some (typed, c))
    (named : n.commands.get? (some env.source) typed = some m)
    (h : n.toNode.read env st = .ok () t) : t.cursor.remaining = [] := by
  have bare := toNode_fallback_none plain
  have found := toNode_get?_some named
  rw [read_of_next word] at h
  simp only [Node.readNamed, word, found, Mapping.map_callable] at h
  cases below : n.toNode.populate m.callable.command env { st with cursor := c } with
  | ok u s =>
      rw [below] at h
      have same : s.cursor = t.cursor := by cases h; rfl
      rw [← same]
      exact remaining_populate below
  | error e s =>
      rw [below] at h
      simp [Node.recover, bare] at h

end Subcommands

namespace Spec

/-- How completing passes the own arguments of a command, where its node is asked from then on, and
what offers of the own arguments count besides. -/
inductive Passes (s : Spec) (env : Env) : State → State → List String → Prop
  /-- There are no own arguments. -/
  | none {st} (own : s.own = .none) : Passes s env st st []
  /-- They read without moving. -/
  | still {st t e} (own : s.own = some e) (read : e.parser.parse env st = .ok () t)
      (same : t.cursor.mark = st.cursor.mark) :
      Passes s env st { st with context := t.context } (e.parser.complete env st).offers
  /-- They read some tokens and leave others. -/
  | moved {st t e} (own : s.own = some e) (read : e.parser.parse env st = .ok () t)
      (moved : t.cursor.mark ≠ st.cursor.mark) (more : t.cursor.hasNext = true) : Passes s env st t []
  /-- They read all tokens but may be absent. -/
  | absent {st t e} (own : s.own = some e) (read : e.parser.parse env st = .ok () t)
      (moved : t.cursor.mark ≠ st.cursor.mark) (spent : t.cursor.hasNext = false)
      (optional : e.parser.isOptional = true) :
      Passes s env st st (e.parser.complete env st).offers

end Spec

namespace Subcommands

variable {env : Env} {n : Subcommands} {st : State} {typed : String} {c : Cursor}
  {m : Mapping Callable}

/-- Behind the word that names a subcommand, the node offers what that one offers. -/
theorem offers_complete (word : st.cursor.next? = some (typed, c)) (more : c.hasNext = true)
    (named : n.commands.get? (some env.source) typed = some m) :
    (n.toNode.complete env st).offers = m.callable.offers env (.inPlace { st with cursor := c }) := by
  have found := toNode_get?_some named
  unfold Node.complete
  simp only [word, more, if_true, found]
  rfl

/-- Behind own arguments, the offers of the node come to those that there are. -/
theorem offers_completeAll (plain : n.fallback = none) (word : st.cursor.next? = some (typed, c))
    (named : n.commands.get? (some env.source) typed = some m) (done : Completion) :
    (Parser.completeAll env [n.toNode.parser] st done).offers =
      appendNew done.offers (n.toNode.complete env st).offers := by
  unfold Parser.completeAll
  cases read : n.toNode.parser.parse env st with
  | error e t => rfl
  | ok u t =>
      have ended := remaining_read plain word named read
      have spent := Cursor.hasNext_eq_false_iff.2 ended
      have moved : t.cursor.mark ≠ st.cursor.mark := by
        intro same
        have : t.cursor.remaining = st.cursor.remaining := by
          simp only [Cursor.mark, Mark.mk.injEq] at same
          simp [Cursor.remaining, Cursor.values, same]
        rw [ended, Cursor.remaining_of_next? word] at this
        cases this
      simp only [moved, if_false, spent]
      rfl

end Subcommands

namespace Spec

variable {env : Env} {s : Spec} {n : Subcommands} {st place : State} {asides : List String}
  {typed : String} {c : Cursor} {m : Mapping Callable}

theorem grammar_alone (body : s.body = .subcommands n) (own : s.own = .none) :
    s.behaviour.grammar = n.toNode.parser := by
  rw [behaviour_grammar, grammar, own, body]
  rfl

theorem grammar_behind (body : s.body = .subcommands n) {e : Element} (own : s.own = some e) :
    s.behaviour.grammar = .sequence [e.parser, n.toNode.parser] := by
  rw [behaviour_grammar, grammar, own, body]
  rfl

/-- A command offers nothing behind the word that names a subcommand just where its own arguments
and the subcommand offer nothing. -/
theorem offers_eq_nil_iff (body : s.body = .subcommands n)
    (plain : s.own = .none ∨ n.fallback = .none) (passes : s.Passes env st place asides)
    (word : place.cursor.next? = some (typed, c)) (more : c.hasNext = true)
    (named : n.commands.get? (some env.source) typed = some m) :
    (Callable.spec s).offers env (.inPlace st) = [] ↔
      asides = [] ∧ m.callable.offers env (.inPlace { place with cursor := c }) = [] := by
  rw [← Subcommands.offers_complete word more named, Callable.offers_spec_inPlace]
  have behind : s.own ≠ .none → ∀ done,
      ((Parser.completeAll env [n.toNode.parser] place done).offers = [] ↔
        done.offers = [] ∧ (n.toNode.complete env place).offers = []) := by
    intro own done
    rw [Subcommands.offers_completeAll (plain.resolve_left own) word named, appendNew_eq_nil]
  cases passes with
  | none own =>
      rw [grammar_alone body own]
      simp [Node.parser]
  | still own read same =>
      rw [grammar_behind body own]
      simp only [Parser.sequence, Parser.completeAll_cons_still read same]
      rw [behind (by simp [own])]
      simp [Completion.add, Completion.none, appendNew_eq_nil]
  | moved own read moved more =>
      rw [grammar_behind body own]
      simp only [Parser.sequence, Parser.completeAll_cons_moved read moved more]
      rw [behind (by simp [own])]
      simp [Completion.clear]
  | absent own read moved spent optional =>
      rw [grammar_behind body own]
      simp only [Parser.sequence, Parser.completeAll_cons_absent read moved spent optional]
      rw [behind (by simp [own])]
      simp [Completion.add, Completion.none, appendNew_eq_nil]

end Spec

/-! ## The way of a line -/

/-- What a way passes: a specified command that is asked for the offers of its line, or own arguments
with these offers besides. -/
inductive Stage where
  | asked (s : Spec)
  | passed (offers : List String)

/-- Nothing is offered on a way: a command on it that was asked may not be run, and whatever is
behind it does not count, or nothing is offered at its end. Arguments passed before offer nothing. -/
def Stage.Quiet (source : Source) (last : Prop) : List Stage → Prop
  | [] => last
  | .asked s :: rest => s.permits source = false ∨ Quiet source last rest
  | .passed offers :: rest => offers = [] ∧ Quiet source last rest

/-- Asking a command leads to asking a specified one, whose alias the line has passed. Whether the
source may run them plays no part. -/
inductive Leads (env : Env) : Callable → Request → Spec → Request → List Stage → Prop
  | here {s request} : Leads env (.spec s) request s request []
  /-- The first word of the line is an alias, and there is more of the line. -/
  | dispatched {d text name rest m s place stages}
      (cut : Text.splitOnce ' ' (String.toList text) = some (name, rest))
      (named : Dispatcher.get? d (some env.source) (String.ofList name) = some m)
      (below : Leads env m.callable (.line (String.ofList rest)) s place stages) :
      Leads env (.dispatcher d) (.line text) s place stages
  /-- A dispatcher in place is asked for the rest of the line. -/
  | text {d st s place stages}
      (below : Leads env (.dispatcher d) (.line (State.restText st)) s place stages) :
      Leads env (.dispatcher d) (.inPlace st) s place stages
  /-- The line of a specified command is cut into tokens. -/
  | asked {t text cursor s place stages}
      (cut : Cursor.ofLine (Spec.tokenizer t) true text = .ok cursor)
      (below : Leads env (.spec t) (.inPlace ⟨cursor, .forCompletion⟩) s place stages) :
      Leads env (.spec t) (.line text) s place (.asked t :: stages)
  /-- A word behind the own arguments names a subcommand, and there are more words. A command with
  own arguments has a node without. -/
  | named {t n st node typed c m asides s place stages} (body : Spec.body t = .subcommands n)
      (plain : Spec.own t = none ∨ Subcommands.fallback n = none)
      (passes : Spec.Passes t env st node asides)
      (word : Cursor.next? (State.cursor node) = some (typed, c)) (more : Cursor.hasNext c = true)
      (found : (Subcommands.commands n).get? (some env.source) typed = some m)
      (below : Leads env m.callable (.inPlace { node with cursor := c }) s place stages) :
      Leads env (.spec t) (.inPlace st) s place (.passed asides :: stages)

/-- There are no offers for a line just where its way is quiet. -/
theorem Leads.offers_eq_nil_iff {env : Env} {c : Callable} {request place : Request} {s : Spec}
    {stages : List Stage} (h : Leads env c request s place stages) :
    c.offers env request = [] ↔
      Stage.Quiet env.source ((Callable.spec s).offers env place = []) stages := by
  induction h with
  | here => exact Iff.rfl
  | dispatched cut named _ ih => rw [Callable.offers_alias cut named, ih]
  | text _ ih => rw [Callable.offers_dispatcher_inPlace, ih]
  | @asked t _ _ _ _ _ cut _ ih =>
      rw [Callable.offers_spec_line cut, Stage.Quiet, ← ih]
      cases t.permits env.source <;> simp
  | named body plain passes word more found _ ih =>
      rw [Spec.offers_eq_nil_iff body plain passes word more found, Stage.Quiet, ih]

/-- A command that was asked for a line is silent; in place it is silent where its grammar has no
offers. -/
def Spec.SilentAt (s : Spec) (env : Env) : Request → Prop
  | .line _ => True
  | .inPlace st => (s.behaviour.grammar.complete env st).offers = []

theorem Spec.offers_eq_nil_of_denied {s : Spec} {env : Env} (denied : s.permits env.source = false)
    (place : Request) : (Callable.spec s).offers env place = [] ↔ s.SilentAt env place := by
  cases place with
  | line text => simp [SilentAt, Callable.offers_spec_denied denied]
  | inPlace st => exact Iff.rfl

theorem Manager.offers_eq (m : Manager) (env : Env) (line : String) :
    (m.suggestions env line).offers = (Callable.dispatcher m.dispatcher).offers env (.line line) := by
  change _ = (m.behaviour.suggestions env line).offers
  unfold suggestions Suggestions.completion Reply.offers
  cases (m.behaviour.suggestions env line).result <;> rfl

/-- When a permission guards completion: for a source that may not run the command that a line leads
to, there are no offers just where every stage of the way is quiet and either the command was asked
for its line or its grammar has no offers in place. -/
theorem Manager.suggestions_silent_iff (m : Manager) {env : Env} {line : String} {s : Spec}
    {place : Request} {stages : List Stage}
    (way : Leads env (.dispatcher m.dispatcher) (.line line) s place stages)
    (denied : s.permits env.source = false) :
    (m.suggestions env line).offers = [] ↔
      Stage.Quiet env.source (s.SilentAt env place) stages := by
  rw [m.offers_eq, way.offers_eq_nil_iff, Spec.offers_eq_nil_of_denied denied]

/-- A command that a dispatcher below another stands for keeps its offers. -/
theorem Manager.suggestions_silent_of_dispatched :
    let secret : Spec := .mk (some (.choices "x" [("launch", .bool true)]))
      (.action (Action.say "x" .empty)) none none (some "p") (.words {})
    let group : Dispatcher Callable := (Dispatcher.empty.register (.spec secret) ["secret"]).2
    let m : Manager := ⟨(Dispatcher.empty.register (.dispatcher group) ["group"]).2, []⟩
    let now : DateTime :=
      ⟨{ year := 2001, month := 2, day := 3 }, { hour := 4, minute := 5, second := 6, nano := 0 }⟩
    let env : Env := { source := .withDenied "ann" ["p"], now }
    Leads env (.dispatcher m.dispatcher) (.line "group secret ") secret (.line "") [] ∧
      secret.permits env.source = false ∧ (m.suggestions env "group secret ").offers = [] := by
  intro secret group m now env
  have outer : Text.splitOnce ' ' "group secret ".toList =
      some ("group".toList, "secret ".toList) := rfl
  have inner : Text.splitOnce ' ' "secret ".toList = some ("secret".toList, []) := rfl
  have way : Leads env (.dispatcher m.dispatcher) (.line "group secret ") secret (.line "") [] :=
    .dispatched outer rfl (.dispatched inner rfl .here)
  exact ⟨way, rfl, (Manager.suggestions_silent_iff m way rfl).2 trivial⟩

/-- A subcommand that a node reads in place offers what may follow it, although the source may not
run it. -/
theorem Manager.suggestions_of_denied :
    let secret : Spec := .mk (some (.choices "x" [("launch", .bool true)]))
      (.action (Action.say "x" .empty)) none none (some "p") (.words {})
    let node : Subcommands := .mk "child0" none none
      (Dispatcher.empty.register (.spec secret) ["secret"]).2 false
    let visible : Spec := .mk none (.subcommands node) none none none (.words {})
    let m : Manager := ⟨(Dispatcher.empty.register (.spec visible) ["visible"]).2, []⟩
    let now : DateTime :=
      ⟨{ year := 2001, month := 2, day := 3 }, { hour := 4, minute := 5, second := 6, nano := 0 }⟩
    let env : Env := { source := .withDenied "ann" ["p"], now }
    let place : State := ⟨⟨"secret ", [⟨"secret", 0, 6⟩, ⟨"", 7, 7⟩], 1⟩, .forCompletion⟩
    Leads env (.dispatcher m.dispatcher) (.line "visible secret ") secret (.inPlace place)
        [.asked visible, .passed []] ∧
      secret.permits env.source = false ∧
      (m.suggestions env "visible secret ").offers = ["launch"] := by
  intro secret node visible m now env place
  have outer : Text.splitOnce ' ' "visible secret ".toList =
      some ("visible".toList, "secret ".toList) := rfl
  have cut : Cursor.ofLine visible.tokenizer true "secret " =
      .ok ⟨"secret ", [⟨"secret", 0, 6⟩, ⟨"", 7, 7⟩], 0⟩ := rfl
  have body : visible.body = .subcommands node := rfl
  have way : Leads env (.dispatcher m.dispatcher) (.line "visible secret ") secret (.inPlace place)
      [.asked visible, .passed []] :=
    .dispatched outer rfl (.asked cut (.named body (.inl rfl) (.none rfl) rfl rfl rfl .here))
  exact ⟨way, rfl, rfl⟩

end CommandGrammar
