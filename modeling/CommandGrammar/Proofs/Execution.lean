import CommandGrammar.Manager
import CommandGrammar.Proofs.Grammar.Behaviour

/-!
# What a line runs

The way of a line through a tree of commands is said here without permissions. A line runs a job
exactly when there is a way to it on which the source holds every permission; it runs nothing else.
-/

namespace CommandGrammar

open Reading

/-! ## The way of a line -/

/-- What a command begins with: the text of its arguments, or values that were read in place. -/
inductive Entry where
  | line (text : String)
  | values (context : Context)

namespace Subcommands

/-- The subcommand that some values name. -/
def selected? (n : Subcommands) (context : Context) : Option (Mapping Callable) :=
  match context.one? n.key with
  | some (.any (.command node name)) => if node = n.key then n.commands.ofId? name.id else none
  | _ => none

def arguments (n : Subcommands) (context : Context) : String :=
  ((context.one? (n.key ++ "_args")).bind Value.asString?).getD ""

theorem mem_of_selected? {n : Subcommands} {context : Context} {m : Mapping Callable}
    (h : n.selected? context = some m) : m.callable ∈ n.commands.callables := by
  unfold selected? at h
  split at h
  · split at h
    · exact Dispatcher.mem_callables_of_ofId? h
    · cases h
  · cases h

/-- What a subcommand begins with: the values, or the text when it has no grammar for them. -/
def entry (n : Subcommands) (context : Context) : Callable → Entry
  | .spec _ => .values context
  | _ => .line (n.arguments context)

end Subcommands

namespace Spec

/-- The text is cut into tokens, and the grammar reads all of them for some values. -/
def Reads (s : Spec) (env : Env) (text : String) (context : Context) : Prop :=
  ∃ cursor, Cursor.ofLine s.tokenizer false text = .ok cursor ∧
    ∃ t, s.behaviour.grammar.parse env ⟨cursor, .empty⟩ = .ok () t ∧ t.cursor.remaining = [] ∧
      t.context = context

/-- The action is that of the command, or that of its node for lines without a subcommand. -/
def Owns (s : Spec) (a : Action) : Prop :=
  s.body = .action a ∨ ∃ n, s.body = .subcommands n ∧ n.action = some a

end Spec

/-- A command is another, or is held by one that is registered in the other. -/
inductive Callable.Holds : Callable → Callable → Prop
  | self (c : Callable) : Holds c c
  | inside {c b a : Callable} (h : b ∈ c.registered) (rest : Holds b a) : Holds c a

/-- Whose a job is: an action is that of the last specified command on the way, and text is handed to
a command without a grammar that the first one holds. -/
def Job.Owned (c : Callable) (path : List Spec) : Job → Prop
  | .act a _ => ∃ s, path.getLast? = some s ∧ s.Owns a
  | .hand run _ => ∃ r, c.Holds (.raw r) ∧ r.run = run

theorem Job.Owned.above {c b : Callable} {path longer : List Spec} {job : Job} (h : job.Owned b path)
    (inside : b ∈ c.registered)
    (last : ∀ s, path.getLast? = some s → longer.getLast? = some s) : job.Owned c longer := by
  cases job with
  | act a context =>
      obtain ⟨s, found, owns⟩ := h
      exact ⟨s, last s found, owns⟩
  | hand run text =>
      obtain ⟨r, held, same⟩ := h
      exact ⟨r, .inside inside held, same⟩

/-- The way from what a command begins with to a job, and the specified commands on it. Whether the
source may run them plays no part. -/
inductive Runs (env : Env) : Callable → Entry → List Spec → Job → Prop
  /-- The arguments are read to their end. -/
  | read {s text context path job} (h : Spec.Reads s env text context)
      (rest : Runs env (.spec s) (.values context) path job) : Runs env (.spec s) (.line text) path job
  /-- The command has an action. -/
  | action {s a context} (body : Spec.body s = .action a) :
      Runs env (.spec s) (.values context) [s] (.act a context)
  /-- No subcommand was named, and the node has an action. -/
  | own {s n a context} (body : Spec.body s = .subcommands n)
      (unnamed : Subcommands.selected? n context = none) (act : Subcommands.action n = some a) :
      Runs env (.spec s) (.values context) [s] (.act a context)
  /-- A subcommand was named. -/
  | subcommand {s n m context path job} (body : Spec.body s = .subcommands n)
      (named : Subcommands.selected? n context = some m)
      (rest : Runs env m.callable (n.entry context m.callable) path job) :
      Runs env (.spec s) (.values context) (s :: path) job
  /-- The first word of the line is an alias. -/
  | dispatched {d line m path job}
      (named : Dispatcher.get? d (some env.source) (Dispatcher.splitLine line).1 = some m)
      (rest : Runs env m.callable (.line (Dispatcher.splitLine line).2) path job) :
      Runs env (.dispatcher d) (.line line) path job
  | raw {r text} : Runs env (.raw r) (.line text) [] (.hand r.run text)

namespace Runs

variable {env : Env} {s : Spec} {n : Subcommands} {text : String} {context : Context}

/-! ### Each way by its first step -/

theorem line_iff (h : s.Reads env text context) {path : List Spec} {job : Job} :
    Runs env (.spec s) (.line text) path job ↔ Runs env (.spec s) (.values context) path job := by
  constructor
  · intro way
    cases way with
    | read h' rest =>
        obtain ⟨cursor, cut, t, parsed, -, rfl⟩ := h
        obtain ⟨cursor', cut', t', parsed', -, rfl⟩ := h'
        obtain rfl := Except.ok.inj (cut.symm.trans cut')
        cases parsed.symm.trans parsed'
        exact rest
  · exact .read h

theorem action_iff {a : Action} (body : s.body = .action a) {path : List Spec} {job : Job} :
    Runs env (.spec s) (.values context) path job ↔ path = [s] ∧ job = .act a context := by
  constructor
  · intro way
    cases way with
    | action body' => cases body.symm.trans body'; exact ⟨rfl, rfl⟩
    | own body' | subcommand body' => cases body.symm.trans body'
  · rintro ⟨rfl, rfl⟩
    exact .action body

theorem unnamed_iff (body : s.body = .subcommands n) (unnamed : n.selected? context = none)
    {path : List Spec} {job : Job} :
    Runs env (.spec s) (.values context) path job ↔
      ∃ a, n.action = some a ∧ path = [s] ∧ job = .act a context := by
  constructor
  · intro way
    cases way with
    | action body' => cases body.symm.trans body'
    | own body' _ act =>
        cases body.symm.trans body'
        exact ⟨_, act, rfl, rfl⟩
    | subcommand body' named' =>
        cases body.symm.trans body'
        cases unnamed.symm.trans named'
  · rintro ⟨a, act, rfl, rfl⟩
    exact .own body unnamed act

theorem named_iff {m : Mapping Callable} (body : s.body = .subcommands n)
    (named : n.selected? context = some m) {path : List Spec} {job : Job} :
    Runs env (.spec s) (.values context) path job ↔
      ∃ rest, path = s :: rest ∧ Runs env m.callable (n.entry context m.callable) rest job := by
  constructor
  · intro way
    cases way with
    | action body' => cases body.symm.trans body'
    | own body' unnamed' =>
        cases body.symm.trans body'
        cases named.symm.trans unnamed'
    | subcommand body' named' rest =>
        cases body.symm.trans body'
        cases named.symm.trans named'
        exact ⟨_, rfl, rest⟩
  · rintro ⟨rest, rfl, way⟩
    exact .subcommand body named way

theorem dispatched_iff {d : Dispatcher Callable} {m : Mapping Callable}
    (named : d.get? (some env.source) (Dispatcher.splitLine text).1 = some m) {path : List Spec}
    {job : Job} :
    Runs env (.dispatcher d) (.line text) path job ↔
      Runs env m.callable (.line (Dispatcher.splitLine text).2) path job := by
  constructor
  · intro way
    cases way with
    | dispatched named' rest =>
        cases named.symm.trans named'
        exact rest
  · exact .dispatched named

theorem mem_of_values {path : List Spec} {job : Job}
    (h : Runs env (.spec s) (.values context) path job) : s ∈ path := by
  cases h <;> exact List.mem_cons_self

/-! ### Whole ways -/

variable {c : Callable} {entry : Entry} {path : List Spec} {job : Job}

/-- There is one way only. -/
theorem unique (h : Runs env c entry path job) {path' : List Spec} {job' : Job}
    (h' : Runs env c entry path' job') : path' = path ∧ job' = job := by
  induction h generalizing path' job' with
  | read reads rest ih => exact ih ((line_iff reads).1 h')
  | action body => exact (action_iff body).1 h'
  | own body unnamed act =>
      obtain ⟨a, act', rfl, rfl⟩ := (unnamed_iff body unnamed).1 h'
      cases act.symm.trans act'
      exact ⟨rfl, rfl⟩
  | subcommand body named rest ih =>
      obtain ⟨path', rfl, way⟩ := (named_iff body named).1 h'
      obtain ⟨rfl, rfl⟩ := ih way
      exact ⟨rfl, rfl⟩
  | dispatched named rest ih => exact ih ((dispatched_iff named).1 h')
  | raw => cases h'; exact ⟨rfl, rfl⟩

/-- The last command on a way owns the action at its end; only a command without a grammar is handed
text. -/
theorem owned (h : Runs env c entry path job) : job.Owned c path := by
  induction h with
  | read _ _ ih => exact ih
  | action body => exact ⟨_, rfl, .inl body⟩
  | own body _ act => exact ⟨_, rfl, .inr ⟨_, body, act⟩⟩
  | @subcommand s n m _ path _ body named _ ih =>
      have inside : m.callable ∈ (Callable.spec s).registered := by
        simpa [Callable.registered, body] using Subcommands.mem_of_selected? named
      exact ih.above inside (fun t last => by simp [List.getLast?_cons, last])
  | dispatched named _ ih =>
      exact ih.above (Dispatcher.mem_callables_of_get? named) (fun _ last => last)
  | raw => exact ⟨_, .self _, rfl⟩

end Runs

/-! ## Plans and ways -/

/-- A plan follows the way of a line as far as the source is permitted: a job is at the end of a way
on which the source holds every permission, and a refusal leaves no such way. -/
def Plan.Follows (env : Env) (c : Callable) (entry : Entry) : Plan → Prop
  | .run job _ => ∃ path, Runs env c entry path job ∧ ∀ s ∈ path, s.permits env.source = true
  | .refuse _ => ∀ path job, Runs env c entry path job → ∃ s ∈ path, s.permits env.source = false

namespace Plan.Follows

variable {env : Env} {c : Callable} {entry : Entry} {p : Plan}

theorem nest (h : p.Follows env c entry) : p.nest.Follows env c entry := by
  cases p <;> exact h

/-- A plan for one beginning serves another when both have the same ways. -/
theorem congr {b : Callable} {begun : Entry} (h : p.Follows env b begun)
    (same : ∀ path job, Runs env c entry path job ↔ Runs env b begun path job) :
    p.Follows env c entry := by
  cases p with
  | run job nested =>
      obtain ⟨path, way, permitted⟩ := h
      exact ⟨path, (same path job).2 way, permitted⟩
  | refuse e => exact fun path job way => h path job ((same path job).1 way)

/-- A plan for one beginning serves another that passes a permitted command more. -/
theorem cons {s : Spec} {b : Callable} {begun : Entry} (h : p.Follows env b begun)
    (permitted : s.permits env.source = true)
    (same : ∀ path job, Runs env c entry path job ↔ ∃ rest, path = s :: rest ∧ Runs env b begun rest job) :
    p.Follows env c entry := by
  cases p with
  | run job nested =>
      obtain ⟨path, way, all⟩ := h
      exact ⟨s :: path, (same _ _).2 ⟨path, rfl, way⟩, List.forall_mem_cons.2 ⟨permitted, all⟩⟩
  | refuse e =>
      intro path job way
      obtain ⟨rest, rfl, below⟩ := (same _ _).1 way
      obtain ⟨t, mem, denied⟩ := h rest job below
      exact ⟨t, List.mem_cons_of_mem s mem, denied⟩

end Plan.Follows

namespace Subcommands

theorem toNode_selected? (n : Subcommands) (context : Context) :
    n.toNode.selected? context = (n.selected? context).map (Mapping.map Callable.command) := by
  unfold Node.selected? selected?
  rw [toNode_key, toNode_commands]
  generalize context.one? n.key = stored
  cases stored with
  | none => rfl
  | some v =>
      cases v with
      | any handle =>
          cases handle with
          | command node name =>
              by_cases same : node = n.key
              · simp only [same, if_true]
                exact Dispatcher.ofId?_map _ _ _
              · simp [same]
          | _ => rfl
      | _ => rfl

end Subcommands

namespace Spec

variable {env : Env} {s : Spec}

/-- What is run in place of a subcommand that was read: nothing, unless the source may run it. -/
def gate (s : Spec) (env : Env) (context : Context) : Plan :=
  if s.permits env.source then s.body.core.select env context else .refuse .denied

theorem read_eq_ok {text : String} {context : Context} :
    s.behaviour.read env text = .ok context ↔ s.Reads env text context := by
  unfold Specified.read Reads
  rw [behaviour_tokenizer]
  cases Cursor.ofLine s.tokenizer false text with
  | error e => simp [bind, Except.bind]
  | ok cursor =>
      simp only [bind, Except.bind, Except.ok.injEq, exists_eq_left', ← and_assoc, ← populate_eq_ok]
      cases s.behaviour.populate env ⟨cursor, .empty⟩ <;> simp

end Spec

namespace Callable

variable {env : Env}

/-- What is planned for a line, or in place of what was read there, follows the way. -/
def Obeys (env : Env) (c : Callable) : Prop :=
  (∀ line, (c.command.plan env line).Follows env c (.line line)) ∧
    ∀ s, c = .spec s → ∀ context, (s.gate env context).Follows env (.spec s) (.values context)

theorem follows_selected (n : Subcommands) {c : Callable} (obeys : c.Obeys env) (context : Context) :
    (match c.command.program with
      | some program =>
        if program.permits env.source then program.select env context else .refuse .denied
      | none =>
        c.command.plan env
          (((context.one? n.toNode.argumentsKey).bind Value.asString?).getD "")).Follows env c
      (n.entry context c) := by
  rw [Subcommands.toNode_argumentsKey]
  cases c with
  | spec s =>
      have gated := obeys.2 s rfl context
      rw [Spec.gate, ← Spec.behaviour_permits, ← Spec.behaviour_core] at gated
      exact gated
  | dispatcher d | raw r => exact obeys.1 (n.arguments context)

theorem follows_line {s : Spec}
    (gated : ∀ context, (s.gate env context).Follows env (.spec s) (.values context)) (line : String) :
    ((Callable.spec s).command.plan env line).Follows env (.spec s) (.line line) := by
  change (s.behaviour.plan env line).Follows env (.spec s) (.line line)
  cases read : s.behaviour.read env line with
  | ok context =>
      have plan : s.behaviour.plan env line = s.gate env context := by
        simp [Specified.plan, read, Spec.gate]
      rw [plan]
      exact (gated context).congr fun _ _ => Runs.line_iff (Spec.read_eq_ok.1 read)
  | error e =>
      have refused : ∃ e', s.behaviour.plan env line = .refuse e' := by
        unfold Specified.plan
        rw [read]
        split <;> exact ⟨_, rfl⟩
      obtain ⟨e', plan⟩ := refused
      rw [plan]
      intro path job way
      cases way with
      | read h => cases read.symm.trans (Spec.read_eq_ok.2 h)

theorem follows_dispatched {d : Dispatcher Callable}
    (below : ∀ b ∈ (Callable.dispatcher d).registered, b.Obeys env) (line : String) :
    ((Callable.dispatcher d).command.plan env line).Follows env (.dispatcher d) (.line line) := by
  change ((Callable.behaviours d).plan env line).Follows env (.dispatcher d) (.line line)
  unfold Dispatcher.plan
  rw [behaviours_eq_map]
  simp only [Dispatcher.get?_map]
  cases named : d.get? (some env.source) (Dispatcher.splitLine line).1 with
  | none =>
      intro path job way
      cases way with
      | dispatched named' => cases named.symm.trans named'
  | some m =>
      have inside : m.callable ∈ d.callables := Dispatcher.mem_callables_of_get? named
      exact ((below m.callable inside).1 _).nest.congr fun _ _ => Runs.dispatched_iff named

theorem follows_gate {s : Spec} (below : ∀ b ∈ (Callable.spec s).registered, b.Obeys env)
    (context : Context) : (s.gate env context).Follows env (.spec s) (.values context) := by
  unfold Spec.gate
  cases permitted : s.permits env.source with
  | false => exact fun path job way => ⟨s, Runs.mem_of_values way, permitted⟩
  | true =>
      rw [if_pos rfl]
      have here : ∀ t ∈ [s], t.permits env.source = true := by simpa using permitted
      cases body : s.body with
      | action a => exact ⟨[s], .action body, here⟩
      | subcommands n =>
          change (n.toNode.select env context).Follows env (.spec s) (.values context)
          unfold Node.select
          rw [Subcommands.toNode_selected?]
          cases named : n.selected? context with
          | none =>
              simp only [Option.map_none, Subcommands.toNode_action]
              cases act : n.action with
              | none =>
                  intro path job way
                  obtain ⟨a, act', -⟩ := (Runs.unnamed_iff body named).1 way
                  cases act.symm.trans act'
              | some a => exact ⟨[s], .own body named act, here⟩
          | some m =>
              have inside : m.callable ∈ (Callable.spec s).registered := by
                simpa [registered, body] using Subcommands.mem_of_selected? named
              refine Plan.Follows.cons ?_ permitted fun _ _ => Runs.named_iff body named
              exact follows_selected n (below m.callable inside) context

theorem obeys (env : Env) (c : Callable) : c.Obeys env := by
  -- A line or values are passed on to commands registered in the command, hence the induction.
  induction c using induction_registered with
  | step c below =>
      cases c with
      | spec s =>
          refine ⟨fun line => ?_, fun t same context => ?_⟩
          · exact follows_line (follows_gate below) line
          · cases same
            exact follows_gate below context
      | dispatcher d => exact ⟨follows_dispatched below, nofun⟩
      | raw r =>
          refine ⟨fun line => ⟨[], .raw, by simp⟩, nofun⟩

end Callable

/-! ## Answers -/

/-- How a dispatcher answers a line. Either there is one way to one job, the source holds every
permission on it, and the job is all that is run; or some permission is missing on any way there is,
and nothing is run. -/
inductive Answers (env : Env) (d : Dispatcher Callable) (line : String) : Reply Stop Outcome → Prop
  | ran {path job} (planned : (Callable.behaviours d).plan env line = .run job true)
      (way : Runs env (.dispatcher d) (.line line) path job)
      (only : ∀ path' job', Runs env (.dispatcher d) (.line line) path' job' →
        path' = path ∧ job' = job)
      (permitted : ∀ s ∈ path, s.permits env.source = true)
      (owned : job.Owned (.dispatcher d) path) :
      Answers env d line ((job.run env).mapError Plan.nestStop)
  | refused {e} (planned : (Callable.behaviours d).plan env line = .refuse e)
      (barred : ∀ path job, Runs env (.dispatcher d) (.line line) path job →
        ∃ s ∈ path, s.permits env.source = false) :
      Answers env d line (.fail (.error e))

theorem Plan.nested_of_nest {p : Plan} {job : Job} {nested : Bool} (h : p.nest = .run job nested) :
    nested = true := by
  cases p with
  | refuse e => cases h
  | run job' nested' => cases h; rfl

theorem Dispatcher.nested_of_plan {d : Dispatcher Command} {env : Env} {line : String} {job : Job}
    {nested : Bool} (h : d.plan env line = .run job nested) : nested = true := by
  simp only [plan] at h
  split at h
  · cases h
  · exact Plan.nested_of_nest h

theorem Dispatcher.answers (d : Dispatcher Callable) (env : Env) (line : String) :
    Answers env d line ((Callable.behaviours d).command.process env line) := by
  have follows := ((Callable.dispatcher d).obeys env).1 line
  change ((Callable.behaviours d).plan env line).Follows env (.dispatcher d) (.line line) at follows
  change Answers env d line (((Callable.behaviours d).plan env line).carryOut env)
  cases planned : (Callable.behaviours d).plan env line with
  | refuse e =>
      rw [planned] at follows
      exact .refused planned follows
  | run job nested =>
      obtain rfl := Dispatcher.nested_of_plan planned
      rw [planned] at follows
      obtain ⟨path, way, permitted⟩ := follows
      exact .ran planned way (fun _ _ other => way.unique other) permitted way.owned

/-- Running a line is safe and all or nothing, for a dispatcher and for a manager, which tells the
source of a failure behind the lines that the job has sent. -/
theorem Manager.process_permitted (m : Manager) (env : Env) (line : String) :
    Answers env m.dispatcher line (m.behaviour.command.process env line) ∧
      ∃ reply, Answers { env with listing := m.help env.source } m.dispatcher line reply ∧
        ((∃ outcome, reply.result = .ok outcome ∧ m.process env line = (reply.lines, outcome)) ∨
          ∃ stop told, reply.result = .error stop ∧
            m.process env line = (reply.lines ++ told, .empty)) := by
  let heard : Env := { env with listing := m.help env.source }
  refine ⟨m.dispatcher.answers env line, m.behaviour.command.process heard line,
    m.dispatcher.answers heard line, ?_⟩
  unfold process
  cases result : (m.behaviour.command.process heard line).result with
  | ok outcome => exact .inl ⟨outcome, rfl, by simp [heard, result]⟩
  | error stop =>
      refine .inr ⟨stop, ?_⟩
      cases stop with
      | error e => exact ⟨m.report env.source line e, rfl, by simp [heard, result]⟩
      | panic text => exact ⟨[Report.fault (text.getD "panic")], rfl, by simp [heard, result]⟩

end CommandGrammar
