import CommandGrammar.Proofs.Building
import CommandGrammar.Proofs.Grammar.Keys

/-!
# What was read is what is run

A line goes down a tree of built commands word by word. Each node on the way stores what was named,
also where others were tried before and given up. The values of the whole line then lead down the same
way again, so what is run is what the line named.
-/

namespace CommandGrammar

open Reading

/-! ## The way down -/

/-- Own arguments are read, if there are any. -/
inductive ReadsOwn (env : Env) : Option Element → State → State → Prop
  | nothing {u} : ReadsOwn env none u u
  | element {e u v} (read : (Element.parser e).parse env u = .ok () v) : ReadsOwn env (some e) u v

/-- A node with an action reads no subcommand but its own arguments: no token is left, the next one
names no subcommand, or the arguments of the one that it names cannot be read. -/
inductive Subcommands.ReadsUnnamed (env : Env) (n : Subcommands) (u t : State) : Prop
  | spent (ended : u.cursor.hasNext = false) (own : ReadsOwn env n.fallback u t)
  | unknown {word c e} (next : u.cursor.next? = some (word, c))
      (named : n.commands.get? (some env.source) word = none) (fallback : n.fallback = some e)
      (own : e.parser.parse env u = .ok () t)
  | failed {word c m error v e} (next : u.cursor.next? = some (word, c))
      (named : n.commands.get? (some env.source) word = some m)
      (below : n.toNode.populate m.callable.command env { u with cursor := c } = .error error v)
      (onFail : n.toNode.fallbackOnFail = true) (fallback : n.fallback = some e)
      (own : e.parser.parse env u = .ok () t)

/-- Where a way down ends: at a command with an action, at a node of which no subcommand was read, or
at a subcommand without a grammar. -/
inductive Finish where
  | action (a : Action)
  | own (n : Subcommands) (a : Action)
  | text (n : Subcommands) (c : Callable)

namespace Finish

/-- The node that was reached without a subcommand. -/
def node? : Finish → Option Subcommands
  | .own n _ => some n
  | .action _ | .text _ _ => none

/-- What is run at the end of a way with some values. -/
def plan (env : Env) (context : Context) : Finish → Plan
  | .action a | .own _ a => .run (.act a context) false
  | .text n c => c.command.plan env (n.arguments context)

end Finish

namespace Link

/-- The state with what is stored for a subcommand. -/
def record (k : Link) (s : State) : State :=
  { s with context := s.context.put k.key k.handle }

/-- The source may run the subcommand. -/
def Permits (k : Link) (source : Source) : Prop :=
  ∀ s, k.mapping.callable = .spec s → s.permits source = true

/-- What is stored under a key on a way down. -/
def under (key : String) : List Link → List Value
  | [] => []
  | k :: links => under key links ++ if key = k.key then [k.handle] else []

theorem under_of_not_mem {key : String} {links : List Link} (other : key ∉ links.map Link.key) :
    under key links = [] := by
  induction links with
  | nil => rfl
  | cons k links ih =>
      obtain ⟨here, later⟩ := not_or.mp (List.mem_cons.not.mp other)
      rw [under, ih later, if_neg here]
      rfl

theorem under_of_mem {links : List Link} (distinct : (links.map Link.key).Nodup) {k : Link}
    (there : k ∈ links) : under k.key links = [k.handle] := by
  induction links with
  | nil => cases there
  | cons l links ih =>
      obtain ⟨fresh, others⟩ := List.nodup_cons.mp distinct
      rcases List.mem_cons.mp there with rfl | later
      · rw [under, under_of_not_mem fresh, if_pos rfl]
        rfl
      · have other : k.key ≠ l.key := fun same => fresh (same ▸ List.mem_map_of_mem later)
        rw [under, ih others later, if_neg other]
        rfl

end Link

/-- Words lead down from a command: what is read from one state to another, which subcommands are
named, and where the way ends. -/
inductive Descends (env : Env) : Spec → State → List Link → Finish → State → Prop
  | action {s a u t} (body : Spec.body s = .action a) (own : ReadsOwn env (Spec.own s) u t) :
      Descends env s u [] (.action a) t
  | own {s n a u v t} (body : Spec.body s = .subcommands n) (before : ReadsOwn env (Spec.own s) u v)
      (act : Subcommands.action n = some a) (unnamed : Subcommands.ReadsUnnamed env n v t) :
      Descends env s u [] (.own n a) t
  | spec {s n u v word c m below links fin w} (body : Spec.body s = .subcommands n)
      (before : ReadsOwn env (Spec.own s) u v) (next : Cursor.next? (State.cursor v) = some (word, c))
      (named : (Subcommands.commands n).get? (some env.source) word = some m)
      (leads : m.callable = .spec below) (rest : Descends env below { v with cursor := c } links fin w)
      (all : (State.cursor w).remaining = []) :
      Descends env s u (⟨n, word, m⟩ :: links) fin (Link.record ⟨n, word, m⟩ w)
  | text {s n u v word c m w} (body : Spec.body s = .subcommands n)
      (before : ReadsOwn env (Spec.own s) u v) (next : Cursor.next? (State.cursor v) = some (word, c))
      (named : (Subcommands.commands n).get? (some env.source) word = some m)
      (unspecified : ∀ below, m.callable ≠ .spec below)
      (rest : (Subcommands.toNode n).populate m.callable.command env { v with cursor := c } = .ok () w) :
      Descends env s u [⟨n, word, m⟩] (.text n m.callable) (Link.record ⟨n, word, m⟩ w)

variable {env : Env}

/-! ## One level -/

namespace Subcommands

variable {n : Subcommands} {u t w : State} {word : String} {c : Cursor} {m : Mapping Callable}

theorem read_subcommand (next : u.cursor.next? = some (word, c))
    (named : n.commands.get? (some env.source) word = some m)
    (below : n.toNode.populate m.callable.command env { u with cursor := c } = .ok () w) :
    n.toNode.read env u = .ok () (Link.record ⟨n, word, m⟩ w) := by
  rw [read_of_next next, Node.readNamed, next]
  simp only [toNode_get?_some named, Mapping.map_callable, below, store_apply, toNode_key,
    Node.handle, Mapping.map_name]
  rfl

theorem ReadsUnnamed.read {a : Action} (action : n.action = some a) (h : n.ReadsUnnamed env u t) :
    n.toNode.read env u = .ok () t := by
  cases h with
  | spent ended own =>
      unfold Node.read
      rw [bind_of_ok (hasNext_apply u), ended, toNode_action, action, toNode_fallback]
      generalize n.fallback = f at own ⊢
      cases own with
      | nothing => rfl
      | element read => exact read
  | unknown next named fallback own =>
      rw [read_of_next next, Node.readNamed, next]
      simp only [toNode_get?_none named, toNode_action, action, toNode_fallback_some fallback, own]
  | failed next named below onFail fallback own =>
      rw [read_of_next next, Node.readNamed, next]
      simp only [toNode_get?_some named, Mapping.map_callable, below, Node.recover, onFail,
        toNode_fallback_some fallback, own]

theorem of_spent (spent : u.cursor.next? = none) (read : n.toNode.read env u = .ok () t) :
    n.action ≠ none ∧ ReadsOwn env n.fallback u t := by
  have ended : u.cursor.hasNext = false := Cursor.hasNext_of_next?_none spent
  unfold Node.read at read
  rw [bind_of_ok (hasNext_apply u), ended, toNode_action, toNode_fallback] at read
  cases action : n.action with
  | none =>
      rw [action] at read
      have named : n.toNode.readNamed env u = .ok () t := read
      rw [Node.readNamed, spent] at named
      cases named
  | some a =>
      rw [action] at read
      refine ⟨Option.some_ne_none a, ?_⟩
      generalize n.fallback = f at read ⊢
      cases f with
      | none =>
          cases read
          exact .nothing
      | some e => exact .element read

theorem of_unknown (next : u.cursor.next? = some (word, c))
    (named : n.commands.get? (some env.source) word = none)
    (read : n.toNode.read env u = .ok () t) :
    n.action ≠ none ∧ ∃ own, n.fallback = some own ∧ own.parser.parse env u = .ok () t := by
  rw [read_of_next next, Node.readNamed, next] at read
  simp only [toNode_get?_none named] at read
  split at read
  · rename_i a p action there
    rw [toNode_action] at action
    rw [toNode_fallback, Option.map_eq_some_iff] at there
    obtain ⟨own, fallback, rfl⟩ := there
    exact ⟨by simp [action], own, fallback, read⟩
  · cases read

theorem of_recover {entry : State} {e : ParseError} {b : Command}
    (read : n.toNode.recover env word b entry e = .ok () t) :
    n.toNode.fallbackOnFail = true ∧
      ∃ own, n.fallback = some own ∧ own.parser.parse env entry = .ok () t := by
  unfold Node.recover at read
  split at read
  · rename_i p onFail there
    rw [toNode_fallback, Option.map_eq_some_iff] at there
    obtain ⟨own, fallback, rfl⟩ := there
    exact ⟨onFail, own, fallback, read⟩
  · cases read

/-- A node reads a subcommand, or its own arguments where none can be read. -/
theorem read_cases (read : n.toNode.read env u = .ok () t) :
    ((n.action ≠ none ∨ n.fallback ≠ none) ∧ n.ReadsUnnamed env u t) ∨
      ∃ word c m w, u.cursor.next? = some (word, c) ∧
        n.commands.get? (some env.source) word = some m ∧
        n.toNode.populate m.callable.command env { u with cursor := c } = .ok () w ∧
        t = Link.record ⟨n, word, m⟩ w := by
  cases next : u.cursor.next? with
  | none =>
      obtain ⟨action, own⟩ := of_spent next read
      exact .inl ⟨.inl action, .spent (Cursor.hasNext_of_next?_none next) own⟩
  | some pair =>
      obtain ⟨word, c⟩ := pair
      cases named : n.commands.get? (some env.source) word with
      | none =>
          obtain ⟨action, own, fallback, below⟩ := of_unknown next named read
          exact .inl ⟨.inl action, .unknown next named fallback below⟩
      | some m =>
          rw [read_of_next next, Node.readNamed, next] at read
          simp only [toNode_get?_some named, Mapping.map_callable] at read
          cases below : n.toNode.populate m.callable.command env { u with cursor := c } with
          | ok a w =>
              simp only [below, store_apply, toNode_key, Node.handle, Mapping.map_name] at read
              cases read
              exact .inr ⟨word, c, m, w, rfl, named, below, rfl⟩
          | error e v =>
              simp only [below] at read
              obtain ⟨onFail, own, fallback, rest⟩ := of_recover read
              have there : n.fallback ≠ none := by simp [fallback]
              exact .inl ⟨.inr there, .failed next named below onFail fallback rest⟩

end Subcommands

theorem readsOwn_none {u t : State} : ReadsOwn env none u t ↔ t = u := by
  constructor
  · rintro ⟨⟩
    rfl
  · rintro rfl
    exact .nothing

theorem readsOwn_some {e : Element} {u t : State} :
    ReadsOwn env (some e) u t ↔ e.parser.parse env u = .ok () t := by
  constructor
  · intro own
    cases own with
    | element read => exact read
  · exact .element

namespace Spec

variable {s : Spec} {n : Subcommands} {u t : State}

theorem reads_action {a : Action} (body : s.body = .action a) :
    s.behaviour.grammar.parse env u = .ok () t ↔ ReadsOwn env s.own u t := by
  rw [behaviour_grammar, grammar, body]
  cases s.own with
  | none =>
      rw [readsOwn_none]
      change EStateM.Result.ok () u = .ok () t ↔ _
      simp [eq_comm]
  | some e => exact readsOwn_some.symm

/-- A command reads its own arguments, and then its node reads. -/
theorem reads_subcommands (body : s.body = .subcommands n) :
    s.behaviour.grammar.parse env u = .ok () t ↔
      ∃ v, ReadsOwn env s.own u v ∧ n.toNode.read env v = .ok () t := by
  rw [behaviour_grammar, grammar, body]
  cases s.own with
  | none =>
      simp only [readsOwn_none, exists_eq_left]
      rfl
  | some e =>
      simp only [readsOwn_some]
      change (do e.parser.parse env; n.toNode.read env; pure () : Reading Unit) u = _ ↔ _
      rw [bind_eq_ok]
      constructor
      · rintro ⟨⟨⟩, v, own, rest⟩
        obtain ⟨⟨⟩, w, below, same⟩ := bind_eq_ok.mp rest
        cases same
        exact ⟨v, own, below⟩
      · rintro ⟨v, own, below⟩
        exact ⟨(), v, own, bind_eq_ok.mpr ⟨(), t, below, rfl⟩⟩

end Spec

/-! ## All levels -/

variable {s : Spec} {u t : State} {links : List Link} {fin : Finish}

/-- What leads down is read by the command, and leaves what the way leaves. -/
theorem Descends.reads (way : Descends env s u links fin t) :
    s.behaviour.grammar.parse env u = .ok () t := by
  induction way with
  | action body own => exact (Spec.reads_action body).mpr own
  | own body before act unnamed =>
      exact (Spec.reads_subcommands body).mpr ⟨_, before, unnamed.read act⟩
  | spec body before next named leads _ all ih =>
      refine (Spec.reads_subcommands body).mpr ⟨_, before, ?_⟩
      refine Subcommands.read_subcommand next named ?_
      rw [leads]
      exact Spec.populate_eq_ok.mpr ⟨ih, all⟩
  | text body before next named _ rest =>
      refine (Spec.reads_subcommands body).mpr ⟨_, before, ?_⟩
      exact Subcommands.read_subcommand next named rest

/-- What a built command reads leads down from it: its nodes have an action or else no arguments that
could be read instead of a subcommand. -/
theorem Spec.Built.descends {bound : Nat} (built : Built bound s)
    (read : s.behaviour.grammar.parse env u = .ok () t) :
    ∃ links fin, Descends env s u links fin t := by
  -- The numbers of the nodes fall on the way down.
  induction bound using Nat.strongRecOn generalizing s u t with
  | ind bound ih =>
      cases body : s.body with
      | action a => exact ⟨[], .action a, .action body ((Spec.reads_action body).mp read)⟩
      | subcommands n =>
          obtain ⟨number, d, within, node, children⟩ := built.branches body
          obtain ⟨v, before, node_read⟩ := (Spec.reads_subcommands body).mp read
          rcases Subcommands.read_cases node_read with
            ⟨other, unnamed⟩ | ⟨word, c, m, w, next, named, below, rfl⟩
          · rcases node.own with ⟨action, fallback⟩ | ⟨⟨a, action⟩, -⟩
            · exact absurd other (by simp [action, fallback])
            · exact ⟨[], .own n a, .own body before action unnamed⟩
          · cases callable : m.callable with
            | spec inner =>
                have registered := Dispatcher.mem_callables_of_get? named
                rw [callable] at below registered
                obtain ⟨rest, all⟩ := Spec.populate_eq_ok.mp below
                obtain ⟨links, fin, way⟩ := ih number within (children inner registered) rest
                exact ⟨_, fin, .spec body before next named callable way all⟩
            | dispatcher _ | raw _ =>
                refine ⟨_, _, .text body before next named ?_ below⟩
                simp [callable]

/-- A built command reads a line just where the line leads down from it. -/
theorem Spec.Built.reads_iff {bound : Nat} (built : Built bound s) :
    s.behaviour.grammar.parse env u = .ok () t ↔ ∃ links fin, Descends env s u links fin t := by
  constructor
  · exact built.descends
  · rintro ⟨links, fin, way⟩
    exact way.reads

end CommandGrammar
