import CommandGrammar.Proofs.Descent

/-!
# The way that values lead

What was read has one value for each subcommand that was named, under the key of its node, and none
under the key of a node of which none was read. So the values lead down the way that the words led.
-/

namespace CommandGrammar

open Reading

/-! ## Nested commands -/

/-- A command is another, or its node reads one in place that the other is nested in. -/
inductive Spec.Nests : Spec → Spec → Prop
  | self (s : Spec) : Nests s s
  | inside {s n t c} (body : Spec.body s = .subcommands n)
      (registered : .spec t ∈ n.commands.callables) (rest : Nests t c) : Nests s c

namespace Spec

variable {s t : Spec} {n : Subcommands} {low : Nat} {word held : String → Prop} {key : String}

/-- The own arguments of a command, before its node or instead of a subcommand. -/
def Arguments (s : Spec) (e : Element) : Prop :=
  s.own = some e ∨ ∃ n, s.body = .subcommands n ∧ n.fallback = some e

/-- The keys of the nodes of a command and of those nested in it. -/
def NodeKey (s : Spec) (key : String) : Prop :=
  ∃ t n, s.Nests t ∧ t.body = .subcommands n ∧ n.key = key

/-- Own arguments and texts, also of nested commands, are not stored under keys that are held. -/
structure Spares (word held : String → Prop) (s : Spec) : Prop where
  arguments : ∀ t e, s.Nests t → t.Arguments e → e.Spares word held
  texts : ∀ t n, s.Nests t → t.body = .subcommands n → ¬ held (n.key ++ "_args")

/-- Own arguments, also of nested commands, are not stored under the keys of nodes, where words of a
kind are read. -/
def Separate (word : String → Prop) (s : Spec) : Prop :=
  ∀ t e, s.Nests t → t.Arguments e → e.Spares word s.NodeKey

theorem Spares.inside (h : s.Spares word held) (body : s.body = .subcommands n)
    (registered : .spec t ∈ n.commands.callables) : t.Spares word held :=
  ⟨fun c e nested => h.arguments c e (.inside body registered nested),
    fun c m nested => h.texts c m (.inside body registered nested)⟩

theorem Built.nodeKey {bound : Nat} (built : Built bound s) (there : s.NodeKey key) :
    ∃ number, key = Subcommands.keyOf number := by
  obtain ⟨t, n, nested, body, rfl⟩ := there
  induction nested generalizing bound with
  | self s =>
      obtain ⟨number, d, -, node, -⟩ := built.branches body
      exact ⟨number, node.key⟩
  | inside above registered _ ih =>
      obtain ⟨number, d, -, -, children⟩ := built.branches above
      exact ih (children _ registered) body

/-- Own arguments that store under no key of any node are separate. -/
theorem Built.separate {bound : Nat} (built : Built bound s)
    (free : ∀ t e, s.Nests t → t.Arguments e →
      e.Spares word fun key => ∃ number, key = Subcommands.keyOf number) : s.Separate word := by
  intro t e nested own
  refine (free t e nested own).imp fun d stores key there held => ?_
  exact stores key there (built.nodeKey held)

theorem Built.spares {bound : Nat} (built : Built bound s) (separate : s.Separate word) :
    s.Spares word s.NodeKey := by
  refine ⟨separate, fun t n nested body text => ?_⟩
  obtain ⟨i, key⟩ := built.nodeKey ⟨t, n, nested, body, rfl⟩
  obtain ⟨j, same⟩ := built.nodeKey text
  rw [key] at same
  exact Subcommands.keyOf_ne_arguments j i same.symm

end Spec

/-! ## Values on the way -/

variable {env : Env} {low : Nat} {word held : String → Prop} {values : String → List Value}
  {s : Spec} {n : Subcommands} {u t : State} {links : List Link} {fin : Finish}

theorem State.Untouched.next {v : String} {c : Cursor} (h : u.Untouched low word held values)
    (read : u.cursor.next? = some (v, c)) :
    { u with cursor := c }.Untouched low word held values :=
  ⟨(h.cursor.next read).1, h.ordered, h.kept⟩

/-- What is stored for a subcommand is one more value under the key of its node. -/
theorem State.Untouched.record
    (h : u.Untouched low word held fun key => values key ++ Link.under key links) (k : Link) :
    (k.record u).Untouched low word held fun key => values key ++ Link.under key (k :: links) := by
  refine ⟨h.cursor, h.ordered.insert _ _, fun key there => ?_⟩
  have before := h.kept key there
  change (u.context.put k.key k.handle).all key = _
  rw [Context.all_put h.ordered, before, Link.under, ← List.append_assoc]
  split
  · rfl
  · rw [List.append_nil]

section Inline

variable (inline : FlagScanner.Inlines word)

include inline

theorem ReadsOwn.untouched {own : Option Element} (h : u.Untouched low word held values)
    (spares : ∀ e, own = some e → e.Spares word held)
    (read : ReadsOwn env own u t) : t.Untouched low word held values := by
  cases read with
  | nothing => exact h
  | @element e _ _ read =>
      have kept : (Guard.keys low inline held values).Keeps (e.parser.parse env) :=
        Element.guarded env ((spares e rfl).imp fun _ free => ⟨free, fun _ => trivial⟩)
      exact kept.ok h read

theorem Spec.Spares.untouched (spares : s.Spares word held) (h : u.Untouched low word held values)
    (read : ReadsOwn env s.own u t) : t.Untouched low word held values :=
  read.untouched inline h fun e there => spares.arguments s e (.self s) (.inl there)

theorem Subcommands.ReadsUnnamed.untouched (h : u.Untouched low word held values)
    (spares : ∀ e, n.fallback = some e → e.Spares word held)
    (read : n.ReadsUnnamed env u t) : t.Untouched low word held values := by
  cases read with
  | spent _ own => exact own.untouched inline h spares
  | unknown _ _ fallback own | failed _ _ _ _ fallback own =>
      have read : ReadsOwn env n.fallback u t := by
        rw [fallback]
        exact .element own
      exact read.untouched inline h spares

/-- The text for a subcommand without a grammar is stored under a key of its own. -/
theorem Subcommands.text_untouched {c : Callable} (h : u.Untouched low word held values)
    (unspecified : ∀ below, c ≠ .spec below) (free : ¬ held (n.key ++ "_args"))
    (read : n.toNode.populate c.command env u = .ok () t) : t.Untouched low word held values := by
  have unread := Callable.program_eq_none unspecified
  have kept : (Guard.keys low inline held values).Keeps (n.toNode.populate c.command env) := by
    refine Node.guarded_populate (fun p program => ?_) fun _ => ?_
    · cases unread.symm.trans program
    · rw [toNode_argumentsKey]
      exact free
  exact kept.ok h read

/-- On a way down the values under the keys that are held are those of the subcommands named. -/
theorem Descends.untouched (way : Descends env s u links fin t) (spares : s.Spares word held)
    (h : u.Untouched low word held values) :
    t.Untouched low word held fun key => values key ++ Link.under key links := by
  induction way with
  | @action s a u t body own =>
      simpa only [Link.under, List.append_nil] using spares.untouched inline h own
  | @own s n a u v t body before act unnamed =>
      have first := spares.untouched inline h before
      simpa only [Link.under, List.append_nil] using
        unnamed.untouched inline first fun e there =>
          spares.arguments s e (.self s) (.inr ⟨n, body, there⟩)
  | @spec s n u v typed c m below links fin w body before next named leads rest all ih =>
      have first := spares.untouched inline h before
      have registered := Dispatcher.mem_callables_of_get? named
      rw [leads] at registered
      exact (ih (spares.inside body registered) (first.next next)).record _
  | @text s n u v typed c m w body before next named unspecified rest =>
      have first := spares.untouched inline h before
      have text := Subcommands.text_untouched inline (first.next next) unspecified
        (spares.texts s n (.self s) body) rest
      have last : w.Untouched low word held fun key => values key ++ Link.under key [] := by
        simpa only [Link.under, List.append_nil] using text
      exact last.record _

end Inline

/-! ## Nodes on the way -/

namespace Finish

/-- The nodes that a way passes, with the one where it ends if that reads no subcommand. -/
def passed (fin : Finish) (links : List Link) : List Subcommands :=
  links.map Link.node ++ fin.node?.toList

theorem passed_cons (fin : Finish) (k : Link) (links : List Link) :
    fin.passed (k :: links) = k.node :: fin.passed links := rfl

theorem keys_passed (fin : Finish) (links : List Link) :
    (fin.passed links).map Subcommands.key =
      links.map Link.key ++ fin.node?.toList.map Subcommands.key := by
  rw [passed, List.map_append, List.map_map]
  rfl

end Finish

/-- A subcommand that is the only value under the key of its node is the one that values name. -/
theorem Link.selected {k : Link} {context : Context} (numbered : k.node.commands.Numbered)
    (named : k.node.commands.get? (some env.source) k.word = some k.mapping)
    (stored : context.all k.key = [k.handle]) : k.node.selected? context = some k.mapping := by
  have one : context.one? k.key = some k.handle := by rw [Context.one?_eq, stored]
  exact Subcommands.selected?_of_stored numbered (Dispatcher.mem_all_of_get? named) one

namespace Descends

theorem nodeKey (way : Descends env s u links fin t) (there : n ∈ fin.passed links) :
    s.NodeKey n.key := by
  induction way with
  | action => cases there
  | @own s m a u v t body _ _ _ | @text s m u v word c mapping w body _ _ _ _ _ =>
      obtain rfl := List.mem_singleton.mp there
      exact ⟨s, n, .self s, body, rfl⟩
  | @spec s m u v word c mapping below links fin w body _ _ named leads _ _ ih =>
      rcases List.mem_cons.mp there with rfl | later
      · exact ⟨s, _, .self s, body, rfl⟩
      · obtain ⟨t, l, nested, body', key⟩ := ih later
        have registered := Dispatcher.mem_callables_of_get? named
        rw [leads] at registered
        exact ⟨t, l, .inside body registered nested, body', key⟩

/-- The nodes have keys of ever smaller numbers. -/
theorem numbers {bound : Nat} (way : Descends env s u links fin t) (built : s.Built bound) :
    ∃ numbers : List Nat,
      (fin.passed links).map Subcommands.key = numbers.map Subcommands.keyOf ∧
        numbers.Pairwise (· > ·) ∧ ∀ i ∈ numbers, i < bound := by
  induction way generalizing bound with
  | action => exact ⟨[], rfl, .nil, nofun⟩
  | own body _ _ _ | text body _ _ _ _ _ =>
      obtain ⟨number, d, within, node, -⟩ := Spec.Built.branches built body
      refine ⟨[number], ?_, List.pairwise_singleton _ _, by simpa using within⟩
      simp [Finish.passed, Finish.node?, node.key]
  | spec body _ _ named leads _ _ ih =>
      obtain ⟨number, d, within, node, children⟩ := Spec.Built.branches built body
      have registered := Dispatcher.mem_callables_of_get? named
      rw [leads] at registered
      obtain ⟨numbers, keys, falling, below⟩ := ih (children _ registered)
      refine ⟨number :: numbers, ?_, List.pairwise_cons.mpr ⟨below, falling⟩, ?_⟩
      · rw [Finish.passed_cons, List.map_cons, List.map_cons, node.key, keys]
      · intro i there
        rcases List.mem_cons.mp there with rfl | later
        · exact within
        · exact Nat.lt_trans (below i later) within

theorem distinct {bound : Nat} (way : Descends env s u links fin t) (built : s.Built bound) :
    ((fin.passed links).map Subcommands.key).Nodup := by
  obtain ⟨numbers, keys, falling, -⟩ := way.numbers built
  rw [keys]
  exact List.Nodup.map (fun _ _ => Subcommands.keyOf_injective) (falling.imp Nat.ne_of_gt)

/-- A subcommand that was named is the only value under the key of its node. -/
theorem under_link {bound : Nat} (way : Descends env s u links fin t) (built : s.Built bound)
    {k : Link} (there : k ∈ links) : Link.under k.key links = [k.handle] := by
  have distinct := way.distinct built
  rw [Finish.keys_passed] at distinct
  exact Link.under_of_mem distinct.of_append_left there

theorem under_node {bound : Nat} (way : Descends env s u links fin t) (built : s.Built bound)
    (ends : fin.node? = some n) : Link.under n.key links = [] := by
  have distinct := way.distinct built
  rw [Finish.keys_passed, ends] at distinct
  refine Link.under_of_not_mem fun there => ?_
  exact List.disjoint_of_nodup_append distinct there (by simp)

/-- Values that are left by a way lead down it again, past commands that the source may run. -/
theorem select {bound : Nat} (way : Descends env s u links fin t) (built : s.Built bound)
    {reader : Env} {context : Context} (permitted : ∀ k ∈ links, k.Permits reader.source)
    (stored : ∀ k ∈ links, context.all k.key = [k.handle])
    (unnamed : ∀ n, fin.node? = some n → context.all n.key = []) :
    s.body.core.select reader context = fin.plan reader context := by
  -- The values are those of the whole line at each level, while the links become fewer.
  induction way generalizing bound with
  | action body _ =>
      rw [body]
      rfl
  | @own s n a u v t body _ act _ =>
      have nothing : context.one? n.key = none := by rw [Context.one?_eq, unnamed n rfl]
      rw [body]
      exact Subcommands.select_of_unnamed nothing act
  | @text s n u v word c m w body _ _ named unspecified _ =>
      obtain ⟨number, d, -, node, -⟩ := built.branches body
      have selected : n.selected? context = some m :=
        Link.selected (k := ⟨n, word, m⟩) node.numbered named (stored _ List.mem_cons_self)
      rw [body]
      exact Subcommands.select_of_text selected unspecified
  | @spec s n u v word c m below links fin w body _ _ named leads _ _ ih =>
      obtain ⟨number, d, -, node, children⟩ := built.branches body
      have registered := Dispatcher.mem_callables_of_get? named
      rw [leads] at registered
      have selected : n.selected? context = some m :=
        Link.selected (k := ⟨n, word, m⟩) node.numbered named (stored _ List.mem_cons_self)
      have above := permitted _ List.mem_cons_self below leads
      have lower := ih (children below registered)
        (fun k there => permitted k (List.mem_cons_of_mem _ there))
        (fun k there => stored k (List.mem_cons_of_mem _ there)) unnamed
      rw [body, ← lower]
      exact Subcommands.select_of_spec selected leads above

/-- Every subcommand on the way is what its node has for the word. -/
theorem named (way : Descends env s u links fin t) :
    ∀ k ∈ links, k.node.commands.get? (some env.source) k.word = some k.mapping := by
  induction way with
  | action | own => exact nofun
  | text _ _ _ named _ _ => exact List.forall_mem_singleton.mpr named
  | spec _ _ _ named _ _ _ ih => exact List.forall_mem_cons.mpr ⟨named, ih⟩

/-- Nothing is refused at the end of a way, except by a dispatcher for the text it is handed. -/
theorem refused (way : Descends env s u links fin t) {reader : Env} {context : Context} {e : Error}
    (refuses : fin.plan reader context = .refuse e) : ∃ n d, fin = .text n (.dispatcher d) := by
  induction way with
  | action | own => cases refuses
  | spec _ _ _ _ _ _ _ ih => exact ih refuses
  | @text s n u v word c m w _ _ _ _ unspecified _ =>
      cases callable : m.callable with
      | spec below => exact absurd callable (unspecified below)
      | dispatcher d => exact ⟨n, d, rfl⟩
      | raw r =>
          rw [callable] at refuses
          cases refuses

end Descends

namespace Spec

end Spec

end CommandGrammar
