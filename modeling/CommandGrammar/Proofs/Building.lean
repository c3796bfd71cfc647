import CommandGrammar.Proofs.Nesting

/-!
# Built commands

A specified command is built from a draft, after the commands that it has as subcommands. Its node, if
it has one, gets a number that no node below it has, so their keys differ.
-/

namespace CommandGrammar

/-! ## Keys of nodes -/

namespace Subcommands

theorem toList_keyOf (n : Nat) : (keyOf n).toList = "child".toList ++ Nat.toDigits 10 n := by
  rw [keyOf, String.toList_append, ← Nat.toList_repr]
  rfl

theorem keyOf_injective {n m : Nat} (same : keyOf n = keyOf m) : n = m := by
  have letters := congrArg String.toList same
  rw [toList_keyOf, toList_keyOf] at letters
  have digits := List.append_cancel_left letters
  rw [← Nat.ofDigitChars_ten_toDigits (n := n), digits, Nat.ofDigitChars_ten_toDigits]

theorem ne_keyOf {key : String} (other : key.toList.take 5 ≠ "child".toList) (n : Nat) :
    key ≠ keyOf n := by
  rintro rfl
  exact other (by rw [toList_keyOf]; rfl)

/-- The key of a node is never that of the arguments of another. -/
theorem keyOf_ne_arguments (n m : Nat) : keyOf n ≠ keyOf m ++ "_args" := by
  intro same
  have underscore : '_' ∈ (keyOf n).toList := by simp [same]
  rw [toList_keyOf, List.mem_append] at underscore
  rcases underscore with letter | digit
  · revert letter
    decide
  · have number := Nat.isDigit_of_mem_toDigits (by decide) (by decide) digit
    revert number
    decide

/-! ## Registered subcommands -/

variable {n : Subcommands} {children : List (List String × Callable)}

theorem register_rest (n : Subcommands) (aliases : List String) (c : Callable) :
    (n.register aliases c).2.key = n.key ∧ (n.register aliases c).2.action = n.action ∧
      (n.register aliases c).2.fallback = n.fallback := by
  cases n
  exact ⟨rfl, rfl, rfl⟩

theorem registerAll_rest (n : Subcommands) (children : List (List String × Callable)) :
    (n.registerAll children).key = n.key ∧ (n.registerAll children).action = n.action ∧
      (n.registerAll children).fallback = n.fallback := by
  unfold registerAll
  induction children generalizing n with
  | nil => exact ⟨rfl, rfl, rfl⟩
  | cons child children ih =>
      obtain ⟨key, action, fallback⟩ := register_rest n child.1 child.2
      obtain ⟨key', action', fallback'⟩ := ih (n.register child.1 child.2).2
      exact ⟨key'.trans key, action'.trans action, fallback'.trans fallback⟩

theorem callables_register {aliases : List String} {c b : Callable}
    (there : b ∈ (n.register aliases c).2.commands.callables) :
    b = c ∨ b ∈ n.commands.callables := by
  cases n with
  | mk key action fallback commands onFail =>
      change b ∈ (commands.register c aliases).2.callables at there
      cases aliases with
      | nil => exact .inr there
      | cons primary others =>
          obtain ⟨m, listed, rfl⟩ := List.mem_map.mp there
          obtain ⟨k, inTable⟩ := Multimap.mem_allValues_iff.mp listed
          rcases (Dispatcher.mem_insertAll (primary :: others)).mp inTable with ⟨rfl, -⟩ | old
          · exact .inl rfl
          · exact .inr (List.mem_map_of_mem (Multimap.mem_allValues_iff.mpr ⟨k, old⟩))

theorem callables_registerAll {b : Callable}
    (there : b ∈ (n.registerAll children).commands.callables) :
    b ∈ children.map (·.2) ∨ b ∈ n.commands.callables := by
  unfold registerAll at there
  induction children generalizing n with
  | nil => exact .inr there
  | cons child children ih =>
      rcases ih there with later | first
      · exact .inl (List.mem_cons_of_mem _ later)
      · rcases callables_register first with rfl | old
        · exact .inl List.mem_cons_self
        · exact .inr old

end Subcommands

/-! ## Drafts -/

namespace Spec

/-- What is known of the node of a command that was built with a number: without an action it has no
arguments of its own, and with one the command has none before it. -/
structure Branches (s : Spec) (n : Subcommands) (number : Nat) (d : SpecDraft) : Prop where
  key : n.key = Subcommands.keyOf number
  numbered : n.commands.Numbered
  own : n.action = none ∧ n.fallback = none ∨ (∃ a, n.action = some a) ∧ s.own = none
  registered : ∀ c ∈ n.commands.callables, c ∈ d.children.map (·.2)

theorem branches_registerAll {d : SpecDraft} {number : Nat} {action : Option Action}
    {fallback : Option Element} {onFail : Bool} {s : Spec}
    (own : action = none ∧ fallback = none ∨ (∃ a, action = some a) ∧ s.own = none) :
    s.Branches ((Subcommands.mk (Subcommands.keyOf number) action fallback .empty onFail).registerAll
      d.children) number d := by
  let first := Subcommands.mk (Subcommands.keyOf number) action fallback .empty onFail
  have numbered : first.commands.Numbered := .empty _
  obtain ⟨key, sameAction, sameFallback⟩ := first.registerAll_rest d.children
  refine ⟨key, Subcommands.numbered_registerAll numbered _, ?_, ?_⟩
  · rw [sameAction, sameFallback]
    exact own
  · intro c there
    exact (Subcommands.callables_registerAll there).resolve_right fun old => nomatch old

/-- A built command has an action, or a node with the number that was next. -/
theorem of_build {d : SpecDraft} {number next : Nat} {s : Spec}
    (built : d.build number = (.ok s, next)) :
    (∃ a, s.body = .action a) ∨
      next = number + 1 ∧ ∃ n, s.body = .subcommands n ∧ s.Branches n number d := by
  unfold SpecDraft.build at built
  cases children : d.children with
  | nil =>
      cases action : d.action with
      | none =>
          rw [children, action] at built
          cases built
      | some a =>
          rw [children, action] at built
          cases built
          exact .inl ⟨a, rfl⟩
  | cons child others =>
      rw [children] at built
      unfold SpecDraft.branching at built
      cases action : d.action with
      | none =>
          rw [action] at built
          cases built
          exact .inr ⟨rfl, _, rfl, branches_registerAll (.inl ⟨rfl, rfl⟩)⟩
      | some a =>
          rw [action] at built
          cases built
          exact .inr ⟨rfl, _, rfl, branches_registerAll (.inr ⟨⟨a, rfl⟩, rfl⟩)⟩

/-- A command is built from a draft by a number that is below a bound, and its specified subcommands
were built before. -/
inductive Built : Nat → Spec → Prop
  | mk {d : SpecDraft} {number next bound : Nat} {s : Spec}
      (children : ∀ aliases t, (aliases, Callable.spec t) ∈ d.children → Built number t)
      (built : d.build number = (.ok s, next)) (within : next ≤ bound) : Built bound s

/-- The node of a built command has a number below the bound, and the subcommands were built below
that number. -/
theorem Built.branches {bound : Nat} {s : Spec} {n : Subcommands} (h : Built bound s)
    (body : s.body = .subcommands n) :
    ∃ number d, number < bound ∧ s.Branches n number d ∧
      ∀ t, .spec t ∈ n.commands.callables → Built number t := by
  cases h with
  | @mk d number next _ _ children built within =>
      obtain ⟨a, action⟩ | ⟨rfl, there, body', branches⟩ := of_build built
      · cases body.symm.trans action
      · cases body.symm.trans body'
        refine ⟨number, d, within, branches, fun t listed => ?_⟩
        obtain ⟨child, inDraft, leads⟩ := List.mem_map.mp (branches.registered _ listed)
        refine children child.1 t ?_
        rw [← leads]
        exact inDraft

end Spec

end CommandGrammar
