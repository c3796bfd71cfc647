import CommandGrammar.Proofs.Manager.Ownership

/-!
# What an owner's name in front of an alias stands for

An alias behind its owner's name is a key of the table like any other, so other owners may come to
stand under it. What it stands for belongs to its owner, or to one that named the key itself.
-/

namespace CommandGrammar.Manager

/-- The aliases of a registration stay as they were claimed. -/
def Edit.Plain : Edit → Prop
  | .register _ _ _ rewrite => rewrite = id
  | _ => True

/-- An owner registers something under a key, be it by the alias itself or behind its own name. -/
def Edit.Names (owner key : String) : Edit → Prop
  | .register who _ aliases _ => who.id = owner ∧ ∃ a ∈ aliases,
      key = Text.lowercase (normalAlias a) ∨ key = Text.lowercase (qualified owner (normalAlias a))
  | _ => False

/-- The command with a number is removed, or whatever is under a key. -/
def Edit.Removes (key : String) (id : Nat) : Edit → Prop
  | .register .. => False
  | .removeId other => other = id
  | .remove typed => Text.lowercase typed = key
  | .removeAll typed => ∃ t ∈ typed, Text.lowercase t = key

variable {m : Manager} {e : Edit} {Q : Nat → String → String → Prop}

/-- The keys of what a registration claims are those that it names. -/
theorem claimed_iff_names {owner : Owner} {callable : Callable} {aliases claimed : List String}
    {rewrite : List String → List String} {key : String}
    (free : m.claimAliases owner.id [] aliases = .ok claimed) :
    (∃ x ∈ claimed, key = Text.lowercase x) ↔
      (Edit.register owner callable aliases rewrite).Names owner.id key := by
  simp only [mem_claimAliases free, List.not_mem_nil, not_false_eq_true, true_and, Edit.Names]
  constructor
  · rintro ⟨x, ⟨a, ha, rfl | rfl⟩, rfl⟩
    · exact ⟨a, ha, .inl rfl⟩
    · exact ⟨a, ha, .inr rfl⟩
  · rintro ⟨a, ha, rfl | rfl⟩
    · exact ⟨_, ⟨a, ha, .inl rfl⟩, rfl⟩
    · exact ⟨_, ⟨a, ha, .inr rfl⟩, rfl⟩

/-- Values stand by their numbers, and each is under its key because its holder was allowed to be
there. -/
structure Settled (Q : Nat → String → String → Prop) (m : Manager) : Prop where
  consistent : m.Consistent
  usual : m.dispatcher.policy = Policy.first
  sorted : ∀ k, (m.dispatcher.table.values k).Pairwise fun a b => a.name.id ≤ b.name.id
  allowed : ∀ k c owner, (k, c) ∈ m.dispatcher.table.toList → Holds m.holdings owner c.name →
    Q c.name.id k owner

namespace Settled

theorem empty : (Manager.empty).Settled Q where
  consistent := .empty _
  usual := rfl
  sorted _ := List.Pairwise.nil
  allowed _ _ _ inTable := by simp [Manager.empty, Dispatcher.empty] at inTable

theorem shrink {m' : Manager} (settled : m.Settled Q) (ok : m'.Consistent) (h : m.Shrinks m') :
    m'.Settled Q where
  consistent := ok
  usual := h.policy.trans settled.usual
  sorted k := (settled.sorted k).sublist
    (Multimap.values_sublist settled.consistent.table ok.table h.entries k)
  allowed k c owner inTable holds :=
    settled.allowed k c owner (h.entries.subset inTable) (h.holders owner c.name holds)

/-- A command that comes in has a number above the others, so it stands behind them. -/
theorem add (settled : m.Settled Q) {owner : Owner} {callable : Callable} {claimed : List String}
    {name : CommandName} {d : Dispatcher Callable}
    (ok : (Manager.mk d (addHolding owner name m.holdings)).Consistent)
    (added : m.dispatcher.registerWith callable claimed id = (some name, d))
    (may : ∀ x ∈ claimed, Q m.dispatcher.nextId (Text.lowercase x) owner.id) :
    (Manager.mk d (addHolding owner name m.holdings)).Settled Q := by
  obtain ⟨number, -, -, rfl⟩ := Dispatcher.registerWith_some added
  have table := settled.consistent.table
  refine ⟨ok, settled.usual, ?_, ?_⟩
  · intro k
    rw [id_eq, Dispatcher.values_insertAll table, List.pairwise_append]
    refine ⟨settled.sorted k, ?_, ?_⟩
    · exact List.pairwise_replicate.mpr (.inr (Nat.le_refl _))
    · intro a ha b hb
      have below := settled.consistent.below k a ((Multimap.mem_values table).mp ha)
      rw [List.eq_of_mem_replicate hb, number]
      exact Nat.le_of_lt below
  · intro k c holder inTable holds
    rcases Dispatcher.mem_insertAll _ |>.mp inTable with ⟨rfl, x, listed, rfl⟩ | old
    · rcases holds_addHolding.mp holds with ⟨rfl, -⟩ | before
      · rw [number]
        exact may x listed
      · exfalso
        obtain ⟨h, hh, -, inCommands⟩ := before
        have listed : name ∈ held m.holdings := List.mem_flatMap.mpr ⟨h, hh, inCommands⟩
        obtain ⟨k', c', inOld, same⟩ := (settled.consistent.agree name).mp listed
        have below := settled.consistent.below k' c' inOld
        rw [same, number] at below
        exact Nat.lt_irrefl _ below
    · have below := settled.consistent.below k c old
      rcases holds_addHolding.mp holds with ⟨-, same⟩ | before
      · rw [same, number] at below
        exact absurd below (Nat.lt_irrefl _)
      · exact settled.allowed k c holder old before

theorem edit (settled : m.Settled Q) (plain : e.Plain)
    (may : ∀ owner k, e.Names owner k → Q m.dispatcher.nextId k owner) :
    (m.edit e).Settled Q := by
  have ok := settled.consistent.edit e
  rcases m.edit_cases e with h |
    ⟨owner, callable, aliases, rewrite, claimed, name, d, rfl, free, added, after⟩
  · exact settled.shrink ok h
  · obtain rfl : rewrite = id := plain
    rw [after] at ok ⊢
    refine settled.add ok added fun x listed => ?_
    exact may _ _ ((claimed_iff_names free).mp ⟨x, listed, rfl⟩)

theorem nextId_edit (m : Manager) (e : Edit) : m.dispatcher.nextId ≤ (m.edit e).dispatcher.nextId := by
  rcases m.edit_cases e with h | ⟨owner, callable, aliases, rewrite, claimed, name, d, -, -, added, after⟩
  · exact Nat.le_of_eq h.nextId.symm
  · obtain ⟨-, -, -, rfl⟩ := Dispatcher.registerWith_some added
    rw [after]
    exact Nat.le_succ _

theorem run (settled : m.Settled Q) (edits : List Edit) (plain : ∀ e ∈ edits, e.Plain)
    (may : ∀ e ∈ edits, ∀ id, m.dispatcher.nextId ≤ id → ∀ owner k, e.Names owner k → Q id k owner) :
    (m.run edits).Settled Q := by
  induction edits generalizing m with
  | nil => exact settled
  | cons e edits ih =>
      have now := settled.edit (plain e List.mem_cons_self)
        (may e List.mem_cons_self _ (Nat.le_refl _))
      refine ih now (fun e' he' => plain e' (List.mem_cons_of_mem _ he')) ?_
      intro e' he' id above
      exact may e' (List.mem_cons_of_mem _ he') id (Nat.le_trans (nextId_edit m e) above)

end Settled

/-! ## What stays under a key -/

theorem edit_keeps {k : String} {c : Mapping Callable} (inTable : (k, c) ∈ m.dispatcher.table.toList)
    (kept : ¬ e.Removes k c.name.id) : (k, c) ∈ (m.edit e).dispatcher.table.toList := by
  cases e with
  | register owner callable aliases rewrite =>
      rcases m.edit_register owner callable aliases rewrite with
        same | ⟨claimed, name, d, -, added, changed⟩
      · rw [same]
        exact inTable
      · obtain ⟨-, -, -, rfl⟩ := Dispatcher.registerWith_some added
        rw [changed]
        exact (Dispatcher.mem_insertAll _).mpr (.inr inTable)
  | removeId id =>
      have other : id ≠ c.name.id := kept
      simp only [edit]
      rcases m.removeId_cases id with same | taken
      · rw [same]
        exact inTable
      · rw [taken]
        simp [Multimap.toList_filter, inTable, other.symm]
  | remove key =>
      exact Dispatcher.mem_remove.mpr ⟨inTable, fun same => kept same.symm⟩
  | removeAll keys =>
      refine (Dispatcher.mem_removeAll keys).mpr ⟨inTable, fun key listed same => ?_⟩
      exact kept ⟨key, listed, same.symm⟩

theorem run_keeps {k : String} {c : Mapping Callable} (edits : List Edit)
    (inTable : (k, c) ∈ m.dispatcher.table.toList)
    (kept : ∀ e ∈ edits, ¬ e.Removes k c.name.id) : (k, c) ∈ (m.run edits).dispatcher.table.toList := by
  induction edits generalizing m with
  | nil => exact inTable
  | cons e edits ih =>
      exact ih (edit_keeps inTable (kept e List.mem_cons_self))
        fun e' he' => kept e' (List.mem_cons_of_mem _ he')

/-! ## Whose command it is -/

/-- The key that an alias has behind its owner's name. -/
def ownKey (owner name : String) : String :=
  Text.lowercase (qualified owner (normalAlias name))

variable {owner : Owner} {callable : Callable} {aliases : List String} {a : String}
  {before after : List Edit} {name : CommandName}

theorem mem_register {m' : Manager}
    (added : m.register owner callable aliases = .ok (some name, m')) (ha : a ∈ aliases) :
    (ownKey owner.id a, ⟨name, callable⟩) ∈ m'.dispatcher.table.toList := by
  obtain ⟨claimed, d, free, entered, rfl⟩ := register_some added
  obtain ⟨-, -, -, rfl⟩ := Dispatcher.registerWith_some entered
  have listed : qualified owner.id (normalAlias a) ∈ claimed :=
    (mem_claimAliases free).mpr ⟨a, ha, List.not_mem_nil, .inr rfl⟩
  exact (Dispatcher.mem_insertAll _).mpr (.inl ⟨rfl, _, listed, rfl⟩)

/-- Whoever holds a command under a key named the key before an owner registered a command, or is
that owner with that command, or named the key later. -/
def Named (before after : List Edit) (owner : String) (number id : Nat) (key holder : String) : Prop :=
  (∃ e ∈ before, e.Names holder key) ∨ (id = number ∧ holder = owner) ∨
    (number < id ∧ ∃ e ∈ after, e.Names holder key)

theorem settled_run (plain : ∀ e ∈ before ++ after, e.Plain) {m' : Manager}
    (added : (Manager.empty.run before).register owner callable aliases = .ok (some name, m')) :
    (m'.run after).Settled (Named before after owner.id name.id) := by
  have start : (Manager.empty.run before).Settled (Named before after owner.id name.id) :=
    Settled.empty.run before (fun e he => plain e (List.mem_append_left _ he))
      fun e he id _ holder k names => .inl ⟨e, he, names⟩
  obtain ⟨claimed, d, -, entered, rfl⟩ := register_some added
  have number := (Dispatcher.registerWith_some entered).1
  have next := start.add (start.consistent.add entered) entered
    fun x _ => .inr (.inl ⟨number.symm, rfl⟩)
  refine next.run after (fun e he => plain e (List.mem_append_right _ he)) ?_
  intro e he id above holder k names
  obtain ⟨-, -, -, rfl⟩ := Dispatcher.registerWith_some entered
  refine .inr (.inr ⟨?_, e, he, names⟩)
  rw [number]
  exact above

/-- An alias behind its owner's name stands for that owner's command, or for one of an owner that
named the same key: earlier, or later by the alias that its command is known by. -/
theorem get?_qualified (source : Option Source) (plain : ∀ e ∈ before ++ after, e.Plain)
    {m' : Manager}
    (added : (Manager.empty.run before).register owner callable aliases = .ok (some name, m'))
    (ha : a ∈ aliases) (kept : ∀ e ∈ after, ¬ e.Removes (ownKey owner.id a) name.id) :
    ∃ c holder,
      (m'.run after).dispatcher.get? source (qualified owner.id (normalAlias a)) = some c ∧
      (m'.run after).ownerOf? c.name.id = some holder ∧
      (holder.id = owner.id ∨ (∃ e ∈ before, e.Names holder.id (ownKey owner.id a)) ∨
        (Text.lowercase c.name.primary = ownKey owner.id a ∧
          ∃ e ∈ after, e.Names holder.id (ownKey owner.id a))) := by
  let key := qualified owner.id (normalAlias a)
  have settled := settled_run plain added
  have ok := settled.consistent
  have entered := mem_register added ha
  have own : ⟨name, callable⟩ ∈ (m'.run after).dispatcher.all key :=
    (Dispatcher.mem_all ok.table).mpr (run_keeps after entered kept)
  obtain ⟨first, rest, there⟩ := List.exists_cons_of_ne_nil (List.ne_nil_of_mem own)
  -- What stands first was there when the owner came, or is its own.
  have early : first.name.id ≤ name.id := by
    have sorted := settled.sorted (Text.lowercase key)
    change ((m'.run after).dispatcher.all key).Pairwise _ at sorted
    rw [there] at own sorted
    rcases List.mem_cons.mp own with rfl | later
    · exact Nat.le_refl _
    · exact (List.pairwise_cons.mp sorted).1 _ later
  obtain ⟨c, listed, picked, which⟩ := Dispatcher.get?_first source settled.usual there
  have inTable := (Dispatcher.mem_all ok.table).mp listed
  obtain ⟨h, hh, inCommands⟩ := List.mem_flatMap.mp ((ok.agree c.name).mpr ⟨_, c, inTable, rfl⟩)
  refine ⟨c, h.owner, picked, ok.ownerOf_iff.mpr ⟨h, hh, rfl, c.name, inCommands, rfl⟩, ?_⟩
  rcases settled.allowed _ c h.owner.id inTable ⟨h, hh, rfl, inCommands⟩ with
    earlier | ⟨-, same⟩ | ⟨above, later⟩
  · exact .inr (.inl earlier)
  · exact .inl same
  -- A later command is picked only before the first one, by what it is known by.
  · rcases which with rfl | known
    · exact absurd above (Nat.not_lt.mpr early)
    · exact .inr (.inr ⟨known, later⟩)

theorem get?_qualified_of_later :
    let greeting : Callable := .raw { run := fun _ _ => .ok .empty, suggestions := fun _ _ => .ok [] }
    let key := ownKey "o" "a"
    let after : List Edit :=
      [.register ⟨"p", none, none, none, none, []⟩ greeting ["a", "b"] id, .remove "a", .removeAll ["b"]]
    ∃ name m', (Manager.empty.run []).register ⟨"o", none, none, none, none, []⟩ greeting ["a"] =
        .ok (some name, m') ∧
      ∃ c holder, (m'.run after).dispatcher.get? none (qualified "o" (normalAlias "a")) = some c ∧
        (m'.run after).ownerOf? c.name.id = some holder ∧
        (holder.id = "o" ∨ (∃ e ∈ [], Edit.Names holder.id key e) ∨
          (Text.lowercase c.name.primary = key ∧ ∃ e ∈ after, e.Names holder.id key)) := by
  intro greeting key after
  have bare : Text.lowercase "a" ≠ key ∧ Text.lowercase "b" ≠ key := by decide +kernel
  have apart : ∀ id, ∀ e ∈ after, ¬ e.Removes key id := by
    intro id e he
    simp only [after, List.mem_cons, List.not_mem_nil, or_false] at he
    rcases he with rfl | rfl | rfl
    · exact not_false
    · exact bare.1
    · simpa [Edit.Removes] using bare.2
  have plain : ∀ e ∈ [] ++ after, e.Plain := by
    simp [after, Edit.Plain]
  obtain ⟨name, m', added⟩ : ∃ name m', (Manager.empty.run []).register
      ⟨"o", none, none, none, none, []⟩ greeting ["a"] = .ok (some name, m') := ⟨_, _, rfl⟩
  have here : "a" ∈ ["a"] := List.mem_cons_self
  have picked := get?_qualified none plain added here (apart name.id)
  exact ⟨name, m', added, picked⟩

/-- An owner that registers another's alias with that other's name in front holds the key first. -/
theorem get?_qualified_shadowed :
    let greeting : Callable := .raw { run := fun _ _ => .ok .empty, suggestions := fun _ _ => .ok [] }
    let m := Manager.empty.run [
      .register ⟨"p", none, none, none, none, []⟩ greeting ["o:a"] id,
      .register ⟨"o", none, none, none, none, []⟩ greeting ["a"] id]
    (m.dispatcher.all "o:a").map (·.name.id) = [0, 1] ∧ (m.ownedBy "o").map (·.id) = [1] ∧
      (m.dispatcher.get? none "o:a").map (·.name.id) = some 0 ∧
      (m.ownerOf? 0).map (·.id) = some "p" := by
  decide +kernel

end CommandGrammar.Manager
