import CommandGrammar.Manager
import CommandGrammar.Proofs.Dispatcher
import CommandGrammar.Proofs.Manager.Holdings

/-!
# Changes of a manager

The ways in which an application changes a manager, and the runs that they make up.
-/

namespace CommandGrammar.Manager

inductive Edit where
  | register (owner : Owner) (callable : Callable) (aliases : List String)
    (rewrite : List String → List String)
  | removeId (id : Nat)
  | remove (key : String)
  | removeAll (keys : List String)

/-- The manager after a change. A registration that fails changes nothing. -/
def edit (m : Manager) : Edit → Manager
  | .register owner callable aliases rewrite =>
    match m.registerWith owner callable aliases rewrite with
    | .ok (_, changed) => changed
    | .error _ => m
  | .removeId id => (m.removeId id).2
  | .remove key => (m.remove key).2
  | .removeAll keys => (m.removeAll keys).2

def run (m : Manager) (edits : List Edit) : Manager :=
  edits.foldl edit m

variable {m : Manager}

/-- A registration that succeeds claims aliases, and adds one command for what is left of them. -/
theorem registerWith_cases {owner : Owner} {callable : Callable} {aliases : List String}
    {rewrite : List String → List String} {got : Option CommandName} {changed : Manager}
    (h : m.registerWith owner callable aliases rewrite = .ok (got, changed)) :
    ∃ claimed, m.claimAliases owner.id [] aliases = .ok claimed ∧
      ((rewrite claimed = [] ∧ got = none ∧ changed = m) ∨
        ∃ name d, m.dispatcher.registerWith callable claimed rewrite = (some name, d) ∧
          got = some name ∧ changed = ⟨d, addHolding owner name m.holdings⟩) := by
  unfold registerWith at h
  cases claimed : m.claimAliases owner.id [] aliases with
  | error e => simp [claimed, bind, Except.bind] at h
  | ok names =>
      refine ⟨names, rfl, ?_⟩
      simp only [claimed, bind, Except.bind] at h
      cases kept : rewrite names with
      | nil =>
          rw [Dispatcher.registerWith_nil kept] at h
          cases h
          exact .inl ⟨rfl, rfl, rfl⟩
      | cons primary others =>
          right
          simp only [Dispatcher.registerWith, kept] at h ⊢
          cases h
          exact ⟨_, _, rfl, rfl, rfl⟩

theorem registerWith_of_claimed {owner : Owner} {callable : Callable} {aliases claimed : List String}
    {rewrite : List String → List String} {name : CommandName} {d : Dispatcher Callable}
    (free : m.claimAliases owner.id [] aliases = .ok claimed)
    (added : m.dispatcher.registerWith callable claimed rewrite = (some name, d)) :
    m.registerWith owner callable aliases rewrite =
      .ok (some name, ⟨d, addHolding owner name m.holdings⟩) := by
  simp [registerWith, free, added, bind, Except.bind, pure, Except.pure]

theorem register_some {owner : Owner} {callable : Callable} {aliases : List String}
    {name : CommandName} {changed : Manager}
    (h : m.register owner callable aliases = .ok (some name, changed)) :
    ∃ claimed d, m.claimAliases owner.id [] aliases = .ok claimed ∧
      m.dispatcher.registerWith callable claimed id = (some name, d) ∧
      changed = ⟨d, addHolding owner name m.holdings⟩ := by
  obtain ⟨claimed, free, (⟨-, nothing, -⟩ | ⟨_, d, entered, same, rfl⟩)⟩ := registerWith_cases h
  · cases nothing
  · cases same
    exact ⟨claimed, d, free, entered, rfl⟩

/-- An alias is claimed by itself and behind its owner's name. -/
theorem mem_claimAliases {owner x : String} {seen aliases claimed : List String}
    (h : m.claimAliases owner seen aliases = .ok claimed) :
    x ∈ claimed ↔ ∃ a ∈ aliases, normalAlias a ∉ seen ∧
      (x = normalAlias a ∨ x = qualified owner (normalAlias a)) := by
  induction aliases generalizing seen claimed with
  | nil =>
      cases h
      simp
  | cons original rest ih =>
      simp only [claimAliases] at h
      split at h
      · rename_i before
        have known : normalAlias original ∈ seen := by simpa using before
        rw [ih h]
        simp [known]
      · rename_i before
        have unknown : normalAlias original ∉ seen := by simpa using before
        split at h
        · cases h
        · cases later : m.claimAliases owner (seen ++ [normalAlias original]) rest with
          | error e => simp [later, bind, Except.bind] at h
          | ok names =>
              simp only [later, bind, Except.bind, pure, Except.pure, Except.ok.injEq] at h
              subst h
              simp only [List.mem_cons, ih later, exists_eq_or_imp, unknown, not_false_eq_true,
                true_and, List.mem_append, List.not_mem_nil, or_false, not_or]
              constructor
              · rintro (here | here | ⟨a, ha, ⟨other, -⟩, found⟩)
                · exact .inl (.inl here)
                · exact .inl (.inr here)
                · exact .inr ⟨a, ha, other, found⟩
              · rintro (⟨here | here⟩ | ⟨a, ha, other, found⟩)
                · exact .inl here
                · exact .inr (.inl here)
                · by_cases again : normalAlias a = normalAlias original
                  · rw [again] at found
                    exact found.imp_right .inl
                  · exact .inr (.inr ⟨a, ha, ⟨other, again⟩, found⟩)

/-- A registration fails only for an alias that the owner holds already. -/
theorem claimAliases_error {owner : String} {seen aliases : List String} {e : Error}
    (h : m.claimAliases owner seen aliases = .error e) :
    ∃ a ∈ aliases, m.taken owner (normalAlias a) = true ∧
      e = .duplicateAlias owner (normalAlias a) := by
  induction aliases generalizing seen with
  | nil => cases h
  | cons original rest ih =>
      simp only [claimAliases] at h
      split at h
      · obtain ⟨a, ha, found⟩ := ih h
        exact ⟨a, List.mem_cons_of_mem _ ha, found⟩
      · split at h
        · rename_i taken
          cases h
          exact ⟨original, List.mem_cons_self, taken, rfl⟩
        · cases later : m.claimAliases owner (seen ++ [normalAlias original]) rest with
          | ok names => simp [later, bind, Except.bind, pure, Except.pure] at h
          | error e' =>
              simp only [later, bind, Except.bind, Except.error.injEq] at h
              subst h
              obtain ⟨a, ha, found⟩ := ih later
              exact ⟨a, List.mem_cons_of_mem _ ha, found⟩

/-- No alias that is claimed was held by the owner. -/
theorem claimAliases_free {owner : String} {seen aliases claimed : List String}
    (h : m.claimAliases owner seen aliases = .ok claimed) {a : String} (ha : a ∈ aliases)
    (unseen : normalAlias a ∉ seen) : m.taken owner (normalAlias a) = false := by
  induction aliases generalizing seen claimed with
  | nil => cases ha
  | cons original rest ih =>
      simp only [claimAliases] at h
      split at h
      · rename_i before
        have known : normalAlias original ∈ seen := by simpa using before
        rcases List.mem_cons.mp ha with rfl | later
        · exact absurd known unseen
        · exact ih h later unseen
      · split at h
        · cases h
        · rename_i free
          by_cases same : normalAlias a = normalAlias original
          · rw [same]
            exact Bool.eq_false_iff.mpr free
          · cases more : m.claimAliases owner (seen ++ [normalAlias original]) rest with
            | error e => simp [more, bind, Except.bind] at h
            | ok names =>
                have later : a ∈ rest := by
                  rcases List.mem_cons.mp ha with rfl | later
                  · exact absurd rfl same
                  · exact later
                exact ih more later (by simp [unseen, same])

theorem registerWith_error {owner : Owner} {callable : Callable} {aliases : List String}
    {rewrite : List String → List String} {e : Error}
    (h : m.registerWith owner callable aliases rewrite = .error e) :
    ∃ a ∈ aliases, m.taken owner.id (normalAlias a) = true ∧
      e = .duplicateAlias owner.id (normalAlias a) := by
  unfold registerWith at h
  cases claimed : m.claimAliases owner.id [] aliases with
  | error e' =>
      simp only [claimed, bind, Except.bind, Except.error.injEq] at h
      subst h
      exact claimAliases_error claimed
  | ok names =>
      simp only [claimed, bind, Except.bind] at h
      split at h <;> cases h

/-! ## What a change does -/

theorem edit_register (m : Manager) (owner : Owner) (callable : Callable) (aliases : List String)
    (rewrite : List String → List String) :
    m.edit (.register owner callable aliases rewrite) = m ∨
      ∃ claimed name d, m.claimAliases owner.id [] aliases = .ok claimed ∧
        m.dispatcher.registerWith callable claimed rewrite = (some name, d) ∧
        m.edit (.register owner callable aliases rewrite) = ⟨d, addHolding owner name m.holdings⟩ := by
  simp only [edit]
  cases done : m.registerWith owner callable aliases rewrite with
  | error e => exact .inl rfl
  | ok p =>
      obtain ⟨got, changed⟩ := p
      obtain ⟨claimed, free, (⟨-, -, rfl⟩ | ⟨name, d, added, -, rfl⟩)⟩ := registerWith_cases done
      · exact .inl rfl
      · exact .inr ⟨claimed, name, d, free, added, rfl⟩

theorem removeId_cases (m : Manager) (id : Nat) :
    (m.removeId id).2 = m ∨
      (m.removeId id).2 = ⟨{ m.dispatcher with
        table := m.dispatcher.table.filter fun _ c => c.name.id != id }, forget m.holdings id⟩ := by
  unfold removeId
  cases taken : m.dispatcher.removeId id with
  | mk found d =>
      cases found with
      | none => exact .inl rfl
      | some name =>
          obtain ⟨rfl, rfl⟩ := Dispatcher.removeId_some taken
          exact .inr rfl

theorem dispatcher_removeId (m : Manager) (id : Nat) :
    (m.removeId id).2.dispatcher = (m.dispatcher.removeId id).2 := by
  unfold removeId
  cases taken : m.dispatcher.removeId id with
  | mk found d =>
      cases found with
      | none => exact (Dispatcher.removeId_none taken).symm
      | some name => rfl

/-- Entries are taken out, and nothing comes in. -/
structure Shrinks (m m' : Manager) : Prop where
  policy : m'.dispatcher.policy = m.dispatcher.policy
  nextId : m'.dispatcher.nextId = m.dispatcher.nextId
  entries : m'.dispatcher.table.toList.Sublist m.dispatcher.table.toList
  holders : ∀ owner name, Holds m'.holdings owner name → Holds m.holdings owner name

theorem Shrinks.refl (m : Manager) : m.Shrinks m :=
  ⟨rfl, rfl, List.Sublist.refl _, fun _ _ held => held⟩

theorem removeId_shrinks (m : Manager) (id : Nat) : m.Shrinks (m.removeId id).2 := by
  rcases m.removeId_cases id with same | taken
  · rw [same]
    exact .refl m
  · rw [taken]
    refine ⟨rfl, rfl, ?_, fun _ _ => holds_forget⟩
    simp only [Multimap.toList_filter]
    exact List.filter_sublist

theorem remove_shrinks (m : Manager) (key : String) : m.Shrinks (m.remove key).2 := by
  refine ⟨rfl, rfl, ?_, fun _ _ => holds_forgetUnreachable⟩
  simp only [remove, Dispatcher.remove, Multimap.toList_erase]
  exact List.filter_sublist

theorem removeAll_shrinks (m : Manager) (keys : List String) : m.Shrinks (m.removeAll keys).2 :=
  have rest := m.dispatcher.removeAll_rest keys
  ⟨rest.1, rest.2, m.dispatcher.toList_removeAll keys, fun _ _ => holds_forgetUnreachable⟩

/-- A change takes entries out, or it adds one command for an owner. -/
theorem edit_cases (m : Manager) (e : Edit) :
    m.Shrinks (m.edit e) ∨
      ∃ owner callable aliases rewrite claimed name d,
        e = .register owner callable aliases rewrite ∧
        m.claimAliases owner.id [] aliases = .ok claimed ∧
        m.dispatcher.registerWith callable claimed rewrite = (some name, d) ∧
        m.edit e = ⟨d, addHolding owner name m.holdings⟩ := by
  cases e with
  | register owner callable aliases rewrite =>
      rcases m.edit_register owner callable aliases rewrite with
        same | ⟨claimed, name, d, free, added, changed⟩
      · rw [same]
        exact .inl (.refl m)
      · exact .inr ⟨owner, callable, aliases, rewrite, claimed, name, d, rfl, free, added, changed⟩
  | removeId id => exact .inl (m.removeId_shrinks id)
  | remove key => exact .inl (m.remove_shrinks key)
  | removeAll keys => exact .inl (m.removeAll_shrinks keys)

end CommandGrammar.Manager
