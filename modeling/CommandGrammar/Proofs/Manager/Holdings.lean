import CommandGrammar.Manager

/-!
# Holdings

What adding a command to its owner's, and forgetting commands, do to the lists of what owners hold.
-/

namespace CommandGrammar.Manager

/-- The commands that owners hold, one after the other. -/
def held (holdings : List Holding) : List CommandName :=
  holdings.flatMap (·.commands)

/-- An owner holds a command. -/
def Holds (holdings : List Holding) (owner : String) (name : CommandName) : Prop :=
  ∃ h ∈ holdings, h.owner.id = owner ∧ name ∈ h.commands

variable {holdings : List Holding} {owner : Owner} {name : CommandName} {id : Nat}

theorem held_addHolding (owner : Owner) (name : CommandName) (holdings : List Holding) :
    (held (addHolding owner name holdings)).Perm (name :: held holdings) := by
  unfold held
  induction holdings with
  | nil => exact List.Perm.refl [name]
  | cons h rest ih =>
      simp only [addHolding]
      split
      · simp only [List.flatMap_cons, List.append_assoc, List.singleton_append]
        exact List.perm_middle
      · split
        · exact List.Perm.refl _
        · simp only [List.flatMap_cons]
          exact (ih.append_left h.commands).trans List.perm_middle

theorem mem_addHolding {g : Holding} (h : g ∈ addHolding owner name holdings) :
    (g.owner.id = owner.id ∧ g.commands ≠ []) ∨ g ∈ holdings := by
  induction holdings with
  | nil =>
      simp only [addHolding, List.mem_singleton] at h
      subst h
      exact .inl ⟨rfl, List.cons_ne_nil _ _⟩
  | cons k rest ih =>
      simp only [addHolding] at h
      split at h
      · rename_i same
        rcases List.mem_cons.mp h with rfl | h
        · exact .inl ⟨same.symm, by simp⟩
        · exact .inr (List.mem_cons_of_mem _ h)
      · split at h
        · rcases List.mem_cons.mp h with rfl | h
          · exact .inl ⟨rfl, List.cons_ne_nil _ _⟩
          · exact .inr h
        · rcases List.mem_cons.mp h with rfl | h
          · exact .inr List.mem_cons_self
          · exact (ih h).imp_right (List.mem_cons_of_mem _)

theorem holds_addHolding {holder : String} {c : CommandName} :
    Holds (addHolding owner name holdings) holder c ↔
      (holder = owner.id ∧ c = name) ∨ Holds holdings holder c := by
  unfold Holds
  induction holdings with
  | nil => simp [addHolding, eq_comm]
  | cons k rest ih =>
      simp only [addHolding]
      split
      · rename_i same
        simp only [List.mem_cons, exists_eq_or_imp, List.mem_append, List.not_mem_nil, or_false,
          same, eq_comm (a := holder)]
        constructor
        · rintro (⟨here, old | new⟩ | later)
          · exact .inr (.inl ⟨here, old⟩)
          · exact .inl ⟨here, new⟩
          · exact .inr (.inr later)
        · rintro (⟨here, new⟩ | ⟨here, old⟩ | later)
          · exact .inl ⟨here, .inr new⟩
          · exact .inl ⟨here, .inl old⟩
          · exact .inr later
      · split
        · simp [eq_comm (a := holder)]
        · simp only [List.mem_cons, exists_eq_or_imp, ih]
          exact or_left_comm

theorem holds_forget {holder : String} {c : CommandName} (h : Holds (forget holdings id) holder c) :
    Holds holdings holder c := by
  obtain ⟨g, hg, named, listed⟩ := h
  obtain ⟨k, hk, rfl⟩ := List.mem_map.mp (List.mem_filter.mp hg).1
  exact ⟨k, hk, named, (List.mem_filter.mp listed).1⟩

theorem ordered_addHolding (ordered : holdings.Pairwise fun g h => g.owner.id < h.owner.id) :
    (addHolding owner name holdings).Pairwise fun g h => g.owner.id < h.owner.id := by
  induction holdings with
  | nil => simp [addHolding]
  | cons k rest ih =>
      obtain ⟨first, others⟩ := List.pairwise_cons.mp ordered
      simp only [addHolding]
      split
      · exact List.pairwise_cons.mpr ⟨first, others⟩
      · rename_i other
        split
        · rename_i lt
          refine List.pairwise_cons.mpr ⟨fun g hg => ?_, ordered⟩
          rcases List.mem_cons.mp hg with rfl | hg
          · exact lt
          · exact String.lt_trans lt (first g hg)
        · rename_i notLt
          refine List.pairwise_cons.mpr ⟨fun g hg => ?_, ih others⟩
          rcases mem_addHolding hg with ⟨same, -⟩ | hg
          · rw [same]
            exact Std.lt_of_le_of_ne (String.not_lt.mp notLt) (Ne.symm other)
          · exact first g hg

theorem held_forget (holdings : List Holding) (id : Nat) :
    held (forget holdings id) = (held holdings).filter fun c => c.id != id := by
  unfold held forget
  induction holdings with
  | nil => rfl
  | cons h rest ih =>
      rw [List.flatMap_cons, List.filter_append, ← ih, List.map_cons, List.filter_cons]
      cases h.commands.filter fun c => c.id != id <;> simp

theorem ordered_forget (ordered : holdings.Pairwise fun g h => g.owner.id < h.owner.id) (id : Nat) :
    (forget holdings id).Pairwise fun g h => g.owner.id < h.owner.id := by
  have owners : (holdings.map fun h => { h with commands := h.commands.filter fun c => c.id != id }).Pairwise
      fun g h => g.owner.id < h.owner.id := List.pairwise_map.mpr ordered
  exact owners.filter _

theorem commands_forget {g : Holding} (h : g ∈ forget holdings id) : g.commands ≠ [] := by
  have filled := (List.mem_filter.mp h).2
  intro none
  simp [none] at filled

/-- Of the commands that were removed, those that are under no alias any more are held no longer. -/
theorem held_forgetUnreachable (d : Dispatcher Callable) (holdings : List Holding)
    (removed : List Nat) :
    held (forgetUnreachable d holdings removed) =
      (held holdings).filter fun c => !(removed.contains c.id && !d.containsId c.id) := by
  unfold forgetUnreachable
  induction removed generalizing holdings with
  | nil => exact (List.filter_eq_self.mpr fun _ _ => rfl).symm
  | cons id removed ih =>
      rw [List.foldl_cons, ih]
      cases reached : d.containsId id with
      | true =>
          rw [if_pos rfl]
          refine List.filter_congr fun c _ => ?_
          by_cases same : c.id = id
          · simp [same, reached]
          · simp [same]
      | false =>
          rw [if_neg Bool.false_ne_true, held_forget, List.filter_filter]
          refine List.filter_congr fun c _ => ?_
          by_cases same : c.id = id
          · simp [same, reached]
          · simp [same]

theorem holds_forgetUnreachable {d : Dispatcher Callable} {removed : List Nat} {holder : String}
    {c : CommandName} (h : Holds (forgetUnreachable d holdings removed) holder c) :
    Holds holdings holder c := by
  unfold forgetUnreachable at h
  induction removed generalizing holdings with
  | nil => exact h
  | cons id removed ih =>
      rw [List.foldl_cons] at h
      split at h
      · exact ih h
      · exact holds_forget (ih h)

theorem ordered_forgetUnreachable (ordered : holdings.Pairwise fun g h => g.owner.id < h.owner.id)
    (d : Dispatcher Callable) (removed : List Nat) :
    (forgetUnreachable d holdings removed).Pairwise fun g h => g.owner.id < h.owner.id := by
  unfold forgetUnreachable
  induction removed generalizing holdings with
  | nil => exact ordered
  | cons id removed ih =>
      rw [List.foldl_cons]
      split
      · exact ih ordered
      · exact ih (ordered_forget ordered id)

theorem commands_forgetUnreachable (filled : ∀ h ∈ holdings, h.commands ≠ [])
    (d : Dispatcher Callable) (removed : List Nat) :
    ∀ h ∈ forgetUnreachable d holdings removed, h.commands ≠ [] := by
  unfold forgetUnreachable
  induction removed generalizing holdings with
  | nil => exact filled
  | cons id removed ih =>
      rw [List.foldl_cons]
      split
      · exact ih filled
      · exact ih fun h hh => commands_forget hh

end CommandGrammar.Manager
