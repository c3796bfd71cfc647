import CommandGrammar.Dispatcher
import CommandGrammar.Proofs.Multimap

/-!
# The entries of a dispatcher

What registering and removing do to the alias table, said by its pairs of a key and a command.
-/

namespace CommandGrammar.Dispatcher

variable {C : Type} {d d' : Dispatcher C} {key : String} {callable : C} {c : Mapping C}
  {name : CommandName} {aliases : List String} {rewrite : List String → List String}

/-! ## Registering -/

theorem registerWith_nil (none : rewrite aliases = []) :
    d.registerWith callable aliases rewrite = (.none, d) := by
  simp [registerWith, none]

/-- A command that is registered has a new number, and one entry for each of its aliases. -/
theorem registerWith_some (h : d.registerWith callable aliases rewrite = (some name, d')) :
    name.id = d.nextId ∧ name.aliases = Names.ofList (rewrite aliases) ∧ rewrite aliases ≠ [] ∧
      d' = ⟨d.policy, (rewrite aliases).foldl
        (fun t typed => t.insert (Text.lowercase typed) ⟨name, callable⟩) d.table, d.nextId + 1⟩ := by
  unfold registerWith at h
  cases there : rewrite aliases with
  | nil => simp [there] at h
  | cons primary others =>
      simp only [there, Prod.mk.injEq, Option.some.injEq] at h
      obtain ⟨rfl, rfl⟩ := h
      exact ⟨rfl, rfl, List.cons_ne_nil _ _, rfl⟩

theorem mem_insertAll {t : Multimap (Mapping C)} {k : String} {new : Mapping C}
    (names : List String) :
    (k, c) ∈ (names.foldl (fun t typed => t.insert (Text.lowercase typed) new) t).toList ↔
      (c = new ∧ ∃ typed ∈ names, k = Text.lowercase typed) ∨ (k, c) ∈ t.toList := by
  induction names generalizing t with
  | nil => simp
  | cons typed names ih =>
      rw [List.foldl_cons, ih, Multimap.mem_toList_insert]
      simp only [List.mem_cons, exists_eq_or_imp]
      constructor
      · rintro (⟨same, later⟩ | ⟨here, same⟩ | old)
        · exact .inl ⟨same, .inr later⟩
        · exact .inl ⟨same, .inl here⟩
        · exact .inr old
      · rintro (⟨same, here | later⟩ | old)
        · exact .inr (.inl ⟨here, same⟩)
        · exact .inl ⟨same, later⟩
        · exact .inr (.inr old)

theorem below_insertAll (below : ∀ k c, (k, c) ∈ d.table.toList → c.name.id < d.nextId)
    {new : Mapping C} (number : new.name.id = d.nextId) (names : List String) (k : String)
    (c : Mapping C)
    (h : (k, c) ∈ (names.foldl (fun t typed => t.insert (Text.lowercase typed) new) d.table).toList) :
    c.name.id < d.nextId + 1 := by
  rcases (mem_insertAll names).mp h with ⟨rfl, -⟩ | old
  · exact number ▸ Nat.lt_succ_self _
  · exact Nat.lt_succ_of_lt (below k c old)

theorem wellFormed_insertAll {t : Multimap (Mapping C)} (ok : t.WellFormed) (new : Mapping C)
    (names : List String) :
    (names.foldl (fun t typed => t.insert (Text.lowercase typed) new) t).WellFormed := by
  induction names generalizing t with
  | nil => exact ok
  | cons typed names ih => exact ih (ok.insert _ new)

/-- New entries stand behind those that were under their keys, one for each alias. -/
theorem values_insertAll {t : Multimap (Mapping C)} (ok : t.WellFormed) (new : Mapping C)
    (names : List String) (k : String) :
    (names.foldl (fun t typed => t.insert (Text.lowercase typed) new) t).values k =
      t.values k ++ List.replicate (names.countP fun typed => Text.lowercase typed == k) new := by
  induction names generalizing t with
  | nil => simp
  | cons typed names ih =>
      rw [List.foldl_cons, ih (ok.insert (Text.lowercase typed) new), Multimap.values_insert ok,
        List.countP_cons]
      by_cases here : k = Text.lowercase typed
      · subst here
        simp [List.replicate_succ]
      · simp [here, Ne.symm here]

/-! ## Removing -/

theorem mem_remove {k : String} :
    (k, c) ∈ (d.remove key).2.table.toList ↔
      (k, c) ∈ d.table.toList ∧ k ≠ Text.lowercase key := by
  simp [remove, Multimap.toList_erase]

theorem removeAll_cons (d : Dispatcher C) (key : String) (keys : List String) :
    (d.removeAll (key :: keys)).2 = ((d.remove key).2.removeAll keys).2 := rfl

theorem removeAll_rest (d : Dispatcher C) (keys : List String) :
    (d.removeAll keys).2.policy = d.policy ∧ (d.removeAll keys).2.nextId = d.nextId := by
  induction keys generalizing d with
  | nil => exact ⟨rfl, rfl⟩
  | cons key keys ih => exact ih (d.remove key).2

theorem toList_removeAll (d : Dispatcher C) (keys : List String) :
    (d.removeAll keys).2.table.toList.Sublist d.table.toList := by
  induction keys generalizing d with
  | nil => exact List.Sublist.refl _
  | cons key keys ih =>
      refine (ih (d.remove key).2).trans ?_
      rw [remove, Multimap.toList_erase]
      exact List.filter_sublist

theorem mem_removeAll {k : String} (keys : List String) :
    (k, c) ∈ (d.removeAll keys).2.table.toList ↔
      (k, c) ∈ d.table.toList ∧ ∀ key ∈ keys, k ≠ Text.lowercase key := by
  induction keys generalizing d with
  | nil => simp [removeAll]
  | cons key keys ih =>
      rw [removeAll_cons, ih, mem_remove]
      simp only [List.forall_mem_cons, and_assoc]

theorem wellFormed_removeAll (ok : d.table.WellFormed) (keys : List String) :
    (d.removeAll keys).2.table.WellFormed := by
  induction keys generalizing d with
  | nil => exact ok
  | cons key keys ih => exact ih (d := (d.remove key).2) (ok.erase _)

theorem values_removeAll (ok : d.table.WellFormed) (keys : List String) (k : String) :
    (d.removeAll keys).2.table.values k =
      if (keys.map Text.lowercase).contains k then [] else d.table.values k := by
  induction keys generalizing d with
  | nil => rfl
  | cons key keys ih =>
      rw [removeAll_cons, ih (ok.erase _), List.map_cons, List.contains_cons]
      simp only [remove, Multimap.values_erase ok]
      by_cases here : k = Text.lowercase key
      · simp [here]
      · simp [here]

/-- Something is removed if there is something under one of the aliases. -/
theorem found_removeAll (ok : d.table.WellFormed) (keys : List String) :
    (d.removeAll keys).1 = true ↔ ∃ key ∈ keys, d.all key ≠ [] := by
  induction keys generalizing d with
  | nil => simp [removeAll]
  | cons key keys ih =>
      have later := ih (d := (d.remove key).2) (ok.erase _)
      have split : (d.removeAll (key :: keys)).1 =
          (d.containsAlias key || ((d.remove key).2.removeAll keys).1) := rfl
      have here : d.containsAlias key = true ↔ d.all key ≠ [] := Multimap.contains_iff ok
      simp only [split, Bool.or_eq_true, later, here, List.mem_cons, exists_eq_or_imp]
      -- What was under the alias is counted there, so it is not missed below.
      by_cases empty : d.all key = []
      · have same : ∀ k, (d.remove key).2.all k = d.all k := by
          intro k
          simp only [all, remove, Multimap.values_erase ok]
          split
          · rename_i named
            rw [named]
            exact empty.symm
          · rfl
        simp only [same]
      · simp [empty]

/-- A command is removed under all aliases at once, and only if it was under one. -/
theorem removeId_some {id : Nat} (h : d.removeId id = (some name, d')) :
    name.id = id ∧ d' = { d with table := d.table.filter fun _ c => c.name.id != id } := by
  unfold removeId at h
  split at h
  · cases h
  · rename_i found
    cases h
    have matching := List.find?_some found
    exact ⟨by simpa using matching, rfl⟩

theorem removeId_none {id : Nat} (h : d.removeId id = (.none, d')) : d' = d := by
  unfold removeId at h
  split at h <;> cases h
  rfl

theorem mem_removeId {k : String} {id : Nat} :
    (k, c) ∈ (d.removeId id).2.table.toList ↔ (k, c) ∈ d.table.toList ∧ c.name.id ≠ id := by
  unfold removeId
  split
  · rename_i absent
    have others : (k, c) ∈ d.table.toList → c.name.id ≠ id := by
      intro inTable
      have lacks := List.find?_eq_none.mp absent c (Multimap.mem_allValues_iff.mpr ⟨k, inTable⟩)
      simpa using lacks
    exact ⟨fun inTable => ⟨inTable, others inTable⟩, And.left⟩
  · simp [Multimap.toList_filter]

/-! ## Looking up -/

theorem mem_all (ok : d.table.WellFormed) : c ∈ d.all key ↔ (Text.lowercase key, c) ∈ d.table.toList :=
  Multimap.mem_values ok

/-- The usual policy picks the first command under an alias, unless one is known by it. -/
theorem get?_first (source : Option Source) {rest : List (Mapping C)}
    (usual : d.policy = Policy.first) (there : d.all key = c :: rest) :
    ∃ picked ∈ d.all key, d.get? source key = some picked ∧
      (picked = c ∨ Text.lowercase picked.name.primary = Text.lowercase key) := by
  cases rest with
  | nil => exact ⟨c, by simp [there], by simp [get?, there], .inl rfl⟩
  | cons other rest =>
      let names := (c :: other :: rest).map (·.name)
      have asked : d.get? source key = (Policy.first source key names).bind fun i =>
          (c :: other :: rest)[i]? := by
        simp [get?, there, usual, names]
      cases known : names.findIdx? fun n => Text.lowercase n.primary == Text.lowercase key with
      | none =>
          have picked : d.get? source key = some c := by
            rw [asked]
            simp [Policy.first, known]
          exact ⟨c, by simp [there], picked, .inl rfl⟩
      | some i =>
          obtain ⟨within, same, -⟩ := List.findIdx?_eq_some_iff_getElem.mp known
          have inside : i < (c :: other :: rest).length := by simpa [names] using within
          have picked : d.get? source key = some (c :: other :: rest)[i] := by
            rw [asked]
            simp [Policy.first, known, List.getElem?_eq_getElem inside]
          have listed : (c :: other :: rest)[i] ∈ d.all key := by
            rw [there]
            exact List.getElem_mem inside
          refine ⟨_, listed, picked, .inr ?_⟩
          simpa only [names, List.getElem_map, beq_iff_eq] using same

theorem containsId_iff {id : Nat} :
    d.containsId id = true ↔ ∃ k c, (k, c) ∈ d.table.toList ∧ c.name.id = id := by
  simp only [containsId, List.any_eq_true, Multimap.mem_allValues_iff, beq_iff_eq]
  constructor
  · rintro ⟨c, ⟨k, inTable⟩, same⟩
    exact ⟨k, c, inTable, same⟩
  · rintro ⟨k, c, inTable, same⟩
    exact ⟨c, ⟨k, inTable⟩, same⟩

/-! ## Numbers -/

/-- Commands are told apart by their numbers, which are below the next one. -/
structure Numbered (d : Dispatcher C) : Prop where
  table : d.table.WellFormed
  below : ∀ k c, (k, c) ∈ d.table.toList → c.name.id < d.nextId
  alone : ∀ j k b c, (j, b) ∈ d.table.toList → (k, c) ∈ d.table.toList →
    b.name.id = c.name.id → b = c

theorem Numbered.empty (policy : Policy) : (Dispatcher.empty policy : Dispatcher C).Numbered where
  table := .empty
  below := by simp [Dispatcher.empty]
  alone := by simp [Dispatcher.empty]

theorem Numbered.register (h : d.Numbered) (callable : C) (aliases : List String) :
    (d.register callable aliases).2.Numbered := by
  cases added : d.register callable aliases with
  | mk got d' =>
      cases got with
      | none =>
          have same : d' = d := by
            unfold Dispatcher.register registerWith at added
            split at added <;> cases added
            rfl
          exact same ▸ h
      | some name =>
          obtain ⟨number, -, -, rfl⟩ := registerWith_some added
          have fresh : ∀ k c, (k, c) ∈ d.table.toList → c.name.id ≠ name.id := by
            intro k c old
            rw [number]
            exact Nat.ne_of_lt (h.below k c old)
          refine ⟨wellFormed_insertAll h.table _ _, below_insertAll h.below number _, ?_⟩
          intro j k b c hb hc same
          rcases (mem_insertAll _).mp hb with ⟨rfl, -⟩ | oldB
          · rcases (mem_insertAll _).mp hc with ⟨rfl, -⟩ | oldC
            · rfl
            · exact absurd same.symm (fresh k c oldC)
          · rcases (mem_insertAll _).mp hc with ⟨rfl, -⟩ | oldC
            · exact absurd same (fresh j b oldB)
            · exact h.alone j k b c oldB oldC same

/-- A number leads back to the command that an alias stands for. -/
theorem Numbered.ofId?_of_all (h : d.Numbered) (listed : c ∈ d.all key) :
    d.ofId? c.name.id = some c := by
  have inTable := (mem_all h.table).mp listed
  unfold ofId?
  cases found : d.table.allValues.find? fun b => b.name.id == c.name.id with
  | none =>
      have lacks := List.find?_eq_none.mp found c (Multimap.mem_allValues_iff.mpr ⟨_, inTable⟩)
      simp at lacks
  | some b =>
      obtain ⟨k, there⟩ := Multimap.mem_allValues_iff.mp (List.mem_of_find?_eq_some found)
      have same : b.name.id = c.name.id := by simpa using List.find?_some found
      rw [h.alone k _ b c there inTable same]

end CommandGrammar.Dispatcher
