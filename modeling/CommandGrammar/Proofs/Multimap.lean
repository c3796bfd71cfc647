import CommandGrammar.Multimap

/-!
# The pairs of a multimap

Each operation of a multimap, said by the list of its key-value pairs.
-/

namespace CommandGrammar.Multimap

variable {V : Type} {m : Multimap V} {k key : String} {v value : V}

theorem mem_toList : (k, v) ∈ m.toList ↔ ∃ vs, (k, vs) ∈ m.entries ∧ v ∈ vs := by
  simp only [toList, List.mem_flatMap, List.mem_map, Prod.mk.injEq, Prod.exists]
  constructor
  · rintro ⟨n, vs, inEntries, w, inValues, rfl, rfl⟩
    exact ⟨vs, inEntries, inValues⟩
  · rintro ⟨vs, inEntries, inValues⟩
    exact ⟨k, vs, inEntries, v, inValues, rfl, rfl⟩

@[simp] theorem toList_empty : (∅ : Multimap V).toList = [] := rfl

theorem mem_toList_insert :
    (k, v) ∈ (m.insert key value).toList ↔ (k = key ∧ v = value) ∨ (k, v) ∈ m.toList := by
  unfold insert toList
  dsimp only
  induction m.entries with
  | nil => simp [insertEntry]
  | cons e es ih =>
      obtain ⟨n, vs⟩ := e
      simp only [insertEntry]
      split
      · rename_i same
        subst same
        simp only [List.flatMap_cons, List.map_append, List.map_cons, List.map_nil, List.mem_append,
          List.mem_singleton, Prod.mk.injEq]
        rw [or_comm (b := k = key ∧ v = value), or_assoc]
      · split
        · simp
        · rw [List.flatMap_cons, List.mem_append, ih, List.flatMap_cons, List.mem_append,
            or_left_comm]

theorem toList_erase (m : Multimap V) (key : String) :
    (m.erase key).toList = m.toList.filter fun p => p.1 != key := by
  unfold erase toList
  induction m.entries with
  | nil => rfl
  | cons e es ih =>
      obtain ⟨n, vs⟩ := e
      simp only [List.flatMap_cons, List.filter_append, ← ih]
      by_cases same : n = key
      · simp [same, List.filter_map, Function.comp_def]
      · have kept : (vs.map fun v => (n, v)).filter (fun p => p.1 != key) =
            vs.map fun v => (n, v) := List.filter_eq_self.mpr (by simp [same])
        simp [same, kept]

theorem toList_filter (p : String → V → Bool) (m : Multimap V) :
    (m.filter p).toList = m.toList.filter fun e => p e.1 e.2 := by
  unfold filter toList
  induction m.entries with
  | nil => rfl
  | cons e es ih =>
      obtain ⟨n, vs⟩ := e
      simp only [List.map_cons, List.flatMap_cons, List.filter_append, ← ih, List.filter_cons]
      have here : (vs.map fun v => (n, v)).filter (fun e => p e.1 e.2) =
          (vs.filter (p n)).map fun v => (n, v) := by
        simp [List.filter_map, Function.comp_def]
      rw [here]
      cases vs.filter (p n) <;> simp

/-- What is left of a multimap keeps its keys in order, and keys without values are not kept. -/
theorem WellFormed.filter (ok : m.WellFormed) (p : String → V → Bool) : (m.filter p).WellFormed := by
  refine ⟨?_, ?_⟩
  · have kept : (m.entries.map fun e => (e.1, e.2.filter (p e.1))).Pairwise
        (fun a b => a.1 < b.1) := List.pairwise_map.mpr ok.1
    exact kept.filter _
  · intro e he
    have filled := (List.mem_filter.mp he).2
    intro none
    simp [none] at filled

/-! ## The values under a key -/

theorem entries_absent {es : List (String × List V)} (after : ∀ e ∈ es, k < e.1) :
    (es.flatMap fun e => e.2.map fun v => (e.1, v)).filter (fun p => p.1 == k) = [] := by
  rw [List.filter_eq_nil_iff]
  intro p hp
  obtain ⟨e, he, inValues⟩ := List.mem_flatMap.mp hp
  obtain ⟨w, -, rfl⟩ := List.mem_map.mp inValues
  have lt := after e he
  simp only [beq_iff_eq]
  intro same
  rw [same] at lt
  exact String.lt_irrefl k lt

theorem lookup_eq {es : List (String × List V)} (ordered : es.Pairwise fun a b => a.1 < b.1) :
    (lookup k es).getD [] =
      ((es.flatMap fun e => e.2.map fun v => (e.1, v)).filter (fun p => p.1 == k)).map (·.2) := by
  induction es with
  | nil => rfl
  | cons e es ih =>
      obtain ⟨n, vs⟩ := e
      obtain ⟨first, others⟩ := List.pairwise_cons.mp ordered
      rw [List.flatMap_cons, List.filter_append, List.map_append]
      by_cases here : n = k
      · subst here
        have own : (vs.map fun v => (n, v)).filter (fun p => p.1 == n) = vs.map fun v => (n, v) :=
          List.filter_eq_self.mpr (by simp)
        rw [entries_absent first, own]
        simp [lookup, Function.comp_def]
      · have none : (vs.map fun v => (n, v)).filter (fun p => p.1 == k) = [] :=
          List.filter_eq_nil_iff.mpr (by simp [here])
        rw [none, ← ih others]
        simp [lookup, here]

/-- A key is looked up among the pairs, in their order. -/
theorem values_eq (ok : m.WellFormed) (k : String) :
    m.values k = (m.toList.filter fun p => p.1 == k).map (·.2) :=
  lookup_eq ok.1

theorem mem_values (ok : m.WellFormed) : v ∈ m.values k ↔ (k, v) ∈ m.toList := by
  simp [values_eq ok]

theorem values_sublist {n : Multimap V} (ok : m.WellFormed) (ok' : n.WellFormed)
    (fewer : n.toList.Sublist m.toList) (k : String) : (n.values k).Sublist (m.values k) := by
  rw [values_eq ok, values_eq ok']
  exact (fewer.filter _).map _

theorem values_insert (ok : m.WellFormed) (key k : String) (value : V) :
    (m.insert key value).values k = if k = key then m.values k ++ [value] else m.values k := by
  rw [values, get?_insert ok]
  split <;> rfl

theorem insertEntry_inj {es : List (String × List V)} {v w : V}
    (same : insertEntry k v es = insertEntry k w es) : v = w := by
  induction es with
  | nil => exact List.singleton_inj.mp (Prod.mk.inj (List.singleton_inj.mp same)).2
  | cons e rest ih =>
      obtain ⟨key, vs⟩ := e
      simp only [insertEntry] at same
      split at same
      · have lists : vs ++ [v] = vs ++ [w] := (Prod.mk.inj (List.cons.inj same).1).2
        exact List.singleton_inj.mp (List.append_cancel_left lists)
      · split at same
        · exact List.singleton_inj.mp (Prod.mk.inj (List.cons.inj same).1).2
        · exact ih (List.cons.inj same).2

/-- What was put under a key is told by the multimap. -/
theorem insert_inj {v w : V} (same : m.insert k v = m.insert k w) : v = w :=
  insertEntry_inj (congrArg Multimap.entries same)

theorem values_erase (ok : m.WellFormed) (key k : String) :
    (m.erase key).values k = if k = key then [] else m.values k := by
  rw [values_eq (ok.erase key), values_eq ok, toList_erase, List.filter_filter]
  split
  · rename_i same
    subst same
    simp
  · rename_i other
    congr 1
    refine List.filter_congr fun p _ => ?_
    by_cases here : p.1 = k
    · simp [here, other]
    · simp [here]

theorem values_filter (ok : m.WellFormed) (p : String → V → Bool) (k : String) :
    (m.filter p).values k = (m.values k).filter (p k) := by
  rw [values_eq (ok.filter p), values_eq ok, toList_filter, List.filter_filter, List.filter_map,
    List.filter_filter]
  congr 1
  refine List.filter_congr fun e _ => ?_
  by_cases here : e.1 = k
  · simp [here]
  · rw [beq_eq_false_iff_ne.mpr here, Bool.false_and, Bool.and_false]

theorem mem_entries_of_lookup {es : List (String × List V)} {vs : List V}
    (found : lookup k es = some vs) : (k, vs) ∈ es := by
  induction es with
  | nil => simp [lookup] at found
  | cons e es ih =>
      simp only [lookup] at found
      split at found
      · rename_i same
        cases found
        exact same ▸ List.mem_cons_self
      · exact List.mem_cons_of_mem _ (ih found)

/-- A key is there if there are values under it. -/
theorem contains_iff (ok : m.WellFormed) : m.contains k = true ↔ m.values k ≠ [] := by
  unfold contains values
  cases found : m.get? k with
  | none => simp
  | some vs => simpa using ok.2 _ (mem_entries_of_lookup found)

theorem isEmpty_eq (ok : m.WellFormed) : m.isEmpty = m.toList.isEmpty := by
  unfold isEmpty toList
  cases entries : m.entries with
  | nil => rfl
  | cons e es =>
      have filled := ok.2 e (by rw [entries]; exact List.mem_cons_self)
      obtain ⟨v, vs, values⟩ := List.exists_cons_of_ne_nil filled
      simp [values]

/-! ## Pairs in the order of their keys -/

theorem toList_ordered (ok : m.WellFormed) : m.toList.Pairwise fun a b => a.1 ≤ b.1 := by
  unfold toList
  rw [List.pairwise_flatMap]
  refine ⟨fun e _ => ?_, ok.1.imp fun lt a ha b hb => ?_⟩
  · exact List.pairwise_map.mpr (List.pairwise_of_forall fun _ _ => String.le_refl _)
  · obtain ⟨_, -, rfl⟩ := List.mem_map.mp ha
    obtain ⟨_, -, rfl⟩ := List.mem_map.mp hb
    exact Std.le_of_lt lt

/-- Pairs in the order of their keys are determined by what is under each key. -/
theorem ext_of_ordered {xs ys : List (String × V)} (orderedX : xs.Pairwise fun a b => a.1 ≤ b.1)
    (orderedY : ys.Pairwise fun a b => a.1 ≤ b.1)
    (same : ∀ k, xs.filter (fun p => p.1 == k) = ys.filter fun p => p.1 == k) : xs = ys := by
  induction xs generalizing ys with
  | nil =>
      cases ys with
      | nil => rfl
      | cons y ys =>
          have none := same y.1
          simp at none
  | cons x xs ih =>
      have inOther : x ∈ ys := by
        have listed : x ∈ (x :: xs).filter fun p => p.1 == x.1 := by simp
        rw [same] at listed
        exact (List.mem_filter.mp listed).1
      cases ys with
      | nil => cases inOther
      | cons y ys =>
          obtain ⟨firstX, restX⟩ := List.pairwise_cons.mp orderedX
          obtain ⟨firstY, restY⟩ := List.pairwise_cons.mp orderedY
          have inThis : y ∈ x :: xs := by
            have listed : y ∈ (y :: ys).filter fun p => p.1 == y.1 := by simp
            rw [← same] at listed
            exact (List.mem_filter.mp listed).1
          have le : x.1 ≤ y.1 := by
            rcases List.mem_cons.mp inThis with rfl | later
            · exact String.le_refl _
            · exact firstX y later
          have ge : y.1 ≤ x.1 := by
            rcases List.mem_cons.mp inOther with rfl | later
            · exact String.le_refl _
            · exact firstY x later
          have key : x.1 = y.1 := String.le_antisymm le ge
          have heads := same x.1
          simp only [List.filter_cons, beq_self_eq_true, if_true, key] at heads
          obtain ⟨rfl, -⟩ := List.cons.inj heads
          congr 1
          refine ih restX restY fun k => ?_
          have all := same k
          simp only [List.filter_cons] at all
          split at all
          · exact (List.cons.inj all).2
          · exact all

theorem mem_allValues_iff : v ∈ m.allValues ↔ ∃ k, (k, v) ∈ m.toList := by
  rw [allValues_eq_map_toList]
  simp

end CommandGrammar.Multimap
