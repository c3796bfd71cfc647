import CommandGrammar.Proofs.Multimap
import CommandGrammar.Proofs.Text.Bytes
import Mathlib.Data.List.Dedup

/-!
# What is left of a multimap

A multimap may be filled, and changed by insertions, by erasing keys and by keeping the pairs that
satisfy a predicate, in any order. Beside it goes a plain list of pairs: an insertion appends to it,
the other changes filter it. The pairs of the multimap are always those of the list, sorted by key
without a change of order under one key, and the list answers whatever the multimap is asked.
-/

namespace CommandGrammar.Multimap

variable {V : Type}

/-- What may be done to a multimap. -/
inductive Change (V : Type) where
  | insert (key : String) (value : V)
  | erase (key : String)
  | filter (keep : String → V → Bool)

/-- The multimap behind a change. -/
def Change.carryOut : Change V → Multimap V → Multimap V
  | insert key value, m => m.insert key value
  | erase key, m => m.erase key
  | filter keep, m => m.filter keep

/-- The list of pairs behind a change. -/
def Change.carryOutList : Change V → List (String × V) → List (String × V)
  | insert key value, ps => ps ++ [(key, value)]
  | erase key, ps => ps.filter fun p => p.1 != key
  | filter keep, ps => ps.filter fun p => keep p.1 p.2

/-- The multimap behind some changes, one after the other. -/
def changed (m : Multimap V) (changes : List (Change V)) : Multimap V :=
  changes.foldl (fun m c => c.carryOut m) m

/-- The list of pairs behind some changes. -/
def changedList (ps : List (String × V)) (changes : List (Change V)) : List (String × V) :=
  changes.foldl (fun ps c => c.carryOutList ps) ps

/-- The first key has no greater bytes. -/
def keyLe (a b : String × V) : Bool :=
  decide (Text.bytes a.1 ≤ Text.bytes b.1)

/-- Pairs in the order of their keys; those under one key stay in the order they had. -/
def sorted (ps : List (String × V)) : List (String × V) :=
  ps.mergeSort keyLe

/-- The values of the pairs with a key, in order. -/
def under (k : String) (ps : List (String × V)) : List V :=
  (ps.filter fun p => p.1 == k).map (·.2)

/-! ## Sorted pairs -/

variable {ps qs : List (String × V)} {k l : String} {m n : Multimap V}

theorem keyLe_iff {a b : String × V} : keyLe a b = true ↔ a.1 ≤ b.1 := by
  rw [keyLe, decide_eq_true_iff, Text.bytes_le_iff]

theorem keyLe_trans (a b c : String × V) (first : keyLe a b = true) (second : keyLe b c = true) :
    keyLe a c = true :=
  keyLe_iff.mpr (String.le_trans (keyLe_iff.mp first) (keyLe_iff.mp second))

theorem keyLe_total (a b : String × V) : (keyLe a b || keyLe b a) = true := by
  rw [Bool.or_eq_true, keyLe_iff, keyLe_iff]
  exact String.le_total a.1 b.1

theorem sorted_ordered (ps : List (String × V)) : (sorted ps).Pairwise fun a b => a.1 ≤ b.1 :=
  (List.pairwise_mergeSort keyLe_trans keyLe_total ps).imp keyLe_iff.mp

/-- Sorting leaves the pairs under one key in their order. -/
theorem filter_sorted (k : String) (ps : List (String × V)) :
    (sorted ps).filter (fun p => p.1 == k) = ps.filter fun p => p.1 == k := by
  have alike : (ps.filter fun p => p.1 == k).Pairwise fun a b => keyLe a b = true := by
    rw [List.pairwise_filter]
    refine List.pairwise_of_forall fun a b inA inB => keyLe_iff.mpr ?_
    rw [beq_iff_eq.mp inA, beq_iff_eq.mp inB]
  have kept : (ps.filter fun p => p.1 == k).Sublist (sorted ps) :=
    List.sublist_mergeSort keyLe_trans keyLe_total alike List.filter_sublist
  have inside := kept.filter fun p => p.1 == k
  rw [List.filter_filter] at inside
  simp only [Bool.and_self] at inside
  have length := ((List.mergeSort_perm ps keyLe).filter fun p => p.1 == k).length_eq
  exact (inside.eq_of_length length.symm).symm

/-- The pairs with a key are known by their values. -/
theorem filter_eq_map_under (k : String) (ps : List (String × V)) :
    (ps.filter fun p => p.1 == k) = (under k ps).map fun v => (k, v) := by
  have same : ∀ p ∈ ps.filter fun p => p.1 == k, ((fun v => (k, v)) ∘ (·.2)) p = p := by
    intro p there
    have key : p.1 = k := beq_iff_eq.mp (List.mem_filter.mp there).2
    rw [← key]
    rfl
  rw [under, List.map_map, List.map_congr_left same, List.map_id']

theorem under_eq_nil_iff : under k ps = [] ↔ k ∉ ps.map (·.1) := by
  rw [under, List.map_eq_nil_iff, List.filter_eq_nil_iff, List.mem_map]
  constructor
  · rintro none ⟨p, there, key⟩
    exact none p there (beq_iff_eq.mpr key)
  · intro absent p there key
    exact absent ⟨p, there, beq_iff_eq.mp key⟩

/-! ## One change, and all of them -/

/-- A multimap that holds the pairs of a list: under each key, the values in their order. -/
structure Lists (m : Multimap V) (ps : List (String × V)) : Prop where
  wellFormed : m.WellFormed
  values : ∀ k, m.values k = under k ps

theorem lists_empty : Lists (∅ : Multimap V) [] :=
  ⟨.empty, fun _ => rfl⟩

theorem under_insert (key : String) (value : V) (k : String) (ps : List (String × V)) :
    under k (ps ++ [(key, value)]) = if k = key then under k ps ++ [value] else under k ps := by
  by_cases here : k = key
  · simp [under, here]
  · simp [under, here, Ne.symm here]

theorem under_erase (key k : String) (ps : List (String × V)) :
    under k (ps.filter fun p => p.1 != key) = if k = key then [] else under k ps := by
  unfold under
  rw [List.filter_filter]
  by_cases here : k = key
  · simp [here]
  · rw [if_neg here]
    congr 1
    refine List.filter_congr fun p _ => ?_
    by_cases there : p.1 = k
    · simp [there, here]
    · simp [there]

theorem under_filter (keep : String → V → Bool) (k : String) (ps : List (String × V)) :
    under k (ps.filter fun p => keep p.1 p.2) = (under k ps).filter (keep k) := by
  unfold under
  rw [List.filter_filter, List.filter_map, List.filter_filter]
  congr 1
  refine List.filter_congr fun p _ => ?_
  by_cases there : p.1 = k
  · simp [there]
  · rw [beq_eq_false_iff_ne.mpr there, Bool.false_and, Bool.and_false]

/-- One change does to the multimap what it does to the list. -/
theorem Lists.carryOut (held : m.Lists ps) (c : Change V) :
    (c.carryOut m).Lists (c.carryOutList ps) := by
  cases c with
  | insert key value =>
      refine ⟨held.wellFormed.insert key value, fun k => ?_⟩
      rw [Change.carryOut, Change.carryOutList, values_insert held.wellFormed, under_insert,
        held.values]
  | erase key =>
      refine ⟨held.wellFormed.erase key, fun k => ?_⟩
      rw [Change.carryOut, Change.carryOutList, values_erase held.wellFormed, under_erase,
        held.values]
  | filter keep =>
      refine ⟨held.wellFormed.filter keep, fun k => ?_⟩
      rw [Change.carryOut, Change.carryOutList, values_filter held.wellFormed, under_filter,
        held.values]

theorem Lists.changed (held : m.Lists ps) (changes : List (Change V)) :
    (m.changed changes).Lists (changedList ps changes) := by
  induction changes generalizing m ps with
  | nil => exact held
  | cons c changes ih => exact ih (held.carryOut c)

/-- A multimap is filled by insertions. -/
theorem lists_ofList (ps : List (String × V)) : (ofList ps).Lists ps := by
  have filled : ∀ (m : Multimap V) (before : List (String × V)), m.Lists before →
      (ps.foldl (fun m p => m.insert p.1 p.2) m).Lists (before ++ ps) := by
    induction ps with
    | nil =>
        intro m before held
        rwa [List.append_nil]
    | cons p ps ih =>
        intro m before held
        have step := ih _ _ (held.carryOut (.insert p.1 p.2))
        rwa [Change.carryOutList, List.append_assoc, List.singleton_append] at step
  exact filled ∅ [] lists_empty

/-! ## What the list tells -/

theorem Lists.toList (held : m.Lists ps) : m.toList = sorted ps := by
  refine ext_of_ordered (toList_ordered held.wellFormed) (sorted_ordered ps) fun k => ?_
  have same : under k m.toList = under k ps := by
    rw [← held.values, values_eq held.wellFormed, under]
  rw [filter_sorted, filter_eq_map_under, filter_eq_map_under, same]

theorem Lists.size (held : m.Lists ps) : m.size = ps.length := by
  rw [size_eq_length_toList, held.toList, sorted, List.length_mergeSort]

theorem nodup_keys (ok : m.WellFormed) : m.keys.Nodup := by
  rw [keys, List.nodup_iff_pairwise_ne, List.pairwise_map]
  exact ok.1.imp fun lt => Std.ne_of_lt lt

/-- A key is stored if there are pairs with it. -/
theorem Lists.mem_keys (held : m.Lists ps) : k ∈ m.keys ↔ k ∈ ps.map (·.1) := by
  have stored : k ∈ m.keys ↔ k ∈ m.toList.map (·.1) := by
    rw [keys, List.mem_map, List.mem_map]
    constructor
    · rintro ⟨e, there, rfl⟩
      obtain ⟨v, vs, filled⟩ := List.exists_cons_of_ne_nil (held.wellFormed.2 e there)
      exact ⟨(e.1, v), mem_toList.mpr ⟨e.2, there, filled ▸ List.mem_cons_self⟩, rfl⟩
    · rintro ⟨p, there, rfl⟩
      obtain ⟨vs, stored, -⟩ := mem_toList.mp there
      exact ⟨(p.1, vs), stored, rfl⟩
  rw [stored, held.toList]
  simp [sorted]

/-- Each key counts once. -/
theorem Lists.keyCount (held : m.Lists ps) : m.keyCount = (ps.map (·.1)).dedup.length := by
  have counted : m.keyCount = m.keys.length := by
    rw [Multimap.keyCount, keys, List.length_map]
  rw [counted]
  refine List.Perm.length_eq ((List.perm_ext_iff_of_nodup (nodup_keys held.wellFormed)
    (List.nodup_dedup _)).mpr fun k => ?_)
  rw [held.mem_keys, List.mem_dedup]

theorem Lists.isEmpty_iff (held : m.Lists ps) : m.isEmpty = true ↔ m.size = 0 := by
  rw [isEmpty_eq held.wellFormed, List.isEmpty_iff, size_eq_length_toList,
    List.length_eq_zero_iff]

theorem Lists.get? (held : m.Lists ps) (k : String) :
    m.get? k = if k ∈ ps.map (·.1) then some (under k ps) else none := by
  have values := held.values k
  have found := contains_iff (k := k) held.wellFormed
  rw [values, Ne, under_eq_nil_iff, not_not] at found
  unfold contains at found
  unfold Multimap.values at values
  cases lookup : m.get? k with
  | none =>
      rw [lookup] at found
      rw [if_neg fun there => nomatch found.mpr there]
  | some vs =>
      rw [lookup] at found values
      rw [if_pos (found.mp rfl), ← values]
      rfl

/-! ## Equal multimaps -/

theorem keys_behind {es : List (String × List V)} (later : ∀ e ∈ es, k < e.1) :
    ∀ p ∈ es.flatMap fun e => e.2.map fun v => (e.1, v), p.1 ≠ k := by
  intro p there
  obtain ⟨e, stored, inRun⟩ := List.mem_flatMap.mp there
  obtain ⟨v, -, rfl⟩ := List.mem_map.mp inRun
  exact Ne.symm (Std.ne_of_lt (later e stored))

section Equality

variable [BEq V]

theorem pair_beq {W : Type} [BEq W] (k l : String) (v w : W) :
    ((k, v) == (l, w)) = (k == l && v == w) := rfl

/-- Runs of pairs with one key are compared value by value, if the pairs behind them have other
keys. -/
theorem run_beq_run (xs ys : List V) (behind : ∀ p ∈ ps, p.1 ≠ k) (behind' : ∀ p ∈ qs, p.1 ≠ k) :
    (xs.map (fun v => (k, v)) ++ ps == ys.map (fun v => (k, v)) ++ qs) = (xs == ys && ps == qs) := by
  induction xs generalizing ys with
  | nil =>
      cases ys with
      | nil => rfl
      | cons y ys =>
          cases ps with
          | nil => rfl
          | cons p ps =>
              have other : (p.1 == k) = false := beq_eq_false_iff_ne.mpr (behind p List.mem_cons_self)
              rw [List.map_nil, List.nil_append, List.map_cons, List.cons_append, List.cons_beq_cons,
                pair_beq p.1 k p.2 y, other]
              rfl
  | cons x xs ih =>
      cases ys with
      | nil =>
          cases qs with
          | nil => rfl
          | cons q qs =>
              have other : (k == q.1) = false :=
                beq_eq_false_iff_ne.mpr (Ne.symm (behind' q List.mem_cons_self))
              rw [List.map_nil, List.nil_append, List.map_cons, List.cons_append, List.cons_beq_cons,
                pair_beq k q.1 x q.2, other]
              rfl
      | cons y ys =>
          rw [List.map_cons, List.map_cons, List.cons_append, List.cons_append, List.cons_beq_cons,
            pair_beq, beq_self_eq_true, Bool.true_and, ih, List.cons_beq_cons, Bool.and_assoc]

theorem entries_beq {es fs : List (String × List V)} (ordered : es.Pairwise fun a b => a.1 < b.1)
    (ordered' : fs.Pairwise fun a b => a.1 < b.1) (filled : ∀ e ∈ es, e.2 ≠ [])
    (filled' : ∀ f ∈ fs, f.2 ≠ []) :
    (es == fs) = ((es.flatMap fun e => e.2.map fun v => (e.1, v)) ==
      fs.flatMap fun f => f.2.map fun v => (f.1, v)) := by
  induction es generalizing fs with
  | nil =>
      cases fs with
      | nil => rfl
      | cons f fs =>
          obtain ⟨w, ws, run⟩ := List.exists_cons_of_ne_nil (filled' f List.mem_cons_self)
          rw [List.flatMap_cons, run]
          rfl
  | cons e es ih =>
      obtain ⟨k, vs⟩ := e
      obtain ⟨v, rest, run⟩ := List.exists_cons_of_ne_nil (filled (k, vs) List.mem_cons_self)
      cases fs with
      | nil =>
          rw [List.flatMap_cons, run]
          rfl
      | cons f fs =>
          obtain ⟨l, ws⟩ := f
          obtain ⟨w, others, run'⟩ := List.exists_cons_of_ne_nil (filled' (l, ws) List.mem_cons_self)
          obtain ⟨later, orderedRest⟩ := List.pairwise_cons.mp ordered
          obtain ⟨later', orderedRest'⟩ := List.pairwise_cons.mp ordered'
          have tail := ih orderedRest orderedRest'
            (fun e there => filled e (List.mem_cons_of_mem _ there))
            (fun f there => filled' f (List.mem_cons_of_mem _ there))
          rw [List.cons_beq_cons, pair_beq, List.flatMap_cons, List.flatMap_cons]
          by_cases same : k = l
          · subst same
            rw [run_beq_run vs ws (keys_behind later) (keys_behind later'), beq_self_eq_true,
              Bool.true_and, tail]
          · have other : (k == l) = false := beq_eq_false_iff_ne.mpr same
            dsimp only at run run'
            simp only [run, run', List.map_cons, List.cons_append, List.cons_beq_cons,
              pair_beq k l v w, other, Bool.false_and]

/-- Multimaps are compared as their pairs are. -/
theorem beq_eq (ok : m.WellFormed) (ok' : n.WellFormed) : (m == n) = (m.toList == n.toList) :=
  entries_beq ok.1 ok'.1 ok.2 ok'.2

end Equality

/-- A multimap is known by its pairs. -/
theorem toList_inj (ok : m.WellFormed) (ok' : n.WellFormed) : m.toList = n.toList ↔ m = n := by
  classical
  constructor
  · intro same
    have alike : (m == n) = true := by
      rw [beq_eq ok ok', same, beq_self_eq_true]
    have entries : m.entries = n.entries := eq_of_beq alike
    cases m
    cases n
    exact congrArg mk entries
  · intro same
    rw [same]

/-- Multimaps that hold the same values under every key are the same. -/
theorem eq_of_values (ok : m.WellFormed) (ok' : n.WellFormed)
    (same : ∀ k, m.values k = n.values k) : m = n := by
  have held : m.Lists n.toList := ⟨ok, fun k => by rw [same, values_eq ok', under]⟩
  have own : n.Lists n.toList := ⟨ok', values_eq ok'⟩
  exact (toList_inj ok ok').mp (held.toList.trans own.toList.symm)

/-- Insertions under different keys may be made in either order. -/
theorem insert_comm (ok : m.WellFormed) (other : k ≠ l) (v w : V) :
    (m.insert k v).insert l w = (m.insert l w).insert k v := by
  have first := ok.insert k v
  have second := ok.insert l w
  refine eq_of_values (first.insert l w) (second.insert k v) fun key => ?_
  rw [values_insert first, values_insert ok, values_insert second, values_insert ok]
  by_cases here : key = l
  · have there : key ≠ k := fun same => other (same.symm.trans here)
    rw [if_pos here, if_neg there, if_neg there, if_pos here]
  · rw [if_neg here, if_neg here]

/-! ## Every history -/

/-- Whatever a multimap was filled with and whatever changes were made since, its pairs are those of
the list that went through the same, sorted by key. No key is stored without values; the counts and
the questions are answered by the pairs; another multimap is equal to it if it has the same pairs;
and values may be put under different keys in either order. -/
theorem changed_sorted [BEq V] (ps : List (String × V)) (changes : List (Change V)) :
    let m := (ofList ps).changed changes
    let left := changedList ps changes
    m.toList = sorted left ∧
    (∀ e ∈ m.entries, e.2 ≠ []) ∧
    m.size = left.length ∧
    m.keyCount = (left.map (·.1)).dedup.length ∧
    (m.isEmpty = true ↔ m.size = 0) ∧
    (∀ k, m.get? k = if k ∈ left.map (·.1) then some (under k left) else none) ∧
    (∀ k, m.contains k = true ↔ ∃ vs, m.get? k = some vs ∧ vs ≠ []) ∧
    (∀ qs others,
      let n := (ofList qs).changed others
      (m == n) = (m.toList == n.toList) ∧ (m = n ↔ m.toList = n.toList)) ∧
    ∀ k l v w, k ≠ l → (m.insert k v).insert l w = (m.insert l w).insert k v := by
  intro m left
  have held : m.Lists left := (lists_ofList ps).changed changes
  have ok := held.wellFormed
  refine ⟨held.toList, ok.2, held.size, held.keyCount, held.isEmpty_iff, held.get?, ?_, ?_, ?_⟩
  · intro k
    rw [contains_iff ok, values]
    cases found : m.get? k with
    | none => simp
    | some vs => simp
  · intro qs others n
    have held' : n.Lists (changedList qs others) := (lists_ofList qs).changed others
    exact ⟨beq_eq ok held'.wellFormed, (toList_inj ok held'.wellFormed).symm⟩
  · intro k l v w other
    exact insert_comm ok other v w

/-- Pairs under two keys that were put in one behind the other. -/
theorem changed_sorted_of_mixed :
    let ps : List (String × Nat) := [("b", 1), ("a", 2), ("b", 3), ("a", 4)]
    let changes : List (Change Nat) := [.filter fun _ v => v != 2, .insert "c" 5, .insert "a" 6]
    let m := (ofList ps).changed changes
    sorted (changedList ps changes) = [("a", 4), ("a", 6), ("b", 1), ("b", 3), ("c", 5)] ∧
    "a" ≠ "b" ∧ (m.insert "a" 7).insert "b" 8 = (m.insert "b" 8).insert "a" 7 := by
  intro ps changes m
  have all := changed_sorted ps changes
  have pairs : m.toList = [("a", 4), ("a", 6), ("b", 1), ("b", 3), ("c", 5)] := by decide +kernel
  have other : "a" ≠ "b" := by decide
  refine ⟨all.1.symm.trans pairs, other, ?_⟩
  exact all.2.2.2.2.2.2.2.2 "a" "b" 7 8 other

end CommandGrammar.Multimap
