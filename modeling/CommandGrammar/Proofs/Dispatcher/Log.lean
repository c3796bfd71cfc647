import CommandGrammar.Proofs.Dispatcher

/-!
# The log of a dispatcher

A dispatcher keeps its commands by their aliases. What it answers, while commands come and go, is
what a plain list of entries would answer: each registration puts its entries behind the others,
each removal takes entries out, and whatever is asked is looked up among the entries there are.
-/

namespace CommandGrammar

namespace Dispatcher

/-- What an application may do to a dispatcher. -/
inductive Edit (C : Type) where
  | register (callable : C) (aliases : List String) (rewrite : List String → List String)
  | remove (key : String)
  | removeAll (keys : List String)
  | removeId (id : Nat)
  | removeIds (ids : List Nat)

/-- What it is answered: the name of the command that came in or was withdrawn, the commands that
were under an alias, or whether anything was removed. -/
inductive Answer (C : Type) where
  | registered (name : Option CommandName)
  | removed (commands : List (Mapping C))
  | withdrawn (name : Option CommandName)
  | found (anything : Bool)

variable {C : Type}

def edit (d : Dispatcher C) : Edit C → Answer C × Dispatcher C
  | .register callable aliases rewrite =>
    let (name, d) := d.registerWith callable aliases rewrite
    (.registered name, d)
  | .remove key =>
    let (commands, d) := d.remove key
    (.removed commands, d)
  | .removeAll keys =>
    let (anything, d) := d.removeAll keys
    (.found anything, d)
  | .removeId id =>
    let (name, d) := d.removeId id
    (.withdrawn name, d)
  | .removeIds ids =>
    let (anything, d) := d.removeIds ids
    (.found anything, d)

/-- The answers to some changes one after the other, and the dispatcher after them. -/
def run (d : Dispatcher C) : List (Edit C) → List (Answer C) × Dispatcher C
  | [] => ([], d)
  | e :: rest =>
    let (answer, d) := d.edit e
    let (later, d) := d.run rest
    (answer :: later, d)

/-- A removal names an entry, by its key or by the number of its command. -/
def Edit.names : Edit C → String → Nat → Bool
  | .register .., _, _ => false
  | .remove typed, key, _ => key == Text.lowercase typed
  | .removeAll typed, key, _ => (typed.map Text.lowercase).contains key
  | .removeId id, _, number => number == id
  | .removeIds ids, _, number => ids.contains number

end Dispatcher

open Dispatcher

/-- Entries of commands under keys in the order in which they came, and how many commands came. -/
structure Log (C : Type) where
  entries : List (String × Mapping C)
  count : Nat

namespace Log

variable {C : Type}

def empty : Log C := ⟨[], 0⟩

/-- The commands of the entries with a key. -/
def under (l : Log C) (key : String) : List (Mapping C) :=
  (l.entries.filter fun e => e.1 == key).map (·.2)

/-- The commands of the entries that a removal names. -/
def named (l : Log C) (e : Edit C) : List (Mapping C) :=
  (l.entries.filter fun x => e.names x.1 x.2.name.id).map (·.2)

/-- The log without the entries that a removal names. -/
def without (l : Log C) (e : Edit C) : Log C :=
  { l with entries := l.entries.filter fun x => !e.names x.1 x.2.name.id }

/-- The answer to a change, and the log after it. -/
def edit (l : Log C) (e : Edit C) : Answer C × Log C :=
  match e with
  | .register callable aliases rewrite =>
    match rewrite aliases with
    | [] => (.registered none, l)
    | primary :: others =>
      let name : CommandName := ⟨l.count, primary, Names.ofList (primary :: others)⟩
      let more := (primary :: others).map fun typed => (Text.lowercase typed, ⟨name, callable⟩)
      (.registered (some name), ⟨l.entries ++ more, l.count + 1⟩)
  | .remove _ => (.removed (l.named e), l.without e)
  | .removeId _ => (.withdrawn ((l.named e).head?.map (·.name)), l.without e)
  | .removeAll _ | .removeIds _ => (.found (!(l.named e).isEmpty), l.without e)

def run (l : Log C) : List (Edit C) → List (Answer C) × Log C
  | [] => ([], l)
  | e :: rest =>
    let (answer, l) := l.edit e
    let (later, l) := l.run rest
    (answer :: later, l)

/-- The entries in the order of their keys; those with one key stay in the order they came in. -/
def sorted (l : Log C) : List (String × Mapping C) :=
  l.entries.mergeSort fun a b => a.1 ≤ b.1

/-- Commands without those that came before. -/
def distinct : List (Mapping C) → List (Mapping C)
  | [] => []
  | c :: rest => c :: (distinct rest).filter fun b => b.name.id != c.name.id

/-- The command that a typed alias stands for: the first of its entries whose command is known by
it, else the first. -/
def pick (l : Log C) (typed : String) : Option (Mapping C) :=
  let candidates := l.under (Text.lowercase typed)
  (candidates.find? fun c => Text.lowercase c.name.primary == Text.lowercase typed).or
    candidates.head?

/-! ## What a dispatcher keeps of its log -/

/-- A table that holds the entries of a log, and numbers by which their commands are told apart. -/
structure Backs (l : Log C) (d : Dispatcher C) : Prop where
  table : d.table.WellFormed
  values : ∀ key, d.table.values key = l.under key
  next : d.nextId = l.count
  below : ∀ e ∈ l.entries, e.2.name.id < l.count
  alone : ∀ a ∈ l.entries, ∀ b ∈ l.entries, a.2.name.id = b.2.name.id → a.2 = b.2

variable {l : Log C} {d : Dispatcher C}

theorem mem_under {key : String} {c : Mapping C} : c ∈ l.under key ↔ (key, c) ∈ l.entries := by
  simp [under]

theorem under_without (l : Log C) (e : Edit C) (key : String) :
    (l.without e).under key = (l.under key).filter fun c => !e.names key c.name.id := by
  unfold under without
  rw [List.filter_filter, List.filter_map, List.filter_filter]
  congr 1
  refine List.filter_congr fun x _ => ?_
  by_cases here : x.1 = key
  · simp [here]
  · rw [beq_eq_false_iff_ne.mpr here, Bool.false_and, Bool.and_false]

theorem length_without (l : Log C) (e : Edit C) :
    l.entries.length = (l.named e).length + (l.without e).entries.length := by
  unfold named without
  rw [List.length_map, ← List.countP_eq_length_filter, ← List.countP_eq_length_filter]
  simpa using List.length_eq_countP_add_countP (fun x => e.names x.1 x.2.name.id) (l := l.entries)

theorem mem_named {e : Edit C} {c : Mapping C} :
    c ∈ l.named e ↔ ∃ key, c ∈ l.under key ∧ e.names key c.name.id = true := by
  simp [named, mem_under]

/-- A removal finds something if it names an entry. -/
theorem found_iff {e : Edit C} :
    (!(l.named e).isEmpty) = true ↔ ∃ key, ∃ c ∈ l.under key, e.names key c.name.id = true := by
  rw [Bool.not_eq_true', List.isEmpty_eq_false_iff_exists_mem, exists_comm]
  exact exists_congr fun c => mem_named

theorem key_trans (a b c : String × Mapping C) (ab : decide (a.1 ≤ b.1) = true)
    (bc : decide (b.1 ≤ c.1) = true) : decide (a.1 ≤ c.1) = true :=
  decide_eq_true (String.le_trans (of_decide_eq_true ab) (of_decide_eq_true bc))

theorem key_total (a b : String × Mapping C) : (decide (a.1 ≤ b.1) || decide (b.1 ≤ a.1)) = true := by
  simpa using String.le_total a.1 b.1

/-- The sorted entries stand under each key as they came. -/
theorem filter_sorted (l : Log C) (key : String) :
    (l.sorted.filter fun e => e.1 == key) = l.entries.filter fun e => e.1 == key := by
  -- Entries with one key are in order already, so sorting leaves them as they are.
  have inOrder : (l.entries.filter fun e => e.1 == key).Pairwise fun a b => decide (a.1 ≤ b.1) = true := by
    refine List.pairwise_of_forall_mem_list fun a ha b hb => ?_
    have left : a.1 = key := by simpa using (List.mem_filter.mp ha).2
    have right : b.1 = key := by simpa using (List.mem_filter.mp hb).2
    simp [left, right]
  have kept := (List.sublist_mergeSort key_trans key_total inOrder List.filter_sublist).filter
    fun e => e.1 == key
  rw [List.filter_filter] at kept
  simp only [Bool.and_self] at kept
  refine (kept.eq_of_length ?_).symm
  exact ((List.mergeSort_perm l.entries _).filter _).length_eq.symm

namespace Backs

theorem empty (policy : Policy) : (Log.empty : Log C).Backs (.empty policy) where
  table := .empty
  values _ := rfl
  next := rfl
  below := by simp [Log.empty]
  alone := by simp [Log.empty]

/-- The table lists the entries in the order of their keys. -/
theorem toList (h : l.Backs d) : d.table.toList = l.sorted := by
  refine Multimap.ext_of_ordered (Multimap.toList_ordered h.table) ?_ fun key => ?_
  · exact (List.pairwise_mergeSort key_trans key_total l.entries).imp fun le => of_decide_eq_true le
  · rw [filter_sorted]
    have values := h.values key
    rw [Multimap.values_eq h.table, under] at values
    -- Entries with the same key are the same if their commands are.
    have paired : ∀ es : List (String × Mapping C),
        (es.filter fun e => e.1 == key) = ((es.filter fun e => e.1 == key).map (·.2)).map (key, ·) := by
      intro es
      rw [List.map_map]
      refine (List.map_id _).symm.trans (List.map_congr_left fun e he => ?_)
      have named : e.1 = key := by simpa using (List.mem_filter.mp he).2
      simp [← named]
    rw [paired, paired l.entries, values]

theorem size (h : l.Backs d) : d.table.size = l.entries.length := by
  rw [Multimap.size_eq_length_toList, h.toList, sorted, List.length_mergeSort]

theorem mem_toList (h : l.Backs d) {key : String} {c : Mapping C} :
    (key, c) ∈ d.table.toList ↔ (key, c) ∈ l.entries := by
  rw [h.toList, sorted, List.mem_mergeSort]

theorem mem_allValues (h : l.Backs d) {c : Mapping C} :
    c ∈ d.table.allValues ↔ ∃ e ∈ l.entries, e.2 = c := by
  simp only [Multimap.mem_allValues_iff, h.mem_toList, Prod.exists, exists_eq_right]

/-! ### Changes -/

/-- A registration puts its entries behind the others. -/
theorem add (h : l.Backs d) {name : CommandName} (number : name.id = l.count) (callable : C)
    (aliases : List String) :
    (Log.mk (l.entries ++ aliases.map fun typed => (Text.lowercase typed, ⟨name, callable⟩))
      (l.count + 1)).Backs
      ⟨d.policy, aliases.foldl
        (fun t typed => t.insert (Text.lowercase typed) ⟨name, callable⟩) d.table, d.nextId + 1⟩ := by
  let new : Mapping C := ⟨name, callable⟩
  have fresh : ∀ e ∈ l.entries, e.2.name.id ≠ name.id := by
    intro e old
    rw [number]
    exact Nat.ne_of_lt (h.below e old)
  have came : ∀ e ∈ aliases.map fun typed => (Text.lowercase typed, new), e.2 = new := by
    intro e he
    obtain ⟨_, -, rfl⟩ := List.mem_map.mp he
    rfl
  constructor
  · exact wellFormed_insertAll h.table new aliases
  · intro key
    rw [values_insertAll h.table, h.values, under, under, List.filter_append, List.map_append]
    congr 1
    rw [List.filter_map, List.map_map, List.countP_eq_length_filter]
    exact List.map_const'.symm
  · exact congrArg (· + 1) h.next
  · intro e he
    rcases List.mem_append.mp he with old | new
    · exact Nat.lt_succ_of_lt (h.below e old)
    · rw [came e new]
      exact number ▸ Nat.lt_succ_self _
  · intro a ha b hb same
    rcases List.mem_append.mp ha with oldA | newA
    · rcases List.mem_append.mp hb with oldB | newB
      · exact h.alone a oldA b oldB same
      · exact absurd (same.trans (by rw [came b newB])) (fresh a oldA)
    · rcases List.mem_append.mp hb with oldB | newB
      · exact absurd (same.symm.trans (by rw [came a newA])) (fresh b oldB)
      · rw [came a newA, came b newB]

/-- A removal takes out the entries that it names. -/
theorem without (h : l.Backs d) (e : Edit C) {t : Multimap (Mapping C)} (table : t.WellFormed)
    (values : ∀ key, t.values key = (d.table.values key).filter fun c => !e.names key c.name.id) :
    (l.without e).Backs { d with table := t } where
  table := table
  values key := by rw [under_without, values, h.values]
  next := h.next
  below x hx := h.below x (List.mem_filter.mp hx).1
  alone a ha b hb := h.alone a (List.mem_filter.mp ha).1 b (List.mem_filter.mp hb).1

theorem named_eq (h : l.Backs d) (key : String) :
    l.named (.remove key) = d.all key := by
  rw [all, h.values]
  rfl

theorem edit_remove (h : l.Backs d) (key : String) :
    (d.edit (.remove key)).1 = (l.edit (.remove key)).1 ∧
      (l.edit (.remove key)).2.Backs (d.edit (.remove key)).2 := by
  refine ⟨congrArg Answer.removed (h.named_eq key).symm, h.without _ (h.table.erase _) fun k => ?_⟩
  rw [Multimap.values_erase h.table]
  by_cases here : k = Text.lowercase key
  · simp [here, Edit.names]
  · rw [if_neg here]
    refine (List.filter_eq_self.mpr fun c _ => ?_).symm
    simp [here, Edit.names]

theorem edit_removeAll (h : l.Backs d) (keys : List String) :
    (d.edit (.removeAll keys)).1 = (l.edit (.removeAll keys)).1 ∧
      (l.edit (.removeAll keys)).2.Backs (d.edit (.removeAll keys)).2 := by
  refine ⟨congrArg Answer.found ?_, ?_⟩
  · rw [Bool.eq_iff_iff, found_removeAll h.table, found_iff]
    simp only [all, h.values, Edit.names, List.contains_iff_mem, List.mem_map]
    constructor
    · rintro ⟨key, listed, filled⟩
      obtain ⟨c, there⟩ := List.exists_mem_of_ne_nil _ filled
      exact ⟨Text.lowercase key, c, there, key, listed, rfl⟩
    · rintro ⟨_, c, there, key, listed, rfl⟩
      exact ⟨key, listed, List.ne_nil_of_mem there⟩
  · have rest := d.removeAll_rest keys
    have kept := h.without (.removeAll keys) (wellFormed_removeAll h.table keys) fun k => by
      rw [values_removeAll h.table]
      cases named : (keys.map Text.lowercase).contains k with
      | false =>
          refine (List.filter_eq_self.mpr fun c _ => ?_).symm
          simp only [Edit.names, named, Bool.not_false]
      | true =>
          refine (List.filter_eq_nil_iff.mpr fun c _ => ?_).symm
          simp only [Edit.names, named, Bool.not_true, Bool.false_eq_true, not_false_eq_true]
    have same : (d.removeAll keys).2 = { d with table := (d.removeAll keys).2.table } := by
      rw [← rest.1, ← rest.2]
    change (l.without _).Backs (d.removeAll keys).2
    rw [same]
    exact kept

theorem edit_removeId (h : l.Backs d) (id : Nat) :
    (d.edit (.removeId id)).1 = (l.edit (.removeId id)).1 ∧
      (l.edit (.removeId id)).2.Backs (d.edit (.removeId id)).2 := by
  have filtered := h.without (.removeId id)
    (h.table.filter fun _ c => c.name.id != id) fun k => Multimap.values_filter h.table _ k
  simp only [Dispatcher.edit, removeId, Log.edit]
  cases found : d.table.allValues.find? fun c => c.name.id == id with
  | none =>
      let removal : Edit C := .removeId id
      have absent : ∀ e ∈ l.entries, removal.names e.1 e.2.name.id = false := by
        intro e there
        have lacks := List.find?_eq_none.mp found e.2 (h.mem_allValues.mpr ⟨e, there, rfl⟩)
        simpa [removal, Edit.names] using lacks
      have nothing : l.named removal = [] := by
        unfold named
        rw [List.map_eq_nil_iff, List.filter_eq_nil_iff]
        exact fun e there => by simp [absent e there]
      have whole : l.without removal = l := by
        have all : l.entries.filter (fun x => !removal.names x.1 x.2.name.id) = l.entries :=
          List.filter_eq_self.mpr fun e there => by simp [absent e there]
        simp [Log.without, all]
      rw [nothing, whole]
      exact ⟨rfl, h⟩
  | some c =>
      refine ⟨congrArg Answer.withdrawn ?_, filtered⟩
      obtain ⟨e, there, rfl⟩ := h.mem_allValues.mp (List.mem_of_find?_eq_some found)
      have number : e.2.name.id = id := by simpa using List.find?_some found
      have inNamed : e.2 ∈ l.named (.removeId id) :=
        List.mem_map_of_mem (List.mem_filter.mpr ⟨there, by simp [Edit.names, number]⟩)
      cases first : l.named (.removeId id) with
      | nil => simp [first] at inNamed
      | cons b rest =>
          have listed : b ∈ l.named (.removeId id) := by simp [first]
          obtain ⟨x, hx, rfl⟩ := List.mem_map.mp listed
          obtain ⟨inLog, named⟩ := List.mem_filter.mp hx
          have same : x.2.name.id = e.2.name.id := by
            rw [number]
            simpa [Edit.names] using named
          simp [h.alone x inLog e there same]

theorem edit_removeIds (h : l.Backs d) (ids : List Nat) :
    (d.edit (.removeIds ids)).1 = (l.edit (.removeIds ids)).1 ∧
      (l.edit (.removeIds ids)).2.Backs (d.edit (.removeIds ids)).2 := by
  have filtered := h.without (.removeIds ids)
    (h.table.filter fun _ c => !ids.contains c.name.id) fun k => Multimap.values_filter h.table _ k
  refine ⟨congrArg Answer.found ?_, filtered⟩
  have after := filtered.size
  dsimp only at after
  rw [after, h.size]
  have parts := l.length_without (.removeIds ids)
  rw [Bool.eq_iff_iff, bne_iff_ne, Bool.not_eq_true', List.isEmpty_eq_false_iff,
    ← List.length_pos_iff]
  omega

/-- One change is answered alike, and leaves the table with the entries of the log. -/
theorem edit (h : l.Backs d) (e : Edit C) :
    (d.edit e).1 = (l.edit e).1 ∧ (l.edit e).2.Backs (d.edit e).2 := by
  cases e with
  | register callable aliases rewrite =>
      cases kept : rewrite aliases with
      | nil =>
          simp only [Dispatcher.edit, registerWith, Log.edit, kept, true_and]
          exact h
      | cons primary others =>
          let name : CommandName := ⟨l.count, primary, Names.ofList (primary :: others)⟩
          have more := h.add (show name.id = l.count from rfl) callable (primary :: others)
          simp only [Dispatcher.edit, registerWith, Log.edit, kept, h.next, true_and] at more ⊢
          exact more
  | remove key => exact h.edit_remove key
  | removeAll keys => exact h.edit_removeAll keys
  | removeId id => exact h.edit_removeId id
  | removeIds ids => exact h.edit_removeIds ids

/-- So are all the changes one after the other. -/
theorem run (h : l.Backs d) (edits : List (Edit C)) :
    (d.run edits).1 = (l.run edits).1 ∧ (l.run edits).2.Backs (d.run edits).2 := by
  induction edits generalizing l d with
  | nil => exact ⟨rfl, h⟩
  | cons e rest ih =>
      obtain ⟨answer, step⟩ := h.edit e
      obtain ⟨later, after⟩ := ih step
      refine ⟨?_, after⟩
      simp only [Dispatcher.run, Log.run, answer, later]

end Backs

/-! ## What a dispatcher is asked -/

/-- Each command of a list once. -/
theorem distinct_once (cs : List (Mapping C)) : ((distinct cs).map (·.name.id)).Nodup := by
  induction cs with
  | nil => exact List.Pairwise.nil
  | cons c rest ih =>
      rw [distinct, List.map_cons, List.nodup_cons]
      refine ⟨fun again => ?_, ih.sublist (List.filter_sublist.map _)⟩
      obtain ⟨b, listed, same⟩ := List.mem_map.mp again
      have differs := (List.mem_filter.mp listed).2
      simp [same] at differs

/-- None is missing if commands with one number are the same. -/
theorem mem_distinct {cs : List (Mapping C)} {c : Mapping C}
    (alone : ∀ a ∈ cs, ∀ b ∈ cs, a.name.id = b.name.id → a = b) : c ∈ distinct cs ↔ c ∈ cs := by
  induction cs with
  | nil => rfl
  | cons b rest ih =>
      have others := ih fun x hx y hy => alone x (.tail _ hx) y (.tail _ hy)
      simp only [distinct, List.mem_cons, List.mem_filter, others, bne_iff_ne]
      constructor
      · rintro (rfl | ⟨later, -⟩)
        · exact .inl rfl
        · exact .inr later
      · rintro (rfl | later)
        · exact .inl rfl
        · by_cases same : c.name.id = b.name.id
          · exact .inl (alone c (.tail _ later) b (.head _) same)
          · exact .inr ⟨later, same⟩

theorem foldl_commands (cs seen : List (Mapping C)) :
    cs.foldl (fun seen c => if seen.any fun b => b.name.id == c.name.id then seen else seen ++ [c])
      seen = seen ++ (distinct cs).filter fun c => !seen.any fun b => b.name.id == c.name.id := by
  induction cs generalizing seen with
  | nil => simp [distinct]
  | cons c rest ih =>
      rw [List.foldl_cons, ih, distinct, List.filter_cons, List.filter_filter]
      cases known : seen.any fun b => b.name.id == c.name.id with
      | true =>
          simp only [if_true, Bool.not_true, Bool.false_eq_true, if_false]
          -- Whatever is new differs from this command, which is not.
          congr 1
          refine List.filter_congr fun b _ => ?_
          by_cases same : b.name.id = c.name.id
          · simp only [same, known, Bool.not_true, Bool.false_and]
          · simp only [bne_iff_ne.mpr same, Bool.and_true]
      | false =>
          simp only [Bool.false_eq_true, if_false, Bool.not_false, if_true, List.append_assoc,
            List.singleton_append]
          congr 2
          refine List.filter_congr fun b _ => ?_
          rw [List.any_append, Bool.not_or]
          congr 1
          simp [bne, BEq.comm]

/-- Each question is answered by a look at the entries. -/
structure Reads (l : Log C) (d : Dispatcher C) : Prop where
  all : ∀ key, d.all key = l.under (Text.lowercase key)
  containsAlias : ∀ key, d.containsAlias key = !(l.under (Text.lowercase key)).isEmpty
  containsId : ∀ id, d.containsId id = l.entries.any fun e => e.2.name.id == id
  size : d.size = l.entries.length
  isEmpty : d.isEmpty = l.entries.isEmpty
  commands : d.commands = distinct (l.sorted.map (·.2))
  once : (d.commands.map (·.name.id)).Nodup
  mem_commands : ∀ c, c ∈ d.commands ↔ ∃ e ∈ l.entries, e.2 = c
  primaryAliases : d.primaryAliases = Names.ofList (l.entries.map fun e => e.2.name.primary)
  aliases : d.aliases = Names.ofList (l.entries.flatMap fun e => e.2.name.aliases)

namespace Backs

theorem commands (h : l.Backs d) : d.commands = distinct (l.sorted.map (·.2)) := by
  have folded := foldl_commands d.table.allValues []
  rw [Multimap.allValues_eq_map_toList, h.toList] at folded
  rw [Dispatcher.commands, Multimap.allValues_eq_map_toList, h.toList, folded]
  exact List.filter_eq_self.mpr fun _ _ => rfl

theorem reads (h : l.Backs d) : l.Reads d where
  all key := h.values (Text.lowercase key)
  containsAlias key := by
    rw [Bool.eq_iff_iff, containsAlias, Multimap.contains_iff h.table, h.values, Bool.not_eq_true',
      List.isEmpty_eq_false_iff]
  containsId id := by
    rw [containsId, Bool.eq_iff_iff, List.any_eq_true, List.any_eq_true]
    simp only [h.mem_allValues]
    constructor
    · rintro ⟨c, ⟨e, there, rfl⟩, number⟩
      exact ⟨e, there, number⟩
    · rintro ⟨e, there, number⟩
      exact ⟨e.2, ⟨e, there, rfl⟩, number⟩
  size := h.size
  isEmpty := by
    rw [isEmpty, Multimap.isEmpty_eq h.table, h.toList, sorted, Bool.eq_iff_iff, List.isEmpty_iff,
      List.isEmpty_iff, ← List.length_eq_zero_iff, List.length_mergeSort, List.length_eq_zero_iff]
  commands := h.commands
  once := h.commands ▸ distinct_once _
  mem_commands c := by
    have listed : ∀ b, b ∈ l.sorted.map (·.2) ↔ ∃ e ∈ l.entries, e.2 = b := by
      intro b
      simp only [List.mem_map, sorted, List.mem_mergeSort]
    rw [h.commands, mem_distinct, listed]
    intro a ha b hb same
    obtain ⟨x, hx, rfl⟩ := (listed a).mp ha
    obtain ⟨y, hy, rfl⟩ := (listed b).mp hb
    exact h.alone x hx y hy same
  primaryAliases := by
    refine Names.ofList_congr fun x => ?_
    simp only [List.mem_map, h.mem_allValues]
    constructor
    · rintro ⟨c, ⟨e, there, rfl⟩, named⟩
      exact ⟨e, there, named⟩
    · rintro ⟨e, there, named⟩
      exact ⟨e.2, ⟨e, there, rfl⟩, named⟩
  aliases := by
    refine Names.ofList_congr fun x => ?_
    simp only [List.mem_flatMap, h.mem_allValues]
    constructor
    · rintro ⟨c, ⟨e, there, rfl⟩, named⟩
      exact ⟨e, there, named⟩
    · rintro ⟨e, there, named⟩
      exact ⟨e.2, ⟨e, there, rfl⟩, named⟩

/-- The usual policy looks for a command that is known by the alias. -/
theorem get?_first (h : l.Backs d) (usual : d.policy = Policy.first) (source : Option Source)
    (key : String) : d.get? source key = l.pick key := by
  have listed : d.all key = l.under (Text.lowercase key) := h.reads.all key
  unfold get? pick
  rw [listed, usual]
  cases l.under (Text.lowercase key) with
  | nil => rfl
  | cons c rest =>
      cases rest with
      | nil =>
          simp only [List.find?_cons, List.find?_nil, List.head?_cons]
          split <;> rfl
      | cons b rest =>
          simp only [Policy.first, List.findIdx?_map, List.find?_eq_bind_findIdx?_getElem?,
            Function.comp_def]
          cases known : (c :: b :: rest).findIdx? fun x =>
              Text.lowercase x.name.primary == Text.lowercase key with
          | none => rfl
          | some i =>
              have within : i < (c :: b :: rest).length :=
                (List.findIdx?_eq_some_iff_getElem.mp known).1
              simp [List.getElem?_eq_getElem within]

end Backs

end Log

namespace Dispatcher

theorem edit_policy (d : Dispatcher C) (e : Edit C) : (d.edit e).2.policy = d.policy := by
  cases e with
  | register callable aliases rewrite =>
      simp only [edit, registerWith]
      split <;> rfl
  | remove key => rfl
  | removeAll keys => exact (d.removeAll_rest keys).1
  | removeId id =>
      simp only [edit, removeId]
      split <;> rfl
  | removeIds ids => rfl

theorem run_policy (d : Dispatcher C) (edits : List (Edit C)) :
    (d.run edits).2.policy = d.policy := by
  induction edits generalizing d with
  | nil => rfl
  | cons e rest ih => exact (ih (d.edit e).2).trans (d.edit_policy e)

/-- However commands come and go, a dispatcher answers as its log does. -/
theorem run_logged (policy : Policy) (edits : List (Edit C)) :
    ((Dispatcher.empty policy).run edits).1 = (Log.empty.run edits).1 ∧
      (Log.empty.run edits).2.Reads ((Dispatcher.empty policy).run edits).2 ∧
      ∀ source key, ((Dispatcher.empty).run edits).2.get? source key =
        (Log.empty.run edits).2.pick key := by
  obtain ⟨answers, kept⟩ := (Log.Backs.empty policy).run edits
  obtain ⟨-, usual⟩ := (Log.Backs.empty Policy.first).run edits
  exact ⟨answers, kept.reads, usual.get?_first (run_policy _ edits)⟩

end Dispatcher

end CommandGrammar
