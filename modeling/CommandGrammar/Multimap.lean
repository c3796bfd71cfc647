import CommandGrammar.Text.Quoted

/-!
# Multimaps

Lists of values under text keys. Keys stand in the order of their characters, values under one key
in the order they were inserted, and a key without values is not stored. The view of a multimap is
the list of its key-value pairs.
-/

namespace CommandGrammar

/-- Lists of values, in the order of their keys. -/
structure Multimap (V : Type) where
  entries : List (String × List V)
  deriving Repr

namespace Multimap

variable {V W : Type}

/-- No keys at all. -/
def empty : Multimap V := ⟨[]⟩

instance : EmptyCollection (Multimap V) := ⟨empty⟩

instance : Inhabited (Multimap V) := ⟨empty⟩

instance [BEq V] : BEq (Multimap V) := ⟨fun m n => m.entries == n.entries⟩

/-- Keys stand in strict order and none is without values. -/
def WellFormed (m : Multimap V) : Prop :=
  m.entries.Pairwise (fun a b => a.1 < b.1) ∧ ∀ e ∈ m.entries, e.2 ≠ []

/-- The values under the first entry with a key. -/
def lookup (key : String) : List (String × List V) → Option (List V)
  | [] => none
  | (k, vs) :: rest => if k = key then some vs else lookup key rest

/-- The values under a key, if there are any. -/
def get? (m : Multimap V) (key : String) : Option (List V) :=
  lookup key m.entries

def values (m : Multimap V) (key : String) : List V :=
  (m.get? key).getD []

def contains (m : Multimap V) (key : String) : Bool :=
  (m.get? key).isSome

/-- A value put behind the others under its key. -/
def insertEntry (key : String) (value : V) : List (String × List V) → List (String × List V)
  | [] => [(key, [value])]
  | (k, vs) :: rest =>
    if key = k then (k, vs ++ [value]) :: rest
    else if key < k then (key, [value]) :: (k, vs) :: rest
    else (k, vs) :: insertEntry key value rest

/-- The multimap with a value put behind the others under its key. -/
def insert (m : Multimap V) (key : String) (value : V) : Multimap V :=
  ⟨insertEntry key value m.entries⟩

/-- The multimap without the values under a key. -/
def erase (m : Multimap V) (key : String) : Multimap V :=
  ⟨m.entries.filter fun e => e.1 != key⟩

/-- The multimap of the pairs that satisfy a predicate. -/
def filter (p : String → V → Bool) (m : Multimap V) : Multimap V :=
  ⟨(m.entries.map fun (k, vs) => (k, vs.filter (p k))).filter fun e => !e.2.isEmpty⟩

/-- The keys, in order. -/
def keys (m : Multimap V) : List String :=
  m.entries.map (·.1)

/-- The pairs of a key and one of its values, in order. -/
def toList (m : Multimap V) : List (String × V) :=
  m.entries.flatMap fun (k, vs) => vs.map fun v => (k, v)

/-- All values, in the order of their keys. -/
def allValues (m : Multimap V) : List V :=
  m.entries.flatMap (·.2)

/-- The number of values. -/
def size (m : Multimap V) : Nat :=
  m.entries.foldr (fun e n => e.2.length + n) 0

def keyCount (m : Multimap V) : Nat :=
  m.entries.length

/-- Whether there are no keys. -/
def isEmpty (m : Multimap V) : Bool :=
  m.entries.isEmpty

/-- The multimap of pairs inserted one after the other. -/
def ofList (pairs : List (String × V)) : Multimap V :=
  pairs.foldl (fun m (k, v) => m.insert k v) empty

/-- The multimap with its values changed one by one. -/
def map (f : V → W) (m : Multimap V) : Multimap W :=
  ⟨m.entries.map fun (k, vs) => (k, vs.map f)⟩

/-- A description: each key in quotes and its values in brackets. -/
def describe (item : V → String) (m : Multimap V) : String :=
  let entry (e : String × List V) : String :=
    Text.quoted e.1 ++ ": [" ++ String.intercalate ", " (e.2.map item) ++ "]"
  "\x7b" ++ String.intercalate ", " (m.entries.map entry) ++ "\x7d"

/-- The size counts the pairs. -/
theorem size_eq_length_toList (m : Multimap V) : m.size = m.toList.length := by
  unfold size toList
  induction m.entries with
  | nil => rfl
  | cons e es ih => simp [ih]

theorem allValues_eq_map_toList (m : Multimap V) : m.allValues = m.toList.map (·.2) := by
  simp [allValues, toList, List.map_flatMap, Function.comp_def]

/-- Changing values leaves the keys. -/
theorem keys_map (f : V → W) (m : Multimap V) : (m.map f).keys = m.keys := by
  simp [keys, map, Function.comp_def]

private theorem lookup_eq_none_of_lt {key : String} {es : List (String × List V)}
    (lt : ∀ e ∈ es, key < e.1) : lookup key es = none := by
  induction es with
  | nil => rfl
  | cons e rest ih =>
    have ne : e.1 ≠ key := fun h => String.lt_irrefl key (h ▸ lt e List.mem_cons_self)
    simp only [lookup, ne, if_false]
    exact ih fun e' he' => lt e' (List.mem_cons_of_mem _ he')

private theorem lookup_insertEntry {key k : String} {value : V} {es : List (String × List V)}
    (ordered : es.Pairwise (fun a b => a.1 < b.1)) :
    lookup k (insertEntry key value es) =
      if k = key then some ((lookup k es).getD [] ++ [value]) else lookup k es := by
  induction es with
  | nil =>
    by_cases h : k = key
    · simp [insertEntry, lookup, h]
    · simp [insertEntry, lookup, h, Ne.symm h]
  | cons e rest ih =>
    obtain ⟨n, vs⟩ := e
    obtain ⟨first, others⟩ := List.pairwise_cons.1 ordered
    simp only [insertEntry]
    split
    · rename_i eq
      subst eq
      by_cases h : k = key
      · simp [lookup, h]
      · simp [lookup, h, Ne.symm h]
    · rename_i ne
      split
      · rename_i lt
        by_cases h : k = key
        · subst h
          have absent : lookup k rest = none :=
            lookup_eq_none_of_lt fun e he => String.lt_trans lt (first e he)
          simp [lookup, Ne.symm ne, absent]
        · simp [lookup, h, Ne.symm h]
      · by_cases h : n = k
        · subst h
          simp [lookup, Ne.symm ne]
        · simp only [lookup, h, if_false]
          exact ih others

/-- An inserted value stands behind the others under its key, and the other keys keep theirs. -/
theorem get?_insert {m : Multimap V} (ok : m.WellFormed) (key k : String) (value : V) :
    (m.insert key value).get? k =
      if k = key then some (m.values k ++ [value]) else m.get? k :=
  lookup_insertEntry ok.1

private theorem mem_insertEntry {key : String} {value : V} {es : List (String × List V)}
    {e : String × List V} (h : e ∈ insertEntry key value es) :
    (e.1 = key ∧ e.2 ≠ []) ∨ e ∈ es := by
  induction es with
  | nil => simp_all [insertEntry]
  | cons e' rest ih =>
    obtain ⟨n, vs⟩ := e'
    simp only [insertEntry] at h
    split at h
    · rename_i eq
      rcases List.mem_cons.1 h with rfl | h
      · exact Or.inl ⟨eq.symm, by simp⟩
      · exact Or.inr (List.mem_cons_of_mem _ h)
    · split at h
      · rcases List.mem_cons.1 h with rfl | h
        · exact Or.inl ⟨rfl, by simp⟩
        · exact Or.inr h
      · rcases List.mem_cons.1 h with rfl | h
        · exact Or.inr List.mem_cons_self
        · exact (ih h).imp_right (List.mem_cons_of_mem _)

private theorem pairwise_insertEntry {key : String} {value : V} {es : List (String × List V)}
    (ordered : es.Pairwise (fun a b => a.1 < b.1)) :
    (insertEntry key value es).Pairwise (fun a b => a.1 < b.1) := by
  induction es with
  | nil => simp [insertEntry]
  | cons e rest ih =>
    obtain ⟨n, vs⟩ := e
    obtain ⟨first, others⟩ := List.pairwise_cons.1 ordered
    simp only [insertEntry]
    split
    · exact List.pairwise_cons.2 ⟨first, others⟩
    · rename_i ne
      split
      · rename_i lt
        refine List.pairwise_cons.2 ⟨fun e he => ?_, ordered⟩
        rcases List.mem_cons.1 he with rfl | he
        · exact lt
        · exact String.lt_trans lt (first e he)
      · rename_i notLt
        refine List.pairwise_cons.2 ⟨fun e he => ?_, ih others⟩
        rcases mem_insertEntry he with ⟨eq, _⟩ | he
        · exact eq ▸ Std.lt_of_le_of_ne (String.not_lt.1 notLt) (Ne.symm ne)
        · exact first e he

theorem WellFormed.empty : (Multimap.empty : Multimap V).WellFormed :=
  ⟨List.Pairwise.nil, fun _ h => nomatch h⟩

/-- Inserting keeps keys in strict order and none without values. -/
theorem WellFormed.insert {m : Multimap V} (ok : m.WellFormed) (key : String) (value : V) :
    (m.insert key value).WellFormed :=
  ⟨pairwise_insertEntry ok.1, fun e he => (mem_insertEntry he).elim (·.2) (ok.2 e)⟩

/-- Erasing a key keeps the others in strict order and with values. -/
theorem WellFormed.erase {m : Multimap V} (ok : m.WellFormed) (key : String) :
    (m.erase key).WellFormed :=
  ⟨ok.1.filter _, fun e he => ok.2 e (List.mem_filter.1 he).1⟩

end Multimap

end CommandGrammar
