/-!
# Sets of names

Names in order, each once.
-/

namespace CommandGrammar.Names

/-- A name put in its place, unless it is there already. -/
def insert (name : String) : List String → List String
  | [] => [name]
  | n :: rest =>
    if name = n then n :: rest
    else if name < n then name :: n :: rest
    else n :: insert name rest

def ofList (names : List String) : List String :=
  names.foldl (fun set n => insert n set) []

theorem mem_insert {x name : String} {set : List String} :
    x ∈ insert name set ↔ x = name ∨ x ∈ set := by
  induction set with
  | nil => simp [insert]
  | cons n rest ih =>
    simp only [insert]
    split
    · rename_i h
      subst h
      simp
    · split
      · simp
      · simp only [List.mem_cons, ih]
        constructor
        · rintro (h | h | h)
          · exact Or.inr (Or.inl h)
          · exact Or.inl h
          · exact Or.inr (Or.inr h)
        · rintro (h | h | h)
          · exact Or.inr (Or.inl h)
          · exact Or.inl h
          · exact Or.inr (Or.inr h)

theorem mem_ofList {x : String} {names : List String} : x ∈ ofList names ↔ x ∈ names := by
  suffices h : ∀ set, x ∈ names.foldl (fun set n => insert n set) set ↔ x ∈ set ∨ x ∈ names by
    simpa [ofList] using h []
  induction names with
  | nil => simp
  | cons n rest ih =>
    intro set
    simp only [List.foldl_cons, ih, mem_insert, List.mem_cons]
    constructor
    · rintro ((h | h) | h)
      · exact Or.inr (Or.inl h)
      · exact Or.inl h
      · exact Or.inr (Or.inr h)
    · rintro (h | h | h)
      · exact Or.inl (Or.inr h)
      · exact Or.inl (Or.inl h)
      · exact Or.inr h

/-- Names in strict order stay so when one is put in its place. -/
theorem pairwise_insert {name : String} {set : List String} (ordered : set.Pairwise (· < ·)) :
    (insert name set).Pairwise (· < ·) := by
  induction set with
  | nil => simp [insert]
  | cons n rest ih =>
    obtain ⟨first, others⟩ := List.pairwise_cons.1 ordered
    simp only [insert]
    split
    · exact ordered
    · rename_i ne
      split
      · rename_i lt
        refine List.pairwise_cons.2 ⟨fun a ha => ?_, ordered⟩
        rcases List.mem_cons.1 ha with rfl | ha
        · exact lt
        · exact String.lt_trans lt (first a ha)
      · rename_i notLt
        refine List.pairwise_cons.2 ⟨fun a ha => ?_, ih others⟩
        rcases mem_insert.1 ha with rfl | ha
        · exact Std.lt_of_le_of_ne (String.not_lt.1 notLt) (Ne.symm ne)
        · exact first a ha

/-- The set of a list is in strict order, so no name is in it twice. -/
theorem pairwise_ofList (names : List String) : (ofList names).Pairwise (· < ·) := by
  suffices h : ∀ set, List.Pairwise (· < ·) set →
      (names.foldl (fun set n => insert n set) set).Pairwise (· < ·) from h [] List.Pairwise.nil
  induction names with
  | nil => exact fun _ h => h
  | cons n rest ih => exact fun set h => ih _ (pairwise_insert h)

/-- Lists of the same names have one set. -/
theorem ofList_congr {xs ys : List String} (same : ∀ x, x ∈ xs ↔ x ∈ ys) : ofList xs = ofList ys := by
  have distinct (names : List String) : (ofList names).Nodup := by
    refine (pairwise_ofList names).imp fun {a b} lt eq => ?_
    subst eq
    exact String.lt_irrefl a lt
  have members : (ofList xs).Perm (ofList ys) := by
    refine (List.perm_ext_iff_of_nodup (distinct xs) (distinct ys)).2 fun x => ?_
    rw [mem_ofList, mem_ofList, same]
  refine members.eq_of_pairwise (fun a b _ _ lt gt => ?_) (pairwise_ofList xs) (pairwise_ofList ys)
  exact absurd (String.lt_trans lt gt) (String.lt_irrefl a)

end CommandGrammar.Names
