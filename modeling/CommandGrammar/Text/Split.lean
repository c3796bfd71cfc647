/-!
# Cutting text

Cutting text at a character, with the cut-out pieces in order and the separator dropped.
-/

namespace CommandGrammar.Text

/-- The parts before and after the first occurrence of a character. -/
def splitOnce (sep : Char) : List Char → Option (List Char × List Char)
  | [] => none
  | c :: rest =>
    if c = sep then some ([], rest)
    else (splitOnce sep rest).map fun (left, right) => (c :: left, right)

/-- The pieces between the occurrences of a character; a text without it is one piece. -/
def pieces (sep : Char) : List Char → List (List Char)
  | [] => [[]]
  | c :: rest =>
    if c = sep then [] :: pieces sep rest
    else
      match pieces sep rest with
      | [] => [[c]]
      | p :: ps => (c :: p) :: ps

/-- The lines of a text: cut at line feeds, a carriage return before one is dropped with it, and
an empty last piece is no line. -/
def lines (s : String) : List String :=
  let cut := pieces '\n' s.toList
  let ended := cut.dropLast.map fun p => if p.getLast? = some '\r' then p.dropLast else p
  let rest := match cut.getLast? with
    | some (c :: cs) => [c :: cs]
    | _ => []
  (ended ++ rest).map String.ofList

theorem pieces_ne_nil (sep : Char) (cs : List Char) : pieces sep cs ≠ [] := by
  cases cs with
  | nil => simp [pieces]
  | cons c rest =>
    simp only [pieces]
    split
    · simp
    · split <;> simp

theorem pieces_of_free {sep : Char} {cs : List Char} (free : sep ∉ cs) : pieces sep cs = [cs] := by
  induction cs with
  | nil => rfl
  | cons c rest ih =>
    have other : c ≠ sep := fun same => free (same ▸ List.mem_cons_self)
    rw [pieces, if_neg other, ih fun there => free (List.mem_cons_of_mem c there)]

/-- The first piece stands before the first separator. -/
theorem pieces_append {sep : Char} {piece rest : List Char} (free : sep ∉ piece) :
    pieces sep (piece ++ sep :: rest) = piece :: pieces sep rest := by
  induction piece with
  | nil => rw [List.nil_append, pieces, if_pos rfl]
  | cons c piece ih =>
    have other : c ≠ sep := fun same => free (same ▸ List.mem_cons_self)
    rw [List.cons_append, pieces, if_neg other, ih fun there => free (List.mem_cons_of_mem c there)]

/-- Without the separator nothing is cut. -/
theorem splitOnce_eq_none_iff {sep : Char} {cs : List Char} :
    splitOnce sep cs = none ↔ sep ∉ cs := by
  induction cs with
  | nil => simp [splitOnce]
  | cons c rest ih =>
    by_cases h : c = sep
    · simp [splitOnce, h]
    · simp [splitOnce, h, ih, Ne.symm h]

/-- The two parts around the separator make up the text, and the first is free of it. -/
theorem splitOnce_eq_some_iff {sep : Char} {cs left right : List Char} :
    splitOnce sep cs = some (left, right) ↔ cs = left ++ sep :: right ∧ sep ∉ left := by
  induction cs generalizing left with
  | nil => simp [splitOnce]
  | cons c rest ih =>
    by_cases h : c = sep
    · subst h
      constructor
      · intro e
        simp only [splitOnce, if_true, Option.some.injEq, Prod.mk.injEq] at e
        obtain ⟨rfl, rfl⟩ := e
        simp
      · rintro ⟨e, free⟩
        cases left with
        | nil => simp_all [splitOnce]
        | cons d left => simp_all
    · constructor
      · intro e
        simp only [splitOnce, h, if_false, Option.map_eq_some_iff] at e
        obtain ⟨⟨l, r⟩, e, e'⟩ := e
        simp only [Prod.mk.injEq] at e'
        obtain ⟨rfl, rfl⟩ := e'
        obtain ⟨rfl, free⟩ := ih.1 e
        exact ⟨rfl, by simp [free, Ne.symm h]⟩
      · rintro ⟨e, free⟩
        cases left with
        | nil => simp_all
        | cons d left =>
          simp only [List.cons_append, List.cons.injEq] at e
          obtain ⟨rfl, e⟩ := e
          have free' : sep ∉ left := fun m => free (List.mem_cons_of_mem _ m)
          simp [splitOnce, h, ih.2 ⟨e, free'⟩]

/-- What holds of a piece, and of a text behind a piece and a separator if it holds of that text,
holds of every text. -/
theorem pieces_induction (sep : Char) {motive : List Char → Prop}
    (whole : ∀ piece, sep ∉ piece → motive piece)
    (cut : ∀ piece rest, sep ∉ piece → motive rest → motive (piece ++ sep :: rest))
    (cs : List Char) : motive cs := by
  induction length : cs.length using Nat.strongRecOn generalizing cs with
  | ind n ih =>
    cases parts : splitOnce sep cs with
    | none => exact whole cs (splitOnce_eq_none_iff.mp parts)
    | some both =>
      obtain ⟨rfl, free⟩ := splitOnce_eq_some_iff.mp parts
      refine cut both.1 both.2 free (ih both.2.length ?_ both.2 rfl)
      rw [← length, List.length_append, List.length_cons]
      omega

end CommandGrammar.Text
