import CommandGrammar.Proofs.Token.Coverage

/-!
# Words between spaces

A line whose words need neither quotes nor backslashes, and have nothing but spaces between them, is
cut alike by the reader of words and at spaces: what the reader of words gathers character by
character is the pieces between the spaces, at the places where these stand.
-/

namespace CommandGrammar

namespace Tokenizer

/-- Words with spaces between them: no backslash, no other blanks, and no word that begins with a
quote, where quotes are known. -/
structure Parted (quotes : Bool) (cs : List Char) : Prop where
  unescaped : '\\' ∉ cs
  spaces : ∀ c ∈ cs, Text.isBlank c = true → c = ' '
  unquoted : quotes = true → ∀ p ∈ Text.pieces ' ' cs, ∀ c ∈ p.head?, isQuote c = false

variable {quotes : Bool} {pos : Nat} {piece rest cs : List Char}

namespace Parted

/-- A text between spaces that has no space itself is written as it is. -/
theorem spells (parted : Parted quotes piece) (free : ' ' ∉ piece) :
    Spells specialBare piece piece := by
  have ordinary : ∀ c ∈ piece, specialBare c = false := by
    intro c there
    have other : c ≠ '\\' := fun same => parted.unescaped (same ▸ there)
    have solid : Text.isBlank c = false := by
      rw [Bool.eq_false_iff]
      exact fun empty => free (parted.spaces c there empty ▸ there)
    simp [specialBare, solid, other]
  have spelled := spells_escaped specialBare piece
  rw [escaped_of_plain ordinary] at spelled
  exact spelled

theorem first {c : Char} (parted : Parted quotes (c :: piece)) (free : ' ' ∉ c :: piece) :
    (quotes && isQuote c) = false := by
  cases known : quotes with
  | false => rfl
  | true =>
      refine parted.unquoted known (c :: piece) ?_ c rfl
      rw [Text.pieces_of_free free]
      exact List.mem_singleton_self _

theorem piece_part (parted : Parted quotes (piece ++ ' ' :: rest)) (free : ' ' ∉ piece) :
    Parted quotes piece where
  unescaped there := parted.unescaped (List.mem_append_left _ there)
  spaces c there := parted.spaces c (List.mem_append_left _ there)
  unquoted known p there := by
    rw [Text.pieces_of_free free, List.mem_singleton] at there
    refine parted.unquoted known p ?_
    rw [there, Text.pieces_append free]
    exact List.mem_cons_self

theorem rest_part (parted : Parted quotes (piece ++ ' ' :: rest)) (free : ' ' ∉ piece) :
    Parted quotes rest where
  unescaped there := parted.unescaped (List.mem_append_right _ (List.mem_cons_of_mem _ there))
  spaces c there := parted.spaces c (List.mem_append_right _ (List.mem_cons_of_mem _ there))
  unquoted known p there := by
    refine parted.unquoted known p ?_
    rw [Text.pieces_append free]
    exact List.mem_cons_of_mem _ there

end Parted

/-! ## Pieces -/

theorem pieceTokens_cons {p : List Char} {ps : List (List Char)} (more : ps ≠ []) :
    pieceTokens pos (p :: ps) =
      (if p.isEmpty then [] else [⟨String.ofList p, pos, pos + p.length⟩]) ++
        pieceTokens (pos + p.length + 1) ps := by
  cases ps with
  | nil => exact absurd rfl more
  | cons q ps =>
      simp only [pieceTokens]
      split <;> rfl

/-- A line that ends in a space ends in an empty piece. -/
theorem pieceTokens_getLast? (pos : Nat) (ends : ∀ c ∈ cs.getLast?, c = ' ') :
    (pieceTokens pos (Text.pieces ' ' cs)).getLast? =
      some ⟨"", pos + cs.length, pos + cs.length⟩ := by
  induction cs using Text.pieces_induction ' ' generalizing pos with
  | whole piece free =>
      cases last : piece.getLast? with
      | none =>
          rw [List.getLast?_eq_none_iff] at last
          subst last
          rfl
      | some c =>
          rw [last] at ends
          exact absurd (ends c rfl ▸ List.mem_of_getLast? last) free
  | cut piece rest free ih =>
      have length : pos + piece.length + 1 + rest.length = pos + (piece ++ ' ' :: rest).length := by
        rw [List.length_append, List.length_cons]
        omega
      have later : ∀ c ∈ rest.getLast?, c = ' ' := by
        intro c there
        apply ends
        rw [List.getLast?_append_cons]
        cases rest with
        | nil => cases there
        | cons d rest => exact there
      rw [Text.pieces_append free, pieceTokens_cons (Text.pieces_ne_nil ' ' rest),
        List.getLast?_append, ih _ later, length]
      rfl

/-! ## Reading words -/

/-- A piece is read up to the end of the line as a bare word, or as none behind a space. -/
theorem scan_last_piece (parted : Parted quotes piece) (free : ' ' ∉ piece) :
    scan quotes (.between true) pos piece =
      if piece.isEmpty then ([], .settled true)
      else ([⟨String.ofList piece, pos, pos + piece.length⟩], .settled false) := by
  have spelled := parted.spells free
  cases piece with
  | nil => rfl
  | cons c piece =>
      have read : scan quotes (.between true) pos (c :: piece ++ []) = _ :=
        scan_startBare (parted.first free) spelled true
      rw [List.append_nil] at read
      rw [read]
      simp [scan, finish, word]

/-- A piece is read up to the space behind it. -/
theorem scan_piece (parted : Parted quotes piece) (free : ' ' ∉ piece) :
    scan quotes (.between true) pos (piece ++ ' ' :: rest) =
      ((if piece.isEmpty then [] else [⟨String.ofList piece, pos, pos + piece.length⟩]) ++
          (scan quotes (.between true) (pos + piece.length + 1) rest).1,
        (scan quotes (.between true) (pos + piece.length + 1) rest).2) := by
  have blank : Text.isBlank ' ' = true := rfl
  have spelled := parted.spells free
  cases piece with
  | nil =>
      have passed : step quotes pos ' ' (.between true) = (none, .between true) := rfl
      exact scan_cons_none passed
  | cons c piece =>
      have ended : ∀ n w,
          step quotes n ' ' (.bare pos w) = (some (word w pos n), .between true) := by
        intro n w
        simp [step, blank]
      rw [scan_startBare (parted.first free) spelled true, scan_cons_some (ended _ _)]
      simp [word]

/-- Behind a space, what the reader of words gathers is the pieces of what follows. -/
theorem scan_eq_pieceTokens (pos : Nat) (parted : Parted quotes cs) :
    (∃ blank, (scan quotes (.between true) pos cs).2 = .settled blank) ∧
      (scan quotes (.between true) pos cs).1 ++
        trailing (pos + cs.length) (scan quotes (.between true) pos cs).2 =
      pieceTokens pos (Text.pieces ' ' cs) := by
  induction cs using Text.pieces_induction ' ' generalizing pos with
  | whole piece free =>
      rw [scan_last_piece parted free, Text.pieces_of_free free]
      cases piece with
      | nil => exact ⟨⟨true, rfl⟩, rfl⟩
      | cons c piece => exact ⟨⟨false, rfl⟩, rfl⟩
  | cut piece rest free ih =>
      obtain ⟨settled, later⟩ := ih (pos + piece.length + 1) (parted.rest_part free)
      have length : pos + (piece ++ ' ' :: rest).length = pos + piece.length + 1 + rest.length := by
        rw [List.length_append, List.length_cons]
        omega
      rw [scan_piece (parted.piece_part free) free, Text.pieces_append free,
        pieceTokens_cons (Text.pieces_ne_nil ' ' rest), ← later, length]
      exact ⟨settled, List.append_assoc _ _ _⟩

/-! ## Lines -/

/-- A line that is not all spaces, of words with spaces between them, is cut into words and at
spaces alike, also while it is being typed. A space at its end stands for an empty word. -/
theorem words_eq_spaces {q : Quoting} {line : String} (lenient : Bool)
    (visible : ∃ c ∈ line.toList, c ≠ ' ') (parted : Parted q.quotes line.toList)
    (untrimmed : q.trim = false) :
    ∃ ts, tokenize .spaces lenient line = .ok ts ∧ tokenize (.words q) lenient line = .ok ts ∧
      (line.toList.getLast? = some ' ' → ts.getLast? = some ⟨"", line.length, line.length⟩) := by
  have some_other : line.toList.all (· == ' ') = false := by
    obtain ⟨c, there, other⟩ := visible
    rw [List.all_eq_false]
    exact ⟨c, there, by simpa using other⟩
  have cut : spaced line = pieceTokens 0 (Text.pieces ' ' line.toList) := by
    rw [spaced, some_other]
    rfl
  have begins : scan q.quotes (.between false) 0 line.toList =
      scan q.quotes (.between true) 0 line.toList := by
    obtain ⟨c, there, -⟩ := visible
    obtain ⟨d, cs, characters⟩ := List.exists_cons_of_ne_nil (List.ne_nil_of_mem there)
    rw [characters]
    exact scan_between_cons false true
  obtain ⟨settled, same⟩ := scan_eq_pieceTokens 0 parted
  rw [Nat.zero_add, String.length_toList, ← begins, ← cut] at same
  rw [← begins] at settled
  refine ⟨spaced line, rfl, ?_, fun ends => ?_⟩
  · apply words?_eq_ok_iff.mpr
    rw [untrimmed, if_neg Bool.false_ne_true]
    exact ⟨.inl settled, same⟩
  · rw [cut, pieceTokens_getLast? 0 (by simp [ends]), Nat.zero_add, String.length_toList]

/-- A word with a quote inside and another one, with spaces around them. -/
theorem words_eq_spaces_quote :
    (∃ c ∈ "  it's é ".toList, c ≠ ' ') ∧ Parted true "  it's é ".toList ∧
      tokenize (.words {}) false "  it's é " =
        .ok [⟨"it's", 2, 6⟩, ⟨"é", 7, 8⟩, ⟨"", 9, 9⟩] := by
  have characters : "  it's é ".toList = [' ', ' ', 'i', 't', '\'', 's', ' ', 'é', ' '] := rfl
  have visible : ∃ c ∈ "  it's é ".toList, c ≠ ' ' := ⟨'i', by decide, by decide⟩
  have parted : Parted true "  it's é ".toList := by
    rw [characters]
    refine ⟨by decide, ?_, ?_⟩
    · simp [Text.isBlank]
    · simp [Text.pieces, isQuote]
  have untrimmed : ({} : Quoting).trim = false := rfl
  obtain ⟨ts, cut, read, -⟩ := words_eq_spaces false visible parted untrimmed
  refine ⟨visible, parted, ?_⟩
  cases cut
  exact read

end Tokenizer

end CommandGrammar
