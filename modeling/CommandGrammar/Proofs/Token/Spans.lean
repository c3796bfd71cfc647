import CommandGrammar.Proofs.Token.Scan

/-!
# Where tokens stand

The tokens of a line stand in it one behind the other, however it is cut.
-/

namespace CommandGrammar

/-- Tokens that stand one behind the other between two places. -/
structure Token.Placed (low high : Nat) (ts : List Token) : Prop where
  inside : ∀ t ∈ ts, low ≤ t.start ∧ t.start ≤ t.stop ∧ t.stop ≤ high
  apart : ts.Pairwise fun t u => t.stop ≤ u.start

namespace Token.Placed

variable {low high : Nat} {t : Token} {ts us : List Token}

theorem nil : Token.Placed low high [] :=
  ⟨fun _ none => (nomatch none), .nil⟩

theorem cons (start : low ≤ t.start) (stop : t.start ≤ t.stop) (bound : t.stop ≤ high)
    (rest : Token.Placed t.stop high ts) : Token.Placed low high (t :: ts) := by
  refine ⟨fun u there => ?_, .cons (fun u there => (rest.inside u there).1) rest.apart⟩
  rcases List.mem_cons.mp there with rfl | there
  · exact ⟨start, stop, bound⟩
  · have inside := rest.inside u there
    omega

theorem weaken (h : Token.Placed low high ts) {lower higher : Nat} (below : lower ≤ low)
    (above : high ≤ higher) : Token.Placed lower higher ts := by
  refine ⟨fun t there => ?_, h.apart⟩
  have inside := h.inside t there
  omega

theorem sublist (h : Token.Placed low high ts) (part : us.Sublist ts) : Token.Placed low high us :=
  ⟨fun t there => h.inside t (part.subset there), h.apart.sublist part⟩

theorem append (h : Token.Placed low high ts) (h' : Token.Placed low high us)
    (between : ∀ t ∈ ts, ∀ u ∈ us, t.stop ≤ u.start) : Token.Placed low high (ts ++ us) := by
  refine ⟨fun t there => ?_, List.pairwise_append.mpr ⟨h.apart, h'.apart, between⟩⟩
  rcases List.mem_append.mp there with there | there
  · exact h.inside t there
  · exact h'.inside t there

end Token.Placed

namespace Tokenizer

open Token

/-! ## Words -/

/-- Where the next token starts at the earliest. -/
def Place.origin (pos : Nat) : Place → Nat
  | .between _ => pos
  | .bare start _ | .bareEscape start _ | .quoted _ start _ | .quotedEscape _ start _ => start

variable {quotes : Bool} {pos : Nat} {c : Char} {cs : List Char} {place : Place}

theorem origin_startWord (quotes : Bool) (pos : Nat) (c : Char) :
    (startWord quotes pos c).origin (pos + 1) = pos := by
  unfold startWord
  split
  · rfl
  · split <;> rfl

theorem startWord_ne (quotes : Bool) (pos : Nat) (c : Char) (blank : Bool) :
    startWord quotes pos c ≠ .between blank := by
  unfold startWord
  split
  · simp
  · split <;> simp

/-- A character read between words begins a word or leaves the reader there. -/
theorem step_between (quotes : Bool) (pos : Nat) (c : Char) (blank : Bool) :
    step quotes pos c (.between blank) = (none, .between true) ∨
      step quotes pos c (.between blank) = (none, startWord quotes pos c) := by
  simp only [step]
  split
  · exact .inl rfl
  · exact .inr rfl

/-- A character read in a word ends it or leaves the reader in it. -/
theorem step_inWord (quotes : Bool) (pos : Nat) (c : Char)
    (inside : ∀ blank, place ≠ .between blank) :
    (∃ t blank, step quotes pos c place = (some t, .between blank) ∧ t.start = place.origin pos) ∨
      ∃ next, step quotes pos c place = (none, next) ∧ (∀ blank, next ≠ .between blank) ∧
        next.origin (pos + 1) = place.origin pos := by
  cases place with
  | between blank => exact absurd rfl (inside blank)
  | bare start w =>
      simp only [step]
      split
      · exact .inl ⟨_, _, rfl, rfl⟩
      · split <;> exact .inr ⟨_, rfl, by simp, rfl⟩
  | bareEscape start w | quotedEscape quote start w => exact .inr ⟨_, rfl, by simp, rfl⟩
  | quoted quote start w =>
      simp only [step]
      split
      · exact .inl ⟨_, _, rfl, rfl⟩
      · split <;> exact .inr ⟨_, rfl, by simp, rfl⟩

/-- A character leads from one origin to a later one, and a word it ends stands between the two. -/
theorem step_origin (quotes : Bool) (c : Char) (valid : place.origin pos ≤ pos) :
    place.origin pos ≤ (step quotes pos c place).2.origin (pos + 1) ∧
      (step quotes pos c place).2.origin (pos + 1) ≤ pos + 1 ∧
      ∀ t ∈ (step quotes pos c place).1,
        place.origin pos ≤ t.start ∧ t.start ≤ t.stop ∧
          t.stop ≤ (step quotes pos c place).2.origin (pos + 1) := by
  cases place with
  | between blank =>
      simp only [step, startWord]
      split
      · simp [Place.origin]
      · split
        · simp [Place.origin]
        · split <;> simp [Place.origin]
  | bare start w =>
      simp only [Place.origin] at valid
      simp only [step]
      split
      · simp [Place.origin, word]
        omega
      · split
        · simp [Place.origin]
          omega
        · simp [Place.origin]
          omega
  | bareEscape start w | quotedEscape quote start w =>
      simp only [Place.origin] at valid
      simp [step, Place.origin]
      omega
  | quoted quote start w =>
      simp only [Place.origin] at valid
      simp only [step]
      split
      · simp [Place.origin, word]
        omega
      · split
        · simp [Place.origin]
          omega
        · simp [Place.origin]
          omega

theorem finish_origin (valid : place.origin pos ≤ pos) :
    ∀ t ∈ (finish pos place).1, place.origin pos ≤ t.start ∧ t.start ≤ t.stop ∧ t.stop ≤ pos := by
  cases place with
  | between blank => simp [finish]
  | bare _ _ | bareEscape _ _ | quoted _ _ _ | quotedEscape _ _ _ =>
      simp only [Place.origin] at valid
      simp [finish, word, Place.origin, valid]

theorem placed_scan (valid : place.origin pos ≤ pos) :
    Placed (place.origin pos) (pos + cs.length) (scan quotes place pos cs).1 := by
  induction cs generalizing place pos with
  | nil =>
      have last := finish_origin valid
      simp only [scan]
      cases token : (finish pos place).1 with
      | none => exact .nil
      | some t =>
          obtain ⟨start, stop, bound⟩ := last t (by simp [token])
          exact .cons start stop bound .nil
  | cons c cs ih =>
      obtain ⟨onward, valid', ended⟩ := step_origin quotes c valid
      have length : pos + 1 + cs.length = pos + (c :: cs).length := by
        rw [List.length_cons]
        omega
      have rest := ih valid'
      rw [length] at rest
      simp only [scan]
      cases token : (step quotes pos c place).1 with
      | none => exact rest.weaken onward (Nat.le_refl _)
      | some t =>
          obtain ⟨start, stop, before⟩ := ended t (by simp [token])
          have bound : t.stop ≤ pos + (c :: cs).length := by omega
          exact .cons start stop bound (rest.weaken before (Nat.le_refl _))

/-! ## Pieces between spaces -/

/-- How much of a line some pieces and the separators between them take. -/
def width : List (List Char) → Nat
  | [] => 0
  | [p] => p.length
  | p :: rest => p.length + 1 + width rest

theorem width_cons {p : List Char} {ps : List (List Char)} (more : ps ≠ []) :
    width (p :: ps) = p.length + 1 + width ps := by
  cases ps with
  | nil => exact absurd rfl more
  | cons q ps => rfl

theorem width_pieces (sep : Char) (cs : List Char) : width (Text.pieces sep cs) = cs.length := by
  induction cs with
  | nil => rfl
  | cons c cs ih =>
      simp only [Text.pieces]
      split
      · rw [width_cons (Text.pieces_ne_nil sep cs), ih, List.length_nil, List.length_cons]
        omega
      · cases cut : Text.pieces sep cs with
        | nil => exact absurd cut (Text.pieces_ne_nil sep cs)
        | cons p ps =>
            rw [cut] at ih
            cases ps with
            | nil =>
                simp only [width] at ih ⊢
                simp [ih]
            | cons q ps =>
                simp only [width] at ih ⊢
                simp only [List.length_cons]
                omega

theorem placed_pieceTokens (pos : Nat) (ps : List (List Char)) :
    Placed pos (pos + width ps) (pieceTokens pos ps) := by
  induction ps generalizing pos with
  | nil => exact .nil
  | cons p ps ih =>
      cases ps with
      | nil =>
          refine .cons (Nat.le_refl pos) (Nat.le_add_right pos p.length) ?_ .nil
          simp [width]
      | cons q ps =>
          have later := ih (pos + p.length + 1)
          have total : pos + p.length + 1 + width (q :: ps) = pos + width (p :: q :: ps) := by
            rw [width_cons (List.cons_ne_nil q ps)]
            omega
          rw [total] at later
          simp only [pieceTokens]
          split
          · exact later.weaken (by omega) (Nat.le_refl _)
          · refine .cons (Nat.le_refl pos) (Nat.le_add_right pos p.length) ?_
              (later.weaken (Nat.le_succ _) (Nat.le_refl _))
            dsimp only
            omega

/-! ## Lines -/

theorem placed_words {q : Quoting} {lenient : Bool} {line : String} {ts : List Token}
    (read : words? q lenient line = .ok ts) : Placed 0 line.length ts := by
  have scanned : Placed 0 line.length (scan q.quotes (.between false) 0 line.toList).1 := by
    have begun : (Place.between false).origin 0 ≤ 0 := Nat.le_refl 0
    have placed : Placed ((Place.between false).origin 0) (0 + line.toList.length)
        (scan q.quotes (.between false) 0 line.toList).1 := placed_scan begun
    rw [Nat.zero_add, String.length_toList] at placed
    exact placed
  unfold words? at read
  cases cut : scan q.quotes (.between false) 0 line.toList with
  | mk tokens ending =>
      rw [cut] at read scanned
      cases ending with
      | settled blank =>
          simp only [Except.ok.injEq] at read
          subst read
          split
          · refine scanned.append (.cons (Nat.zero_le _) (Nat.le_refl _) (Nat.le_refl _) .nil) ?_
            intro t there u last
            rw [List.mem_singleton.mp last]
            exact (scanned.inside t there).2.2
          · exact scanned
      | openQuote | dangling =>
          simp only at read
          split at read
          · cases read
            exact scanned
          · cases read

theorem placed_spaced (line : String) : Placed 0 line.length (spaced line) := by
  unfold spaced
  split
  · exact .nil
  · have placed := placed_pieceTokens 0 (Text.pieces ' ' line.toList)
    rw [width_pieces, Nat.zero_add, String.length_toList] at placed
    exact placed

/-- The tokens of a line stand in it, one behind the other. -/
theorem placed_tokenize {t : Tokenizer} {lenient : Bool} {line : String} {ts : List Token}
    (read : t.tokenize lenient line = .ok ts) : Placed 0 line.length ts := by
  cases t with
  | words q => exact placed_words read
  | spaces =>
      cases read
      exact placed_spaced line
  | whole =>
      cases read
      exact .cons (Nat.le_refl 0) (Nat.zero_le _) (Nat.le_refl _) .nil

/-- A line that cannot be cut is refused at its last character. -/
theorem tokenize_error {t : Tokenizer} {lenient : Bool} {line : String} {e : ParseError}
    (refused : t.tokenize lenient line = .error e) :
    e.input = line ∧ e.position = line.length - 1 := by
  cases t with
  | words q =>
      simp only [tokenize, words?] at refused
      cases cut : scan q.quotes (.between false) 0 line.toList with
      | mk tokens ending =>
          rw [cut] at refused
          cases ending with
          | settled blank => cases refused
          | openQuote | dangling =>
              simp only at refused
              split at refused
              · cases refused
              · cases refused
                exact ⟨rfl, rfl⟩
  | spaces | whole => cases refused

end Tokenizer

end CommandGrammar
