import CommandGrammar.Proofs.Token.Agreement
import CommandGrammar.Proofs.Token.Lead

/-!
# Lines from a token on

What follows the start of a token in a line is a line of its own, and it is cut into that token and
the ones behind it, which stand so many characters further on in the whole line.
-/

namespace CommandGrammar

namespace Tokenizer

variable {quotes : Bool} {pos k : Nat} {c : Char} {cs : List Char} {place : Place}
  {before after ts : List Token} {tok : Token}

/-! ## Words -/

/-- From a later place on, a token is read with all that follows it as from the start of a line. -/
def ReadAhead (quotes : Bool) (tok : Token) (after : List Token) (ending : Ending) (pos : Nat)
    (cs : List Char) : Prop :=
  ∃ k, tok.start = pos + k ∧
    scan quotes (.between false) tok.start (cs.drop k) = (tok :: after, ending)

theorem ReadAhead.cons {ending : Ending} (c : Char)
    (ahead : ReadAhead quotes tok after ending (pos + 1) cs) :
    ReadAhead quotes tok after ending pos (c :: cs) := by
  obtain ⟨k, start, read⟩ := ahead
  refine ⟨k + 1, by omega, ?_⟩
  rw [List.drop_succ_cons]
  exact read

/-- Behind whole tokens a line is read from the start of the next one as from its own start. -/
theorem scan_from (read : (scan quotes place pos cs).1 = before ++ tok :: after)
    (between : before = [] → ∃ blank, place = .between blank) :
    ReadAhead quotes tok after (scan quotes place pos cs).2 pos cs := by
  induction cs generalizing place pos before with
  | nil =>
      exfalso
      cases before with
      | nil =>
          obtain ⟨blank, rfl⟩ := between rfl
          cases read
      | cons t before =>
          have one : (scan quotes place pos []).1.length ≤ 1 := by
            cases place <;> simp [scan, finish]
          rw [read] at one
          simp at one
  | cons c cs ih =>
      by_cases inside : ∀ blank, place ≠ .between blank
      · rcases step_inWord quotes pos c inside with ⟨t, blank, ended, -⟩ | ⟨next, kept, -, -⟩
        · rw [scan_cons_some ended] at read ⊢
          cases before with
          | nil =>
              obtain ⟨blank, same⟩ := between rfl
              exact absurd same (inside blank)
          | cons u before => exact (ih (List.cons.inj read).2 fun _ => ⟨blank, rfl⟩).cons c
        · rw [scan_cons_none kept] at read ⊢
          refine (ih read fun none => ?_).cons c
          obtain ⟨blank, same⟩ := between none
          exact absurd same (inside blank)
      · simp only [not_forall, not_not] at inside
        obtain ⟨blank, rfl⟩ := inside
        rcases step_between quotes pos c blank with passed | started
        · rw [scan_cons_none passed] at read ⊢
          exact (ih read fun _ => ⟨true, rfl⟩).cons c
        · cases before with
          | nil =>
              have start : tok.start = pos := by
                obtain ⟨t, ts, first, start⟩ :=
                  scan_inWord quotes (pos + 1) cs (startWord_ne quotes pos c)
                rw [scan_cons_none started, first] at read
                cases read
                rw [start, origin_startWord]
              refine ⟨0, start, ?_⟩
              rw [start, List.drop_zero, scan_between_cons false blank]
              exact Prod.ext read rfl
          | cons t before =>
              rw [scan_cons_none started] at read ⊢
              exact (ih read (by simp)).cons c

theorem trailing_shift (length : Nat) (ending : Ending) :
    (trailing length ending).map (·.shift k) = trailing (length + k) ending := by
  unfold trailing
  split <;> rfl

theorem words?_drop {q : Quoting} {lenient : Bool} {line : String}
    (read : words? q lenient line = .ok (before ++ tok :: after))
    (more : line.toList.drop tok.start ≠ []) :
    ∃ us, words? q lenient (String.ofList (line.toList.drop tok.start)) = .ok us ∧
      us.map (·.shift tok.start) = tok :: after := by
  obtain ⟨accepted, read⟩ := words?_eq_ok_iff.mp read
  generalize ends : (if q.trim = true then [] else
    trailing line.length (scan q.quotes (.between false) 0 line.toList).2) = last at read
  -- The empty word at the end has nothing behind its start.
  have other : tok ∉ last := by
    intro there
    rw [← ends, trailing] at there
    split at there
    · cases there
    · split at there
      · rw [List.mem_singleton.mp there] at more
        exact more (List.drop_eq_nil_of_le (Nat.le_of_eq line.length_toList))
      · cases there
  obtain ⟨later, scanned, rfl⟩ : ∃ later,
      (scan q.quotes (.between false) 0 line.toList).1 = before ++ tok :: later ∧
        after = later ++ last := by
    rcases List.append_eq_append_iff.mp read with ⟨front, -, split⟩ | ⟨back, split, rest⟩
    · exact absurd (split ▸ List.mem_append_right front List.mem_cons_self) other
    · cases back with
      | nil =>
          rw [List.nil_append] at rest
          exact absurd (rest ▸ List.mem_cons_self) other
      | cons t back =>
          rw [List.cons_append] at rest
          obtain ⟨rfl, same⟩ := List.cons.inj rest
          exact ⟨back, split, same⟩
  obtain ⟨k, start, again⟩ := scan_from scanned fun _ => ⟨false, rfl⟩
  rw [Nat.zero_add] at start
  subst start
  have shifted : scan q.quotes ((Place.between false).shift tok.start) (0 + tok.start)
      (line.toList.drop tok.start) = _ := scan_shift
  rw [Nat.zero_add] at shifted
  obtain ⟨same, ending⟩ := Prod.mk.inj (shifted.symm.trans again)
  have length : (String.ofList (line.toList.drop tok.start)).length + tok.start = line.length := by
    rw [ne_eq, List.drop_eq_nil_iff, String.length_toList] at more
    rw [String.length_ofList, List.length_drop, String.length_toList]
    omega
  refine ⟨_, words?_eq_ok_iff.mpr ⟨?_, rfl⟩, ?_⟩
  · rw [String.toList_ofList, ending]
    exact accepted
  · rw [String.toList_ofList, ending, List.map_append, same, ← ends, List.cons_append]
    congr 2
    split
    · rfl
    · rw [trailing_shift, length]

/-! ## Pieces -/

theorem pieceTokens_shift (pos k : Nat) (ps : List (List Char)) :
    pieceTokens (pos + k) ps = (pieceTokens pos ps).map (·.shift k) := by
  induction ps generalizing pos with
  | nil => rfl
  | cons p ps ih =>
      have stop : pos + k + p.length = pos + p.length + k := by omega
      by_cases last : ps = []
      · subst last
        simp [pieceTokens, Token.shift, stop]
      · have ahead : pos + k + p.length + 1 = pos + p.length + 1 + k := by omega
        rw [pieceTokens_cons last, pieceTokens_cons last, ahead, ih, List.map_append, stop]
        split <;> rfl

/-- From a later place on, which is not a space, a token is cut off with all that follows it as from
the start of a line. -/
def CutAhead (tok : Token) (after : List Token) (pos : Nat) (cs : List Char) : Prop :=
  ∃ k, tok.start = pos + k ∧ (∀ c ∈ (cs.drop k).head?, c ≠ ' ') ∧
    pieceTokens tok.start (Text.pieces ' ' (cs.drop k)) = tok :: after

theorem CutAhead.append {rest : List Char} (piece : List Char)
    (ahead : CutAhead tok after (pos + piece.length + 1) rest) :
    CutAhead tok after pos (piece ++ ' ' :: rest) := by
  obtain ⟨k, start, visible, cut⟩ := ahead
  have behind : (piece ++ ' ' :: rest).drop (piece.length + (k + 1)) = rest.drop k := by
    rw [List.drop_length_add_append, List.drop_succ_cons]
  refine ⟨piece.length + (k + 1), by omega, ?_⟩
  rw [behind]
  exact ⟨visible, cut⟩

/-- Behind whole tokens a line is cut from the start of the next one as from its own start. -/
theorem pieceTokens_from
    (cut : pieceTokens pos (Text.pieces ' ' cs) = before ++ tok :: after) :
    CutAhead tok after pos cs := by
  induction cs using Text.pieces_induction ' ' generalizing pos before with
  | whole piece free =>
      have visible : ∀ c ∈ piece.head?, c ≠ ' ' := fun c there same =>
        free (same ▸ List.mem_of_mem_head? there)
      have whole := cut
      rw [Text.pieces_of_free free, pieceTokens] at cut
      cases before with
      | cons t before => simp at cut
      | nil =>
          cases cut
          exact ⟨0, rfl, visible, whole⟩
  | cut piece rest free ih =>
      have whole := cut
      rw [Text.pieces_append free, pieceTokens_cons (Text.pieces_ne_nil ' ' rest)] at cut
      cases piece with
      | nil => exact (ih cut).append []
      | cons c piece =>
          cases before with
          | cons t before => exact (ih (List.cons.inj cut).2).append (c :: piece)
          | nil =>
              have start : tok.start = pos := by
                rw [← (List.cons.inj cut).1]
              have visible : ∀ d ∈ (c :: piece ++ ' ' :: rest).head?, d ≠ ' ' := by
                intro d there same
                cases there
                exact free (same ▸ List.mem_cons_self)
              refine ⟨0, start, visible, ?_⟩
              rw [start]
              exact whole

theorem spaced_drop {line : String} (cut : spaced line = before ++ tok :: after)
    (more : line.toList.drop tok.start ≠ []) :
    (spaced (String.ofList (line.toList.drop tok.start))).map (·.shift tok.start) =
      tok :: after := by
  have pieces : pieceTokens 0 (Text.pieces ' ' line.toList) = before ++ tok :: after := by
    unfold spaced at cut
    split at cut
    · simp at cut
    · exact cut
  obtain ⟨k, start, visible, same⟩ := pieceTokens_from pieces
  rw [Nat.zero_add] at start
  subst start
  have other : (line.toList.drop tok.start).all (· == ' ') = false := by
    obtain ⟨c, later, there⟩ := List.exists_cons_of_ne_nil more
    rw [there] at visible
    rw [there, List.all_cons, beq_eq_false_iff_ne.mpr (visible c rfl), Bool.false_and]
  rw [spaced, String.toList_ofList, other, if_neg Bool.false_ne_true, ← pieceTokens_shift,
    Nat.zero_add]
  exact same

/-! ## Lines -/

/-- What follows the start of a token is cut into that token and the ones behind it. -/
theorem tokenize_drop {t : Tokenizer} {lenient : Bool} {line : String}
    (read : t.tokenize lenient line = .ok (before ++ tok :: after))
    (more : line.toList.drop tok.start ≠ []) :
    ∃ us, t.tokenize lenient (String.ofList (line.toList.drop tok.start)) = .ok us ∧
      us.map (·.shift tok.start) = tok :: after := by
  cases t with
  | words q => exact words?_drop read more
  | spaces => exact ⟨_, rfl, spaced_drop (Except.ok.inj read) more⟩
  | whole =>
      cases before with
      | cons t before => simp [tokenize] at read
      | nil =>
          cases read
          exact ⟨_, rfl, by simp [Token.shift]⟩

end Tokenizer

end CommandGrammar
