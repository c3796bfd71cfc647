import CommandGrammar.Proofs.Token.Quoting
import Mathlib.Data.List.Induction

/-!
# Unfinished lines

A line is unfinished when it ends inside an open quote or after a backslash that is not escaped
itself. Both are said of the line alone: what stands before an open quote is blanks, quoted words and
bare words, and a backslash at the end is unescaped exactly when it ends an odd number of them. The
strict reader refuses such a line, at its last character, unless its options are lenient by
themselves; on every other line it reads what the lenient reader reads.
-/

namespace CommandGrammar

namespace Tokenizer

/-! ## Lines that end inside a quote or after a backslash -/

/-- Blanks, whole quoted words, and bare words with a blank behind them. -/
inductive Settled (quotes : Bool) : List Char → Prop where
  | nil : Settled quotes []
  | blank {c : Char} {rest : List Char} : Text.isBlank c = true → Settled quotes rest →
      Settled quotes (c :: rest)
  | quoted {quote : Char} {inside text rest : List Char} : quotes = true → isQuote quote = true →
      Spells (specialIn quote) inside text → Settled quotes rest →
      Settled quotes (quote :: inside ++ quote :: rest)
  | bare {c d : Char} {cs text rest : List Char} : (quotes && isQuote c) = false →
      Spells specialBare (c :: cs) text → Text.isBlank d = true → Settled quotes rest →
      Settled quotes (c :: cs ++ d :: rest)

/-- Behind whole words the line opens a quote and does not close it. -/
def OpensQuote (quotes : Bool) (line : List Char) : Prop :=
  ∃ lead quote inside text, line = lead ++ quote :: inside ∧ Settled quotes lead ∧ quotes = true ∧
    isQuote quote = true ∧ Spells (specialIn quote) inside text

/-- The number of backslashes at the end of a line. -/
def backslashes (line : List Char) : Nat :=
  (line.reverse.takeWhile (· == '\\')).length

def Unfinished (quotes : Bool) (line : List Char) : Prop :=
  OpensQuote quotes line ∨ backslashes line % 2 = 1

variable {quotes : Bool} {pos : Nat} {c quote : Char} {cs rest line : List Char} {place : Place}

/-! ## The last backslash -/

theorem backslashes_append (line : List Char) (c : Char) :
    backslashes (line ++ [c]) = if c = '\\' then backslashes line + 1 else 0 := by
  by_cases same : c = '\\'
  · simp [backslashes, same]
  · simp [backslashes, same]

/-- Whether a character is a backslash that escapes the next one. -/
def escapes (before : Bool) (c : Char) : Bool :=
  !before && c == '\\'

theorem foldl_escapes (line : List Char) :
    line.foldl escapes false = true ↔ backslashes line % 2 = 1 := by
  -- Backslashes are counted from the end of the line, so the induction takes its last character off.
  induction line using List.reverseRecOn with
  | nil => decide
  | append_singleton line c ih =>
      rw [List.foldl_append, List.foldl_cons, List.foldl_nil, backslashes_append]
      by_cases same : c = '\\'
      · have flips : escapes (line.foldl escapes false) c = !line.foldl escapes false := by
          simp [escapes, same]
        rw [if_pos same, flips, Bool.not_eq_true', ← Bool.not_eq_true, ih]
        omega
      · simp [escapes, same]

namespace Place

/-- Whether the next character is taken as it is. -/
def inEscape : Place → Bool
  | .bareEscape _ _ | .quotedEscape _ _ _ => true
  | .between _ | .bare _ _ | .quoted _ _ _ => false

/-- A quoted word stands only where quotes are known, behind one of them. -/
def Proper (quotes : Bool) : Place → Prop
  | .quoted quote _ _ | .quotedEscape quote _ _ => quotes = true ∧ isQuote quote = true
  | .between _ | .bare _ _ | .bareEscape _ _ => True

end Place

theorem step_proper (proper : place.Proper quotes) : (step quotes pos c place).2.Proper quotes := by
  cases place with
  | between blank =>
      simp only [step, startWord]
      split
      · trivial
      · split
        · rename_i opened
          rw [Bool.and_eq_true] at opened
          exact opened
        · split <;> trivial
  | bare start w =>
      simp only [step]
      split
      · trivial
      · split <;> trivial
  | bareEscape start w => trivial
  | quoted quote start w =>
      simp only [step]
      split
      · trivial
      · split <;> exact proper
  | quotedEscape quote start w => exact proper

theorem step_inEscape (proper : place.Proper quotes) :
    (step quotes pos c place).2.inEscape = escapes place.inEscape c := by
  have solid : Text.isBlank '\\' = false := rfl
  cases place with
  | between blank =>
      by_cases same : c = '\\'
      · subst same
        simp [step, startWord, solid, Place.inEscape, escapes]
      · simp only [step, startWord, if_neg same]
        split
        · simp [Place.inEscape, escapes, same]
        · split <;> simp [Place.inEscape, escapes, same]
  | bare start w =>
      by_cases same : c = '\\'
      · subst same
        simp [step, solid, Place.inEscape, escapes]
      · simp only [step, if_neg same]
        split <;> simp [Place.inEscape, escapes, same]
  | bareEscape start w | quotedEscape quote start w => rfl
  | quoted quote start w =>
      have other := (isQuote_ne proper.2).1
      by_cases same : c = '\\'
      · subst same
        simp [step, other.symm, Place.inEscape, escapes]
      · simp only [step, if_neg same]
        split <;> simp [Place.inEscape, escapes, same]

theorem finish_dangling : (finish pos place).2 = .dangling ↔ place.inEscape = true := by
  cases place <;> simp [finish, Place.inEscape]

theorem scan_snd_cons :
    (scan quotes place pos (c :: cs)).2 =
      (scan quotes (step quotes pos c place).2 (pos + 1) cs).2 := rfl

theorem scan_dangling (proper : place.Proper quotes) :
    (scan quotes place pos cs).2 = .dangling ↔ cs.foldl escapes place.inEscape = true := by
  induction cs generalizing place pos with
  | nil => exact finish_dangling
  | cons c cs ih =>
      rw [scan_snd_cons, ih (step_proper proper), step_inEscape proper, List.foldl_cons]

/-! ## The open quote -/

/-- Behind whole words the reader is between words again. -/
theorem Settled.scan_snd {lead : List Char} (settled : Settled quotes lead) (blank : Bool) :
    ∃ after stop, (scan quotes (.between blank) pos (lead ++ rest)).2 =
      (scan quotes (.between after) stop rest).2 := by
  induction settled generalizing pos blank with
  | nil => exact ⟨blank, pos, rfl⟩
  | @blank c lead empty _ ih =>
      have passed : step quotes pos c (.between blank) = (none, .between true) := by
        simp [step, empty]
      rw [List.cons_append, scan_cons_none passed]
      exact ih true
  | @quoted quote inside text lead known quoting spelled _ ih =>
      subst known
      rw [List.append_assoc, List.cons_append, List.cons_append,
        scan_cons_none (step_between_quote quoting blank),
        scan_quoted (isQuote_ne quoting).1 pos spelled, scan_cons_some (step_quoted_quote pos _)]
      exact ih false
  | @bare c d cs text lead unquoted spelled empty _ ih =>
      have ended : ∀ n w, step quotes n d (.bare pos w) =
          (some (word w pos n), .between true) := by
        intro n w
        simp [step, empty]
      rw [List.append_assoc, scan_startBare unquoted spelled blank, List.cons_append,
        scan_cons_some (ended _ _)]
      exact ih true

theorem OpensQuote.scan_snd (opens : OpensQuote quotes line) (blank : Bool) :
    (scan quotes (.between blank) pos line).2 = .openQuote := by
  obtain ⟨lead, quote, inside, text, rfl, settled, known, quoting, spelled⟩ := opens
  subst known
  have reached : ∃ after stop, (scan true (.between blank) pos (lead ++ quote :: inside)).2 =
      (scan true (.between after) stop (quote :: inside)).2 := settled.scan_snd blank
  obtain ⟨after, stop, scanned⟩ := reached
  have within : scan true (.quoted quote stop []) (stop + 1) (inside ++ []) =
      scan true (.quoted quote stop (text.reverse ++ [])) (stop + 1 + inside.length) [] :=
    scan_quoted (isQuote_ne quoting).1 stop spelled []
  rw [List.append_nil] at within
  rw [scanned, scan_cons_none (step_between_quote quoting after), within]
  rfl

/-- A bare word ends at a blank, and the line opens a quote behind that. -/
def OpensBehindBare (quotes : Bool) (line : List Char) : Prop :=
  ∃ w text d rest, line = w ++ d :: rest ∧ Spells specialBare w text ∧ Text.isBlank d = true ∧
    OpensQuote quotes rest

/-- A quoted word does not end, or the line opens a quote behind it. -/
def OpensBehindQuote (quotes : Bool) (quote : Char) (line : List Char) : Prop :=
  (∃ text, Spells (specialIn quote) line text) ∨
    ∃ w text rest, line = w ++ quote :: rest ∧ Spells (specialIn quote) w text ∧
      OpensQuote quotes rest

/-- What a line must look like from a place on to end inside a quote. -/
def Place.Opens (quotes : Bool) : Place → List Char → Prop
  | .between _, line => OpensQuote quotes line
  | .bare _ _, line => OpensBehindBare quotes line
  | .bareEscape _ _, line => OpensBehindBare quotes ('\\' :: line)
  | .quoted quote _ _, line => OpensBehindQuote quotes quote line
  | .quotedEscape quote _ _, line => OpensBehindQuote quotes quote ('\\' :: line)

theorem OpensQuote.blank (empty : Text.isBlank c = true) (opens : OpensQuote quotes rest) :
    OpensQuote quotes (c :: rest) := by
  obtain ⟨lead, quote, inside, text, rfl, settled, inner⟩ := opens
  exact ⟨c :: lead, quote, inside, text, rfl, .blank empty settled, inner⟩

theorem OpensBehindQuote.opensQuote (known : quotes = true) (quoting : isQuote quote = true)
    (opens : OpensBehindQuote quotes quote rest) : OpensQuote quotes (quote :: rest) := by
  rcases opens with ⟨text, spelled⟩ | ⟨w, text, rest, rfl, spelled, opens⟩
  · exact ⟨[], quote, rest, text, rfl, .nil, known, quoting, spelled⟩
  · obtain ⟨lead, other, inside, later, rfl, settled, inner⟩ := opens
    refine ⟨quote :: w ++ quote :: lead, other, inside, later, ?_, ?_, inner⟩
    · simp
    · exact .quoted known quoting spelled settled

theorem OpensBehindBare.opensQuote (solid : Text.isBlank c = false)
    (unquoted : (quotes && isQuote c) = false) (opens : OpensBehindBare quotes (c :: rest)) :
    OpensQuote quotes (c :: rest) := by
  obtain ⟨w, text, d, later, split, spelled, empty, opens⟩ := opens
  cases w with
  | nil =>
      have same : c = d := (List.cons.inj split).1
      rw [same, empty] at solid
      cases solid
  | cons e w =>
      obtain ⟨rfl, rfl⟩ := List.cons.inj split
      obtain ⟨lead, quote, inside, other, rfl, settled, inner⟩ := opens
      refine ⟨c :: w ++ d :: lead, quote, inside, other, ?_, ?_, inner⟩
      · simp
      · exact .bare unquoted spelled empty settled

theorem OpensBehindBare.plain (ordinary : specialBare c = false)
    (opens : OpensBehindBare quotes rest) : OpensBehindBare quotes (c :: rest) := by
  obtain ⟨w, text, d, later, rfl, spelled, inner⟩ := opens
  exact ⟨c :: w, c :: text, d, later, rfl, .plain ordinary spelled, inner⟩

theorem OpensBehindBare.escape (opens : OpensBehindBare quotes rest) :
    OpensBehindBare quotes ('\\' :: c :: rest) := by
  obtain ⟨w, text, d, later, rfl, spelled, inner⟩ := opens
  exact ⟨'\\' :: c :: w, c :: text, d, later, rfl, .escape spelled, inner⟩

theorem OpensBehindQuote.plain (ordinary : specialIn quote c = false)
    (opens : OpensBehindQuote quotes quote rest) : OpensBehindQuote quotes quote (c :: rest) := by
  rcases opens with ⟨text, spelled⟩ | ⟨w, text, later, rfl, spelled, inner⟩
  · exact .inl ⟨c :: text, .plain ordinary spelled⟩
  · exact .inr ⟨c :: w, c :: text, later, rfl, .plain ordinary spelled, inner⟩

theorem OpensBehindQuote.escape (opens : OpensBehindQuote quotes quote rest) :
    OpensBehindQuote quotes quote ('\\' :: c :: rest) := by
  rcases opens with ⟨text, spelled⟩ | ⟨w, text, later, rfl, spelled, inner⟩
  · exact .inl ⟨c :: text, .escape spelled⟩
  · exact .inr ⟨'\\' :: c :: w, c :: text, later, rfl, .escape spelled, inner⟩

/-- A character of a bare word, a backslash or not. -/
theorem OpensBehindBare.character (solid : Text.isBlank c = false)
    (escaped : c = '\\' → OpensBehindBare quotes (c :: rest))
    (behind : c ≠ '\\' → OpensBehindBare quotes rest) : OpensBehindBare quotes (c :: rest) := by
  by_cases same : c = '\\'
  · exact escaped same
  · have ordinary : specialBare c = false := by simp [specialBare, solid, same]
    exact (behind same).plain ordinary

theorem opens_of_startWord (solid : Text.isBlank c = false)
    (opens : (startWord quotes pos c).Opens quotes rest) : OpensQuote quotes (c :: rest) := by
  unfold startWord at opens
  split at opens
  · rename_i quoted
    obtain ⟨known, quoting⟩ := Bool.and_eq_true_iff.mp quoted
    exact opens.opensQuote known quoting
  · rename_i unquoted
    refine OpensBehindBare.opensQuote solid (Bool.eq_false_iff.mpr unquoted) ?_
    refine .character solid (fun same => ?_) fun other => ?_
    · rw [if_pos same] at opens
      rw [same]
      exact opens
    · rw [if_neg other] at opens
      exact opens

/-- What a line must look like behind one more character, it must look like before it. -/
theorem opens_of_step (proper : place.Proper quotes)
    (opens : (step quotes pos c place).2.Opens quotes rest) : place.Opens quotes (c :: rest) := by
  cases place with
  | between blank =>
      cases empty : Text.isBlank c with
      | true =>
          simp only [step, empty, if_true] at opens
          exact OpensQuote.blank empty opens
      | false =>
          simp only [step, empty, Bool.false_eq_true, if_false] at opens
          exact opens_of_startWord empty opens
  | bare start w =>
      cases empty : Text.isBlank c with
      | true =>
          simp only [step, empty, if_true] at opens
          exact ⟨[], [], c, rest, rfl, .nil, empty, opens⟩
      | false =>
          simp only [step, empty, Bool.false_eq_true, if_false] at opens
          refine OpensBehindBare.character empty (fun same => ?_) fun other => ?_
          · rw [if_pos same] at opens
            rw [same]
            exact opens
          · rw [if_neg other] at opens
            exact opens
  | bareEscape start w => exact OpensBehindBare.escape opens
  | quoted quote start w =>
      by_cases closing : c = quote
      · simp only [step, if_pos closing] at opens
        rw [closing]
        exact .inr ⟨[], [], rest, rfl, .nil, opens⟩
      · simp only [step, if_neg closing] at opens
        by_cases same : c = '\\'
        · rw [if_pos same] at opens
          rw [same]
          exact opens
        · rw [if_neg same] at opens
          exact OpensBehindQuote.plain (by simp [specialIn, closing, same]) opens
  | quotedEscape quote start w => exact OpensBehindQuote.escape opens

theorem opens_of_scan (proper : place.Proper quotes)
    (ended : (scan quotes place pos cs).2 = .openQuote) : place.Opens quotes cs := by
  induction cs generalizing place pos with
  | nil =>
      cases place with
      | quoted quote start w => exact .inl ⟨[], .nil⟩
      | between _ | bare _ _ | bareEscape _ _ | quotedEscape _ _ _ => cases ended
  | cons c cs ih =>
      rw [scan_snd_cons] at ended
      exact opens_of_step proper (ih (step_proper proper) ended)

/-- How the reading of a line ends, said of the line. -/
theorem scan_ending (quotes : Bool) (line : List Char) :
    ((scan quotes (.between false) 0 line).2 = .openQuote ↔ OpensQuote quotes line) ∧
      ((scan quotes (.between false) 0 line).2 = .dangling ↔ backslashes line % 2 = 1) := by
  have proper : (Place.between false).Proper quotes := trivial
  refine ⟨⟨opens_of_scan proper, fun opens => opens.scan_snd false⟩, ?_⟩
  rw [scan_dangling proper, ← foldl_escapes]
  rfl

theorem Unfinished.length_pos (unfinished : Unfinished quotes line) : 0 < line.length := by
  cases line with
  | nil =>
      rcases unfinished with ⟨lead, quote, inside, _, split, _⟩ | odd
      · cases lead <;> cases split
      · cases odd
  | cons c line => exact Nat.succ_pos _

/-! ## Strict and lenient readers -/

/-- A line is read alike by both readers, unless it is unfinished and the options are not lenient by
themselves: then the strict reader refuses it, at its last character. -/
theorem strict_eq_lenient_or_unfinished (q : Quoting) (line : String) :
    ∃ tokens, tokenize (.words q) true line = .ok tokens ∧
      ((tokenize (.words q) false line = .ok tokens ∧
          (q.lenient = true ∨ ¬ Unfinished q.quotes line.toList)) ∨
        (∃ e, tokenize (.words q) false line = .error e ∧ e.input = line ∧
          e.position + 1 = line.length ∧ q.lenient = false ∧ Unfinished q.quotes line.toList)) := by
  obtain ⟨opened, hung⟩ := scan_ending q.quotes line.toList
  have last : Unfinished q.quotes line.toList → line.length - 1 + 1 = line.length := by
    intro unfinished
    have visible := unfinished.length_pos
    rw [String.length_toList] at visible
    omega
  simp only [tokenize, words?]
  cases scanned : scan q.quotes (.between false) 0 line.toList with
  | mk tokens ending =>
      rw [scanned] at opened hung
      cases ending with
      | settled blank =>
          refine ⟨_, rfl, .inl ⟨rfl, .inr ?_⟩⟩
          rintro (opens | odd)
          · cases opened.mpr opens
          · cases hung.mpr odd
      | openQuote =>
          have unfinished : Unfinished q.quotes line.toList := .inl (opened.mp rfl)
          refine ⟨tokens, rfl, ?_⟩
          cases free : q.lenient with
          | true => exact .inl ⟨rfl, .inl rfl⟩
          | false => exact .inr ⟨_, rfl, rfl, last unfinished, rfl, unfinished⟩
      | dangling =>
          have unfinished : Unfinished q.quotes line.toList := .inr (hung.mp rfl)
          refine ⟨tokens, rfl, ?_⟩
          cases free : q.lenient with
          | true => exact .inl ⟨rfl, .inl rfl⟩
          | false => exact .inr ⟨_, rfl, rfl, last unfinished, rfl, unfinished⟩

/-- Options that are lenient by themselves make the strict reader take an unfinished line. -/
theorem unfinished_read_by_strict :
    ¬ ∀ (q : Quoting) (line : String), Unfinished q.quotes line.toList →
      ∃ e, tokenize (.words q) false line = .error e := by
  intro refused
  have opens : OpensQuote true "\"a".toList :=
    ⟨[], '"', ['a'], ['a'], rfl, .nil, rfl, rfl, .plain rfl .nil⟩
  obtain ⟨e, refusal⟩ := refused ⟨true, true, false⟩ "\"a" (.inl opens)
  have taken : tokenize (.words ⟨true, true, false⟩) false "\"a" = .ok [⟨"a", 0, 2⟩] := rfl
  rw [taken] at refusal
  cases refusal

end Tokenizer

end CommandGrammar
