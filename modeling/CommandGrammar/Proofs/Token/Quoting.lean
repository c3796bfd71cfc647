import CommandGrammar.Proofs.Token.Scan
import Mathlib.Data.List.Forall2

/-!
# Quoting

A text can be written into a line in quotes of either kind, or bare. Cutting the line gives back the
texts, and the places where they were written.
-/

namespace CommandGrammar

namespace Tokenizer

/-! ## Writing a text -/

def isQuote (c : Char) : Bool :=
  c == '"' || c == '\''

/-- A text between quotes, with a backslash before each of these quotes and each backslash. -/
def inQuotes (quote : Char) (cs : List Char) : List Char :=
  quote :: escaped (specialIn quote) cs ++ [quote]

/-- A bare text, with a backslash before blanks and backslashes, and before a quote in front. -/
def bareWord : List Char → List Char
  | [] => []
  | c :: cs =>
    (if specialBare c || isQuote c then ['\\', c] else [c]) ++ escaped specialBare cs

inductive Spelling where
  | double
  | single
  | bare
  deriving DecidableEq, Repr

def Spelling.write : Spelling → List Char → List Char
  | .double, cs => inQuotes '"' cs
  | .single, cs => inQuotes '\'' cs
  | .bare, cs => bareWord cs

/-- A text written after some blanks. Only a text with characters can stand bare. -/
structure Piece where
  gap : List Char
  spelling : Spelling
  value : String
  blank : ∀ c ∈ gap, Text.isBlank c = true
  visible : spelling = .bare → value ≠ ""

namespace Piece

def written (p : Piece) : List Char :=
  p.spelling.write p.value.toList

def text (p : Piece) : List Char :=
  p.gap ++ p.written

/-- The tokens of pieces that are written from a place on. -/
def tokens : (pos : Nat) → List Piece → List Token
  | _, [] => []
  | pos, p :: rest =>
    let start := pos + p.gap.length
    let stop := start + p.written.length
    ⟨p.value, start, stop⟩ :: tokens stop rest

end Piece

/-- Pieces of which all but the first stand after blanks. -/
structure Sentence where
  first : Piece
  others : List Piece
  apart : ∀ p ∈ others, p.gap ≠ []

namespace Sentence

def pieces (s : Sentence) : List Piece :=
  s.first :: s.others

def line (s : Sentence) : String :=
  String.ofList (s.pieces.flatMap Piece.text)

def tokens (s : Sentence) : List Token :=
  Piece.tokens 0 s.pieces

end Sentence

/-! ## Reading it back -/

variable {pos : Nat} {rest : List Char}

theorem isQuote_ne {quote : Char} (known : isQuote quote = true) :
    quote ≠ '\\' ∧ Text.isBlank quote = false := by
  have either : quote = '"' ∨ quote = '\'' := by simpa [isQuote] using known
  rcases either with rfl | rfl <;> exact ⟨by decide, rfl⟩

theorem step_between_quote {quote : Char} (known : isQuote quote = true) (blank : Bool) :
    step true pos quote (.between blank) = (none, .quoted quote pos []) := by
  have quoted : (quote == '"' || quote == '\'') = true := known
  simp [step, startWord, quoted, (isQuote_ne known).2]

theorem step_quoted_quote {quote : Char} (start : Nat) (w : List Char) :
    step true pos quote (.quoted quote start w) = (some (word w start (pos + 1)), .between false) := by
  simp [step]

theorem scan_inQuotes {quote : Char} (known : isQuote quote = true) (blank : Bool) (cs : List Char) :
    scan true (.between blank) pos (inQuotes quote cs ++ rest) =
      (⟨String.ofList cs, pos, pos + (inQuotes quote cs).length⟩ ::
          (scan true (.between false) (pos + (inQuotes quote cs).length) rest).1,
        (scan true (.between false) (pos + (inQuotes quote cs).length) rest).2) := by
  have length : pos + (inQuotes quote cs).length =
      pos + 1 + (escaped (specialIn quote) cs).length + 1 := by
    simp only [inQuotes, List.cons_append, List.length_cons, List.length_append, List.length_nil]
    omega
  rw [length]
  simp only [inQuotes, List.cons_append, List.append_assoc]
  rw [scan_cons_none (step_between_quote known blank),
    scan_quoted (isQuote_ne known).1 pos (spells_escaped _ cs), List.append_nil, List.nil_append,
    scan_cons_some (step_quoted_quote pos _)]
  simp [word]

/-- A word whose first character opens no quote is read as a bare one. -/
theorem scan_startBare {quotes : Bool} {c : Char} {cs text : List Char}
    (unquoted : (quotes && isQuote c) = false) (spelled : Spells specialBare (c :: cs) text)
    (blank : Bool) :
    scan quotes (.between blank) pos (c :: cs ++ rest) =
      scan quotes (.bare pos text.reverse) (pos + (c :: cs).length) rest := by
  have unopened : (quotes && (c == '"' || c == '\'')) = false := unquoted
  cases spelled with
  | plain ordinary spelled =>
      have started : step quotes pos c (.between blank) = (none, .bare pos [c]) := by
        simp only [specialBare, Bool.or_eq_false_iff, beq_eq_false_iff_ne] at ordinary
        simp [step, startWord, unopened, ordinary]
      rw [List.cons_append, scan_cons_none started, scan_bare pos spelled, List.reverse_cons,
        List.length_cons]
      congr 1
      omega
  | escape spelled =>
      have opened : step quotes pos '\\' (.between blank) = (none, .bareEscape pos []) := by
        have solid : Text.isBlank '\\' = false := rfl
        simp [step, startWord, solid]
      have closed : ∀ d, step quotes (pos + 1) d (.bareEscape pos []) = (none, .bare pos [d]) := by
        intro d
        rfl
      rw [List.cons_append, List.cons_append, scan_cons_none opened, scan_cons_none (closed _),
        scan_bare pos spelled, List.reverse_cons, List.length_cons, List.length_cons]
      congr 1
      omega

theorem spells_bareWord (c : Char) (cs : List Char) :
    ∃ d ds, bareWord (c :: cs) = d :: ds ∧ isQuote d = false ∧
      Spells specialBare (d :: ds) (c :: cs) := by
  cases special : specialBare c || isQuote c with
  | true =>
      refine ⟨'\\', c :: escaped specialBare cs, ?_, rfl, .escape (spells_escaped specialBare cs)⟩
      simp [bareWord, special]
  | false =>
      obtain ⟨ordinary, unquoted⟩ := Bool.or_eq_false_iff.mp special
      refine ⟨c, escaped specialBare cs, ?_, unquoted, .plain ordinary (spells_escaped _ cs)⟩
      simp [bareWord, special]

/-- Behind a bare text the reader is inside its word. -/
theorem scan_bareWord (blank : Bool) {cs : List Char} (visible : cs ≠ []) :
    scan true (.between blank) pos (bareWord cs ++ rest) =
      scan true (.bare pos cs.reverse) (pos + (bareWord cs).length) rest := by
  cases cs with
  | nil => exact absurd rfl visible
  | cons c cs =>
      obtain ⟨d, ds, written, unquoted, spelled⟩ := spells_bareWord c cs
      rw [written, scan_startBare (by simp [unquoted]) spelled blank]

namespace Piece

/-- What follows a piece: nothing, or blanks. -/
def Delimits (rest : List Char) : Prop :=
  rest = [] ∨ ∃ c cs, rest = c :: cs ∧ Text.isBlank c = true

/-- Where the reader stands between words behind a piece makes no difference to what follows it,
unless that is nothing. -/
theorem scan_written (p : Piece) (blank : Bool) (delimits : Delimits rest) :
    scan true (.between blank) pos (p.written ++ rest) =
      (⟨p.value, pos, pos + p.written.length⟩ ::
          (scan true (.between false) (pos + p.written.length) rest).1,
        (scan true (.between false) (pos + p.written.length) rest).2) := by
  obtain ⟨gap, spelling, value, -, visible⟩ := p
  have whole : String.ofList value.toList = value := String.ofList_toList
  cases spelling with
  | double => rw [written, Spelling.write, scan_inQuotes rfl, whole]
  | single => rw [written, Spelling.write, scan_inQuotes rfl, whole]
  | bare =>
      have characters : value.toList ≠ [] := by
        intro none
        exact visible rfl (String.toList_eq_nil_iff.mp none)
      simp only [written, Spelling.write]
      rw [scan_bareWord blank characters]
      rcases delimits with rfl | ⟨c, cs, rfl, blankNext⟩
      · simp [scan, finish, word, whole]
      · have ended : ∀ n, step true n c (.bare pos value.toList.reverse) =
            (some (word value.toList.reverse pos n), .between true) := by
          intro n
          simp [step, blankNext]
        have skipped : ∀ n, step true n c (.between false) = (none, .between true) := by
          intro n
          simp [step, blankNext]
        rw [scan_cons_some (ended _), scan_cons_none (skipped _)]
        simp [word, whole]

theorem delimits_text {others : List Piece} (apart : ∀ p ∈ others, p.gap ≠ []) :
    Delimits (others.flatMap text) := by
  cases others with
  | nil => exact .inl rfl
  | cons p others =>
      cases gap : p.gap with
      | nil => exact absurd gap (apart p List.mem_cons_self)
      | cons c cs =>
          refine .inr ⟨c, cs ++ p.written ++ others.flatMap text, ?_, ?_⟩
          · rw [List.flatMap_cons, text, gap]
            simp
          · exact p.blank c (by simp [gap])

theorem scan_text (p : Piece) (blank : Bool) (delimits : Delimits rest) :
    scan true (.between blank) pos (p.text ++ rest) =
      scan true (.between blank) (pos + p.gap.length) (p.written ++ rest) := by
  cases gap : p.gap with
  | nil => simp [text, gap]
  | cons c cs =>
      have passed : scan true (.between blank) pos (p.gap ++ (p.written ++ rest)) =
          scan true (.between true) (pos + p.gap.length) (p.written ++ rest) :=
        scan_blanks p.blank (by simp [gap]) blank
      rw [text, List.append_assoc, passed, p.scan_written true delimits,
        p.scan_written blank delimits, gap]

theorem scan_pieces (pos : Nat) (p : Piece) {others : List Piece} (apart : ∀ p ∈ others, p.gap ≠ [])
    (blank : Bool) :
    scan true (.between blank) pos ((p :: others).flatMap text) =
      (tokens pos (p :: others), .settled false) := by
  induction others generalizing pos p blank with
  | nil =>
      have delimits : Delimits [] := .inl rfl
      rw [List.flatMap_cons, List.flatMap_nil, p.scan_text blank delimits,
        p.scan_written blank delimits]
      rfl
  | cons q others ih =>
      have delimits := delimits_text apart
      have later := ih (pos + p.gap.length + p.written.length) q
        (fun r hr => apart r (List.mem_cons_of_mem q hr)) false
      rw [List.flatMap_cons, p.scan_text blank delimits, p.scan_written blank delimits, later]
      rfl

/-- A token of a piece covers exactly what was written for it. -/
theorem slices (before : List Char) (ps : List Piece) :
    List.Forall₂ (fun (p : Piece) (t : Token) => t.value = p.value ∧
      ((before ++ ps.flatMap text).drop t.start).take (t.stop - t.start) = p.written)
      ps (tokens before.length ps) := by
  induction ps generalizing before with
  | nil => exact .nil
  | cons p ps ih =>
      have later := ih (before ++ p.text)
      rw [List.append_assoc, ← List.flatMap_cons] at later
      refine .cons ⟨rfl, ?_⟩ ?_
      · have front : before ++ (p :: ps).flatMap text =
            (before ++ p.gap) ++ (p.written ++ ps.flatMap text) := by simp [text]
        rw [front, ← List.length_append, List.drop_left]
        simp
      · simpa [text, Nat.add_assoc] using later

end Piece

/-- Cutting a line undoes the writing of texts into it: each comes back as one token, from the place
where it was written to the place behind it. -/
theorem tokenize_written (s : Sentence) :
    tokenize default false s.line = .ok s.tokens ∧
      List.Forall₂ (fun (p : Piece) (t : Token) => t.value = p.value ∧
        (s.line.toList.drop t.start).take (t.stop - t.start) = p.written) s.pieces s.tokens := by
  have scanned := s.first.scan_pieces 0 s.apart false
  refine ⟨?_, ?_⟩
  · change words? {} false s.line = _
    unfold words?
    rw [Sentence.line, String.toList_ofList, Sentence.pieces, scanned]
    rfl
  · have covered := Piece.slices [] s.pieces
    rw [Sentence.line, String.toList_ofList]
    exact covered

end Tokenizer

end CommandGrammar
