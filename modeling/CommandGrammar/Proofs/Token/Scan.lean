import CommandGrammar.Token

/-!
# Scanning words

How the reader of words goes over stretches of a line: blanks, the inside of a word whose special
characters are escaped, and a line that stands behind other text.
-/

namespace CommandGrammar

namespace Tokenizer

variable {quotes : Bool} {pos : Nat} {c : Char} {cs text rest : List Char} {here next : Place} {t : Token}

theorem scan_cons_none (h : step quotes pos c here = (none, next)) :
    scan quotes here pos (c :: rest) = scan quotes next (pos + 1) rest := by
  simp [scan, h]

theorem scan_cons_some (h : step quotes pos c here = (some t, next)) :
    scan quotes here pos (c :: rest) =
      (t :: (scan quotes next (pos + 1) rest).1, (scan quotes next (pos + 1) rest).2) := by
  simp [scan, h]

/-! ## Blanks -/

theorem scan_blanks {gap : List Char} (blank : ∀ c ∈ gap, Text.isBlank c = true)
    (nonempty : gap ≠ []) (before : Bool) :
    scan quotes (.between before) pos (gap ++ rest) =
      scan quotes (.between true) (pos + gap.length) rest := by
  induction gap generalizing pos before with
  | nil => exact absurd rfl nonempty
  | cons c gap ih =>
      have first : step quotes pos c (.between before) = (none, .between true) := by
        simp [step, blank c List.mem_cons_self]
      rw [List.cons_append, scan_cons_none first]
      cases gap with
      | nil => rfl
      | cons d gap =>
          rw [ih (fun d hd => blank d (List.mem_cons_of_mem c hd)) (List.cons_ne_nil d gap)]
          simp only [List.length_cons]
          congr 1
          omega

/-- Whether blanks were passed makes no difference where more of the line follows. -/
theorem scan_between_cons (before after : Bool) :
    scan quotes (.between before) pos (c :: rest) = scan quotes (.between after) pos (c :: rest) := by
  simp only [scan, step]

/-! ## The inside of a word -/

/-- A backslash put before each character that needs one. -/
def escaped (needs : Char → Bool) (cs : List Char) : List Char :=
  cs.flatMap fun c => if needs c then ['\\', c] else [c]

theorem escaped_cons (needs : Char → Bool) (c : Char) (cs : List Char) :
    escaped needs (c :: cs) = (if needs c then ['\\', c] else [c]) ++ escaped needs cs := rfl

theorem escaped_of_plain {needs : Char → Bool} (plain : ∀ c ∈ cs, needs c = false) :
    escaped needs cs = cs := by
  induction cs with
  | nil => rfl
  | cons c cs ih =>
      rw [escaped_cons, plain c List.mem_cons_self, ih fun d hd => plain d (List.mem_cons_of_mem c hd)]
      rfl

/-- How a text is written inside a word: each of its characters as it is, unless that is special, or
behind a backslash. -/
inductive Spells (special : Char → Bool) : List Char → List Char → Prop where
  | nil : Spells special [] []
  | plain {c : Char} {cs text : List Char} : special c = false → Spells special cs text →
      Spells special (c :: cs) (c :: text)
  | escape {c : Char} {cs text : List Char} : Spells special cs text →
      Spells special ('\\' :: c :: cs) (c :: text)

theorem spells_escaped (needs : Char → Bool) (text : List Char) :
    Spells needs (escaped needs text) text := by
  induction text with
  | nil => exact .nil
  | cons c text ih =>
      rw [escaped_cons]
      cases special : needs c with
      | true => exact .escape ih
      | false => exact .plain special ih

/-- An inside place keeps the text that is spelled. -/
theorem scan_spells {special : Char → Bool} {inside : List Char → Place} (escape : List Char → Place)
    (plain : ∀ pos w c, special c = false → step quotes pos c (inside w) = (none, inside (c :: w)))
    (opened : ∀ pos w, step quotes pos '\\' (inside w) = (none, escape w))
    (closed : ∀ pos w c, step quotes pos c (escape w) = (none, inside (c :: w)))
    (spelled : Spells special cs text) (w : List Char) :
    scan quotes (inside w) pos (cs ++ rest) =
      scan quotes (inside (text.reverse ++ w)) (pos + cs.length) rest := by
  induction spelled generalizing pos w with
  | nil => rfl
  | @plain c cs text ordinary _ ih =>
      rw [List.cons_append, scan_cons_none (plain pos w c ordinary), ih, List.reverse_cons,
        List.append_assoc, List.length_cons]
      congr 1
      omega
  | @escape c cs text _ ih =>
      rw [List.cons_append, List.cons_append, scan_cons_none (opened pos w),
        scan_cons_none (closed (pos + 1) w c), ih, List.reverse_cons, List.append_assoc,
        List.length_cons, List.length_cons]
      congr 1
      omega

/-- What needs a backslash between quotes: the quote itself and a backslash. -/
def specialIn (quote c : Char) : Bool :=
  c == quote || c == '\\'

/-- What needs a backslash in a bare word: blanks and a backslash. -/
def specialBare (c : Char) : Bool :=
  Text.isBlank c || c == '\\'

theorem scan_quoted {quote : Char} (other : quote ≠ '\\') (start : Nat)
    (spelled : Spells (specialIn quote) cs text) (w : List Char) :
    scan quotes (.quoted quote start w) pos (cs ++ rest) =
      scan quotes (.quoted quote start (text.reverse ++ w)) (pos + cs.length) rest := by
  refine scan_spells (.quotedEscape quote start) ?_ ?_ ?_ spelled w
  · intro pos w c plain
    simp only [specialIn, Bool.or_eq_false_iff, beq_eq_false_iff_ne] at plain
    simp [step, plain]
  · intro pos w
    simp [step, other.symm]
  · intro pos w c
    rfl

theorem scan_bare (start : Nat) (spelled : Spells specialBare cs text) (w : List Char) :
    scan quotes (.bare start w) pos (cs ++ rest) =
      scan quotes (.bare start (text.reverse ++ w)) (pos + cs.length) rest := by
  refine scan_spells (.bareEscape start) ?_ ?_ ?_ spelled w
  · intro pos w c plain
    simp only [specialBare, Bool.or_eq_false_iff, beq_eq_false_iff_ne] at plain
    simp [step, plain]
  · intro pos w
    have solid : Text.isBlank '\\' = false := rfl
    simp [step, solid]
  · intro pos w c
    rfl

end Tokenizer

end CommandGrammar
