import CommandGrammar.Proofs.Token.Quoting

/-!
# Lines behind words

A line that is written behind some plain words is cut as it is by itself, every token standing so
many characters further on.
-/

namespace CommandGrammar

/-- A token of a line that stands so many characters into another. -/
def Token.shift (k : Nat) (t : Token) : Token :=
  ⟨t.value, t.start + k, t.stop + k⟩

@[simp] theorem Token.value_shift (k : Nat) (t : Token) : (t.shift k).value = t.value := rfl

@[simp] theorem Token.shift_zero (t : Token) : t.shift 0 = t := rfl

@[simp] theorem Token.shift_shift (j k : Nat) (t : Token) : (t.shift j).shift k = t.shift (j + k) := by
  simp [shift, Nat.add_assoc]

namespace Tokenizer

/-! ## Scanning further on -/

def Place.shift (k : Nat) : Place → Place
  | .between blank => .between blank
  | .bare start w => .bare (start + k) w
  | .bareEscape start w => .bareEscape (start + k) w
  | .quoted quote start w => .quoted quote (start + k) w
  | .quotedEscape quote start w => .quotedEscape quote (start + k) w

variable {quotes : Bool} {pos k : Nat} {c : Char} {cs : List Char} {place : Place}

theorem step_shift : step quotes (pos + k) c (place.shift k) =
    ((step quotes pos c place).1.map (·.shift k), (step quotes pos c place).2.shift k) := by
  have ahead : pos + k + 1 = pos + 1 + k := by omega
  cases place with
  | between blank =>
      simp only [Place.shift, step, startWord]
      split
      · rfl
      · split
        · rfl
        · split <;> rfl
  | bare start w =>
      simp only [Place.shift, step]
      split
      · rfl
      · split <;> rfl
  | bareEscape start w | quotedEscape quote start w => rfl
  | quoted quote start w =>
      simp only [Place.shift, step, ahead]
      split
      · rfl
      · split <;> rfl

theorem finish_shift : finish (pos + k) (place.shift k) =
    ((finish pos place).1.map (·.shift k), (finish pos place).2) := by
  cases place <;> rfl

theorem scan_shift : scan quotes (place.shift k) (pos + k) cs =
    ((scan quotes place pos cs).1.map (·.shift k), (scan quotes place pos cs).2) := by
  induction cs generalizing place pos with
  | nil =>
      simp only [scan, finish_shift]
      cases (finish pos place).1 <;> rfl
  | cons c cs ih =>
      have ahead : pos + k + 1 = pos + 1 + k := by omega
      simp only [scan, step_shift, ahead, ih, List.map_append]
      cases (step quotes pos c place).1 <;> rfl

/-! ## A line behind one word -/

/-- Neither blank, nor a quote or a backslash. -/
def isPlain (c : Char) : Bool :=
  !Text.isBlank c && !isQuote c && c != '\\'

/-- A word that stands for itself in a line. -/
structure Plain (w : String) : Prop where
  visible : w ≠ ""
  solid : w.toList.all isPlain = true

instance (w : String) : Decidable (Plain w) :=
  decidable_of_iff (w ≠ "" ∧ w.toList.all isPlain = true) ⟨fun h => ⟨h.1, h.2⟩, fun h => ⟨h.1, h.2⟩⟩

theorem Plain.bareWord {w : String} (plain : Plain w) : bareWord w.toList = w.toList := by
  have solid : ∀ c ∈ w.toList, (Text.isBlank c = false ∧ isQuote c = false) ∧ c ≠ '\\' := by
    simpa [isPlain] using plain.solid
  have bare : ∀ c ∈ w.toList, specialBare c = false := by
    intro c hc
    obtain ⟨⟨visible, -⟩, other⟩ := solid c hc
    simp [specialBare, visible, other]
  cases characters : w.toList with
  | nil => rfl
  | cons c cs =>
      rw [characters] at bare
      have first := bare c List.mem_cons_self
      have unquoted := (solid c (by simp [characters])).1.2
      have later := escaped_of_plain fun d hd => bare d (List.mem_cons_of_mem c hd)
      simp [Tokenizer.bareWord, first, unquoted, later]

def Plain.piece {w : String} (plain : Plain w) : Piece where
  gap := []
  spelling := .bare
  value := w
  blank := by simp
  visible _ := plain.visible

theorem Plain.scan {w : String} (plain : Plain w) {rest : List Char} (delimits : Piece.Delimits rest) :
    scan true (.between false) 0 (w.toList ++ rest) =
      (⟨w, 0, w.length⟩ :: (Tokenizer.scan true (.between false) w.length rest).1,
        (Tokenizer.scan true (.between false) w.length rest).2) := by
  have written : plain.piece.written = w.toList := plain.bareWord
  have scanned : Tokenizer.scan true (.between false) 0 (plain.piece.written ++ rest) = _ :=
    plain.piece.scan_written false delimits
  rw [written, Nat.zero_add, String.length_toList] at scanned
  exact scanned

/-- A line behind a word and a space has that word for its first token, and is refused where it is
refused by itself. -/
theorem words?_behind {w line : String} (plain : Plain w) (nonempty : line ≠ "") :
    words? {} false (w ++ " " ++ line) =
      match words? {} false line with
      | .ok ts => .ok (⟨w, 0, w.length⟩ :: ts.map (·.shift (w.length + 1)))
      | .error e => .error (atEnd e.bare (w ++ " " ++ line)) := by
  have characters : line.toList ≠ [] := by
    intro none
    exact nonempty (String.toList_eq_nil_iff.mp none)
  obtain ⟨c, cs, there⟩ := List.exists_cons_of_ne_nil characters
  have blank : Text.isBlank ' ' = true := rfl
  have spaced : Tokenizer.scan true (.between false) w.length (' ' :: line.toList) =
      ((Tokenizer.scan true (.between false) 0 line.toList).1.map (·.shift (w.length + 1)),
        (Tokenizer.scan true (.between false) 0 line.toList).2) := by
    have passed : step true w.length ' ' (.between false) = (none, .between true) := rfl
    have further : Tokenizer.scan true ((Place.between false).shift (w.length + 1))
        (0 + (w.length + 1)) line.toList = _ := scan_shift
    rw [Nat.zero_add] at further
    rw [scan_cons_none passed, ← further, there]
    exact scan_between_cons true false
  have whole : (w ++ " " ++ line).toList = w.toList ++ ' ' :: line.toList := by simp
  have length : (w ++ " " ++ line).length = line.length + (w.length + 1) := by
    simp only [String.length_append]
    have one : " ".length = 1 := rfl
    omega
  have delimits : Piece.Delimits (' ' :: line.toList) := .inr ⟨' ', line.toList, rfl, blank⟩
  unfold words?
  rw [whole, plain.scan delimits, spaced]
  generalize Tokenizer.scan true (.between false) 0 line.toList = scanned
  obtain ⟨ts, ending⟩ := scanned
  cases ending with
  | settled blank => cases blank <;> simp [length, Token.shift]
  | openQuote | dangling => rfl

/-! ## A line behind several words -/

/-- Words and then a text, a space between each two; an empty text adds nothing. -/
def behind (words : List String) (rest : String) : String :=
  String.intercalate " " (words ++ if rest = "" then [] else [rest])

theorem behind_nil (rest : String) : behind [] rest = rest := by
  by_cases empty : rest = "" <;> simp [behind, empty]

theorem behind_cons (w : String) {words : List String} {rest : String}
    (more : ¬ (words = [] ∧ rest = "")) :
    behind (w :: words) rest = w ++ " " ++ behind words rest := by
  refine String.intercalate_cons_of_ne_nil ?_
  by_cases empty : rest = "" <;> simp_all

theorem behind_ne_empty {words : List String} {rest : String} (plain : ∀ w ∈ words, Plain w)
    (more : ¬ (words = [] ∧ rest = "")) : behind words rest ≠ "" := by
  cases words with
  | nil =>
      rw [behind_nil]
      simpa using more
  | cons w words =>
      have visible := (plain w List.mem_cons_self).visible
      by_cases last : words = [] ∧ rest = ""
      · obtain ⟨rfl, rfl⟩ := last
        exact visible
      · rw [behind_cons w last]
        simp [visible]

end Tokenizer

/-- What stands in a line before another: its characters, and the tokens it was cut into. -/
structure Lead where
  text : List Char
  tokens : List Token

namespace Lead

open Tokenizer

/-- A line is a lead and then another line, and it is cut where that is cut. -/
structure Fronts (l : Lead) (rest line : String) : Prop where
  text : line.toList = l.text ++ rest.toList
  cut : ∀ {ts}, words? {} false rest = .ok ts →
    words? {} false line = .ok (l.tokens ++ ts.map (·.shift l.text.length))
  refused : ∀ {e}, words? {} false rest = .error e →
    ∃ e', words? {} false line = .error e' ∧ e'.bare = e.bare

namespace Fronts

theorem self (line : String) : Fronts ⟨[], []⟩ line line where
  text := rfl
  cut h := by simpa using h
  refused h := ⟨_, h, rfl⟩

theorem alone {w : String} (plain : Plain w) : Fronts ⟨w.toList, [⟨w, 0, w.length⟩]⟩ "" w := by
  have scanned : scan true (.between false) 0 (w.toList ++ []) = _ := plain.scan (.inl rfl)
  rw [List.append_nil] at scanned
  have cut : words? {} false w = .ok [⟨w, 0, w.length⟩] := by
    unfold words?
    rw [scanned]
    rfl
  refine ⟨by simp, ?_, ?_⟩
  · intro ts h
    have none : [] = ts := Except.ok.inj h
    rw [← none]
    exact cut
  · intro e h
    cases h

theorem cons {l : Lead} {w rest line : String} (plain : Plain w) (nonempty : line ≠ "")
    (h : l.Fronts rest line) :
    Fronts ⟨w.toList ++ ' ' :: l.text, ⟨w, 0, w.length⟩ :: l.tokens.map (·.shift (w.length + 1))⟩ rest
      (w ++ " " ++ line) := by
  have further : l.text.length + (w.length + 1) = (w.toList ++ ' ' :: l.text).length := by
    simp only [List.length_append, List.length_cons, String.length_toList]
    omega
  refine ⟨by simp [h.text], ?_, ?_⟩
  · intro ts first
    rw [words?_behind plain nonempty, h.cut first]
    simp only [List.map_append, List.map_map, Function.comp_def, Token.shift_shift, further,
      List.cons_append]
  · intro e first
    obtain ⟨e', second, bare⟩ := h.refused first
    rw [words?_behind plain nonempty, second]
    exact ⟨_, rfl, bare⟩

end Fronts

/-- Plain words before a line make a lead, with a token for each of them. -/
theorem exists_fronts {words : List String} (plain : ∀ w ∈ words, Plain w) (rest : String) :
    ∃ l : Lead, l.tokens.map (·.value) = words ∧ l.Fronts rest (behind words rest) := by
  induction words with
  | nil =>
      rw [behind_nil]
      exact ⟨⟨[], []⟩, rfl, .self rest⟩
  | cons w words ih =>
      have first := plain w List.mem_cons_self
      obtain ⟨l, values, fronts⟩ := ih fun v hv => plain v (List.mem_cons_of_mem w hv)
      by_cases last : words = [] ∧ rest = ""
      · obtain ⟨rfl, rfl⟩ := last
        exact ⟨_, rfl, .alone first⟩
      · have nonempty := behind_ne_empty (fun v hv => plain v (List.mem_cons_of_mem w hv)) last
        rw [behind_cons w last]
        exact ⟨_, by simp [Function.comp_def, values], fronts.cons first nonempty⟩

end Lead

end CommandGrammar
