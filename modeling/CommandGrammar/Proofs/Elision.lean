import CommandGrammar.Proofs.Caret

/-!
# Marks where input is left out

Input that is too long for one line is shown in part, and marks should tell where it goes on: one in
front of the part unless that starts where the input does, one behind it unless it ends there. The
mark behind always tells the truth. The one in front is there for every place that is not nearer to
the start than the window reaches, so at the place that lies as far from the start as it reaches,
nothing is left out behind the mark.
-/

namespace CommandGrammar.ParseError

variable {w : Window} {input text : List Char} {position start stop : Nat} {lead trail : Bool}

/-- A mark, if something is left out. -/
def Window.mark (w : Window) (there : Bool) : List Char :=
  if there then w.ellipsis.toList else []

/-- A text shows the input from one place to another, between which the place of an error lies, with
a mark in front and one behind it or without them. -/
structure Window.Cuts (w : Window) (input text : List Char) (position start stop : Nat)
    (lead trail : Bool) : Prop where
  start_le : start ≤ position
  lt_stop : position < stop
  within : stop ≤ input.length
  text_eq : text = w.mark lead ++ (input.take stop).drop start ++ w.mark trail

/-- The line that an error shows of its input. -/
def line (e : ParseError) : List Char :=
  (shown window e.input.toList e.position).1

/-- The character behind the mark in front is the one where the part starts. -/
theorem Window.Cuts.getElem?_lead (cuts : w.Cuts input text position start stop lead trail) :
    text[(w.mark lead).length]? = input[start]? := by
  have start_le := cuts.start_le
  have lt_stop := cuts.lt_stop
  have within := cuts.within
  have filled : 0 < ((input.take stop).drop start).length := by
    rw [List.length_drop, List.length_take]
    omega
  rw [cuts.text_eq, List.append_assoc, List.getElem?_append_right (Nat.le_refl _), Nat.sub_self,
    List.getElem?_append_left filled, List.getElem?_drop, Nat.add_zero,
    List.getElem?_take_of_lt (by omega)]

/-- Near the start the first characters are shown, without a mark in front of them. -/
theorem cuts_start (fits : w.Fits) (long : w.width < input.length) (early : position < w.radius) :
    w.Cuts input (shown w input position).1 position 0 (w.width - w.ellipsis.toList.length)
      false true := by
  have room := fits.room
  refine ⟨Nat.zero_le _, by omega, by omega, ?_⟩
  rw [shown_start long early]
  rfl

/-- Elsewhere the characters around the place are shown, always with a mark in front of them. -/
theorem cuts_around (fits : w.Fits) (long : w.width < input.length) (late : w.radius ≤ position)
    (inside : position < input.length) :
    w.Cuts input (shown w input position).1 position (position - w.radius)
      (min (position + w.radius) input.length) true
      (decide (min (position + w.radius) input.length < input.length)) := by
  have pos := fits.radius_pos
  refine ⟨Nat.sub_le _ _, by omega, Nat.min_le_right _ _, ?_⟩
  rw [shown_around long late]
  dsimp only [Window.around, Window.mark]
  simp only [decide_eq_true_eq, if_true]

/-- Of long input a part is shown that holds the place and starts as far before it as the window
reaches, or with the first character. There is a mark behind it just where the input goes on; there
is one in front of it just where the input began before, or where the place lies as far from the start
as the window reaches. -/
theorem shown_marks (fits : w.Fits) (long : w.width < input.length)
    (inside : position < input.length) :
    ∃ start stop lead trail,
      w.Cuts input (shown w input position).1 position start stop lead trail ∧
      start = position - w.radius ∧
      (lead = true ↔ start ≠ 0 ∨ position = w.radius) ∧ (trail = true ↔ stop ≠ input.length) := by
  have room := fits.room
  by_cases early : position < w.radius
  · refine ⟨_, _, _, _, cuts_start fits long early, by omega, ?_, ?_⟩
    · simp only [Bool.false_eq_true, false_iff]
      omega
    · simp only [true_iff]
      omega
  · have late : w.radius ≤ position := Nat.le_of_not_lt early
    refine ⟨_, _, _, _, cuts_around fits long late inside, rfl, ?_, ?_⟩
    · simp only [true_iff]
      omega
    · rw [decide_eq_true_iff]
      omega

/-- An error in input of more than eighty characters shows a line of it, a line break, spaces and a
caret. The line is a part of the input that holds the place of the error and starts 37 characters
before it, or with the first. It has a mark behind it just where it does not end at the last
character, and one in front of it just where it does not start at the first, unless the error is at
the 38th character: there the mark stands in front of the first. -/
theorem annotated_marks (e : ParseError) (long : 80 < e.input.length)
    (inside : e.position < e.input.length) :
    (∃ column, e.annotated =
      String.ofList e.line ++ "\n" ++ String.ofList (List.replicate column ' ') ++ "^") ∧
    ∃ start stop lead trail,
      window.Cuts e.input.toList e.line e.position start stop lead trail ∧
      start = e.position - 37 ∧
      (lead = true ↔ start ≠ 0 ∨ e.position = 37) ∧ (trail = true ↔ stop ≠ e.input.length) := by
  have characters : e.input.toList.length = e.input.length := String.length_toList
  constructor
  · refine ⟨(shown window e.input.toList e.position).2, ?_⟩
    apply String.toList_inj.mp
    simp only [annotated, line, String.toList_ofList, String.toList_append, List.append_assoc,
      List.cons_append]
    rfl
  · have cut : window.width < e.input.toList.length := characters ▸ long
    have marks := shown_marks window_fits cut (characters ▸ inside)
    rw [characters] at marks
    exact marks

/-- An error in 81 characters, at a place as far from the first as the window reaches. -/
def atReach : ParseError :=
  ⟨"Too many arguments!", String.ofList ('b' :: List.replicate 80 'a'), 37, none⟩

theorem annotated_marks_at_reach :
    80 < atReach.input.length ∧ atReach.position < atReach.input.length ∧
    ∃ start stop lead trail,
      window.Cuts atReach.input.toList atReach.line atReach.position start stop lead trail ∧
      start = atReach.position - 37 ∧
      (lead = true ↔ start ≠ 0 ∨ atReach.position = 37) ∧
      (trail = true ↔ stop ≠ atReach.input.length) := by
  have long : 80 < atReach.input.length := by decide +kernel
  have inside : atReach.position < atReach.input.length := by decide +kernel
  exact ⟨long, inside, (annotated_marks atReach long inside).2⟩

/-- There the line begins with a mark, though nothing of the input is left out in front of it. -/
theorem marked_before_first :
    80 < atReach.input.length ∧ atReach.position < atReach.input.length ∧
    ¬ ∃ start stop lead trail,
      window.Cuts atReach.input.toList atReach.line atReach.position start stop lead trail ∧
      (lead = true ↔ start ≠ 0) ∧ (trail = true ↔ stop ≠ atReach.input.length) := by
  refine ⟨by decide +kernel, by decide +kernel, ?_⟩
  rintro ⟨start, stop, lead, trail, cuts, front, -⟩
  have input : atReach.input.toList = 'b' :: List.replicate 80 'a' := String.toList_ofList
  have first := cuts.getElem?_lead
  rw [input] at first
  cases lead with
  | false =>
      -- Without a mark the line would begin with a character of the input.
      have begins : start = 0 := by simpa using front
      have dot : atReach.line[0]? = some '.' := by decide +kernel
      rw [begins] at first
      exact absurd (dot.symm.trans first) (by decide)
  | true =>
      -- Behind the mark stands the first character, which occurs nowhere else.
      have later : start ≠ 0 := front.mp rfl
      have start_le : start ≤ 37 := cuts.start_le
      have letter : atReach.line[3]? = some 'b' := by decide +kernel
      obtain ⟨k, rfl⟩ := Nat.exists_eq_succ_of_ne_zero later
      rw [List.getElem?_cons_succ, List.getElem?_replicate_of_lt (by omega)] at first
      exact absurd (letter.symm.trans first) (by decide)

end CommandGrammar.ParseError
