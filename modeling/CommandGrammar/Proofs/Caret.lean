import CommandGrammar.Error

/-!
# The caret under an error

An error shows its input in one line and a caret below it. Input that is too long is shown through a
window, which is cut out of it without reaching over its ends; the line never gets longer than the
window is wide, and the caret stands under the character at the place of the error.

For places in the input, and not far behind it, that is what every machine shows. The place is not
checked, though. Under a short line the caret stands wherever the place says, however many spaces
that takes, and for long input the end of the window may lie beyond the last word: then a machine
shows nothing.
-/

namespace CommandGrammar.ParseError

/-! ## Cutting within bounds -/

theorem cut?_of_within {cs : List Char} {start stop : Nat} (ordered : start ≤ stop)
    (within : stop ≤ cs.length) : cut? cs start stop = some ((cs.take stop).drop start) :=
  if_pos ⟨ordered, within⟩

/-- A window has room for both marks around as many characters as it keeps. -/
structure Window.Fits (w : Window) : Prop where
  radius_pos : 0 < w.radius
  room : 2 * (w.ellipsis.toList.length + w.radius) ≤ w.width

theorem window_fits : window.Fits where
  radius_pos := by decide
  room := by decide

variable {m : Machine} {w : Window} {input : List Char} {position sum : Nat}

/-- What the window around a place shows if it stops before `sum`, or with the input. -/
def Window.around (w : Window) (input : List Char) (position sum : Nat) : List Char :=
  w.ellipsis.toList ++ (input.take (min sum input.length)).drop (position - w.radius) ++
    if min sum input.length < input.length then w.ellipsis.toList else []

/-! ## The three cases -/

theorem shown_whole (short : input.length ≤ w.width) :
    shown w input position = (input, position) := by
  rw [shown, if_pos short]

theorem shown_start (long : w.width < input.length) (early : position < w.radius) :
    shown w input position =
      (input.take (w.width - w.ellipsis.toList.length) ++ w.ellipsis.toList, position) := by
  rw [shown, if_neg (Nat.not_le_of_lt long), if_pos early]

/-- Where the slice around a place starts and stops. -/
theorem shown_around (long : w.width < input.length) (late : w.radius ≤ position) :
    shown w input position =
      (w.around input position (position + w.radius), w.ellipsis.toList.length + w.radius) := by
  rw [shown, if_neg (Nat.not_le_of_lt long), if_neg (Nat.not_lt_of_le late)]
  rfl

/-- A part that would start behind its end is empty, as one that starts at its end is. -/
theorem drop_min_take (cs : List Char) (start stop : Nat) (within : stop ≤ cs.length) :
    (cs.take stop).drop (min start stop) = (cs.take stop).drop start := by
  have length : (cs.take stop).length = stop := List.length_take_of_le within
  by_cases inside : start ≤ stop
  · rw [Nat.min_eq_left inside]
  · have behind : stop ≤ start := Nat.le_of_not_le inside
    rw [Nat.min_eq_right behind, List.drop_eq_nil_of_le (Nat.le_of_eq length),
      List.drop_eq_nil_of_le (by omega)]

theorem shown?_whole (short : input.length ≤ w.width) :
    shown? m w input position = some (input, position) := by
  rw [shown?, if_pos short]

theorem shown?_start (long : w.width < input.length) (early : position < w.radius) :
    shown? m w input position =
      some (input.take (w.width - w.ellipsis.toList.length) ++ w.ellipsis.toList, position) := by
  have within : w.width - w.ellipsis.toList.length ≤ input.length := by omega
  rw [shown?, if_neg (Nat.not_le_of_lt long), if_pos early,
    cut?_of_within (Nat.zero_le _) within]
  rfl

/-- Whatever comes out as the end of the window, no part of the input is asked for that does not
stand in it. -/
theorem shown?_around (long : w.width < input.length) (late : w.radius ≤ position) :
    shown? m w input position =
      (m.add? position w.radius).map fun sum =>
        (w.around input position sum, w.ellipsis.toList.length + w.radius) := by
  rw [shown?, if_neg (Nat.not_le_of_lt long), if_neg (Nat.not_lt_of_le late)]
  cases m.add? position w.radius with
  | none => rfl
  | some sum =>
      have within : min sum input.length ≤ input.length := Nat.min_le_right _ _
      simp only [Option.bind_eq_bind, Option.bind_some, Option.map_some]
      rw [cut?_of_within (Nat.min_le_right _ _) within, drop_min_take _ _ _ within]
      rfl

/-- A machine shows nothing of long input exactly where it stops at the end of the window. -/
theorem shown?_eq_none_iff :
    shown? m w input position = none ↔
      m.overflow = .stops ∧ w.width < input.length ∧ w.radius ≤ position ∧
        Machine.word ≤ position + w.radius := by
  by_cases short : input.length ≤ w.width
  · simp [shown?_whole short, Nat.not_lt_of_le short]
  · have long : w.width < input.length := Nat.lt_of_not_le short
    by_cases early : position < w.radius
    · simp [shown?_start long early, Nat.not_le_of_lt early]
    · have late : w.radius ≤ position := Nat.le_of_not_lt early
      simp [shown?_around long late, Machine.add?_eq_none_iff, long, late]

/-- Where the end of the window is a word, it is shown as it should be. -/
theorem shown?_eq (small : position + w.radius < Machine.word) :
    shown? m w input position = some (shown w input position) := by
  by_cases short : input.length ≤ w.width
  · rw [shown?_whole short, shown_whole short]
  · have long : w.width < input.length := Nat.lt_of_not_le short
    by_cases early : position < w.radius
    · rw [shown?_start long early, shown_start long early]
    · have late : w.radius ≤ position := Nat.le_of_not_lt early
      rw [shown?_around long late, shown_around long late, m.add?_of_lt small]
      rfl

/-- A line that is cut is no longer than its window is wide, and its place is in the window. -/
theorem length_shown? (fits : w.Fits) (long : w.width < input.length) {line : List Char}
    {column : Nat} (found : shown? m w input position = some (line, column)) :
    line.length ≤ w.width ∧ column ≤ w.ellipsis.toList.length + w.radius := by
  have room := fits.room
  by_cases early : position < w.radius
  · rw [shown?_start long early] at found
    cases found
    rw [List.length_append, List.length_take]
    omega
  · have late : w.radius ≤ position := Nat.le_of_not_lt early
    rw [shown?_around long late] at found
    obtain ⟨sum, added, cut⟩ := Option.map_eq_some_iff.mp found
    cases cut
    have most : sum ≤ position + w.radius := Machine.le_of_add? added
    have trail : (if min sum input.length < input.length then w.ellipsis.toList
        else []).length ≤ w.ellipsis.toList.length := by
      split
      · exact Nat.le_refl _
      · exact Nat.zero_le _
    rw [Window.around, List.length_append, List.length_append, List.length_drop, List.length_take]
    omega

/-- The character in the caret's column is the one at the place of the error. -/
theorem getElem?_shown (fits : w.Fits) (inside : position < input.length) :
    (shown w input position).1[(shown w input position).2]? = input[position]? := by
  have pos := fits.radius_pos
  have room := fits.room
  by_cases short : input.length ≤ w.width
  · rw [shown_whole short]
  · have long : w.width < input.length := Nat.lt_of_not_le short
    by_cases early : position < w.radius
    · have before : position < (input.take (w.width - w.ellipsis.toList.length)).length := by
        rw [List.length_take]
        omega
      rw [shown_start long early]
      dsimp only
      rw [List.getElem?_append_left before, List.getElem?_take_of_lt (by omega)]
    · have late : w.radius ≤ position := Nat.le_of_not_lt early
      have column : w.radius < ((input.take (min (position + w.radius) input.length)).drop
          (position - w.radius)).length := by
        rw [List.length_drop, List.length_take]
        omega
      have place : position - w.radius + w.radius = position := by omega
      rw [shown_around long late]
      dsimp only [Window.around]
      rw [List.append_assoc, List.getElem?_append_right (Nat.le_add_right _ _),
        Nat.add_sub_cancel_left, List.getElem?_append_left column, List.getElem?_drop, place,
        List.getElem?_take_of_lt (by omega)]

/-! ## The shown error -/

/-- A text has at least as many bytes as characters. -/
theorem length_le_utf8ByteSize (cs : List Char) : cs.length ≤ (String.ofList cs).utf8ByteSize := by
  induction cs with
  | nil => exact Nat.zero_le _
  | cons c cs ih =>
      have byte : 0 < c.utf8Size := c.utf8Size_pos
      rw [String.ofList_cons, String.utf8ByteSize_append, String.utf8ByteSize_singleton,
        List.length_cons]
      omega

theorem utf8ByteSize_spaces (n : Nat) :
    (String.ofList (List.replicate n ' ')).utf8ByteSize = n := by
  induction n with
  | zero => rfl
  | succ n ih =>
      rw [List.replicate_succ, String.ofList_cons, String.utf8ByteSize_append,
        String.utf8ByteSize_singleton, ih, Nat.add_comm]
      rfl

/-- A line, a line break, spaces and a caret. -/
theorem underlined_eq (line : List Char) (column : Nat) :
    String.ofList (line ++ '\n' :: List.replicate column ' ' ++ ['^']) =
      String.ofList line ++ "\n" ++ String.ofList (List.replicate column ' ') ++ "^" := by
  apply String.toList_inj.mp
  simp only [String.toList_ofList, String.toList_append, List.append_assoc, List.cons_append]
  rfl

/-- Room is asked for all that is shown. -/
theorem utf8ByteSize_underlined (line : List Char) (column : Nat) :
    (String.ofList (line ++ '\n' :: List.replicate column ' ' ++ ['^'])).utf8ByteSize =
      (String.ofList line).utf8ByteSize + column + 2 := by
  rw [underlined_eq, String.utf8ByteSize_append, String.utf8ByteSize_append,
    String.utf8ByteSize_append, utf8ByteSize_spaces]
  change _ + 1 + column + 1 = _
  omega

/-- An error at a place that is not too far for the machine is shown if there is room for it. -/
theorem annotated?_eq {e : ParseError} (small : e.position + window.radius < Machine.word)
    (room : e.annotated.utf8ByteSize ≤ m.room) : e.annotated? m = some e.annotated := by
  have fits := room
  rw [annotated, utf8ByteSize_underlined] at fits
  rw [annotated?, shown?_eq small]
  exact if_pos fits

/-- Then its message is the whole one. -/
theorem message?_eq {e : ParseError} (small : e.position + window.radius < Machine.word)
    (room : e.annotated.utf8ByteSize ≤ m.room) : e.message? m = some e.message := by
  unfold message? message
  split
  · rfl
  · rw [annotated?_eq small room]
    rfl

/-- Under an input that is shown as it is, there may be no room for the spaces. -/
theorem annotated?_of_lacking {e : ParseError} (short : e.input.toList.length ≤ window.width)
    (lacking : m.room < e.input.utf8ByteSize + e.position + 2) : e.annotated? m = none := by
  have more : ¬ (String.ofList e.input.toList).utf8ByteSize + e.position + 2 ≤ m.room := by
    rw [String.ofList_toList]
    exact Nat.not_le_of_lt lacking
  rw [annotated?, shown?_whole short]
  exact if_neg more

/-- The window around a place in an input that the machine holds ends at a word. -/
theorem small_of_held {e : ParseError} (held : e.input.utf8ByteSize ≤ m.room)
    (inside : e.position ≤ e.input.length) : e.position + window.radius < Machine.word := by
  have bytes : e.input.length ≤ e.input.utf8ByteSize := by
    have least := length_le_utf8ByteSize e.input.toList
    rwa [String.ofList_toList, String.length_toList] at least
  have room := m.room_lt
  have words : Nat.pow 2 63 + 37 ≤ Machine.word := by decide
  change e.position + 37 < _
  omega

/-- The machine stops where it looks for the end of the window. -/
def Stops (m : Machine) (e : ParseError) : Prop :=
  m.overflow = .stops ∧ 80 < e.input.length ∧ Machine.word ≤ e.position + 37

/-- Whatever its place is, an error in an input that the machine holds is shown as a line, a line
break, spaces and a caret, unless the end of the window stops the machine or it has no room for
them. The line is the input if that has at most eighty characters, and then there are as many spaces
as the place says; else it has at most eighty, with at most forty spaces. For every place within the
input, the character above the caret is the one at that place. An error that points into its input
is told as it is where words and memory do not run out, if there is room to show it. -/
theorem annotated_caret (m : Machine) (e : ParseError) (held : e.input.utf8ByteSize ≤ m.room) :
    (Stops m e → e.annotated? m = none) ∧
    (¬ Stops m e → ∃ (line : String) (column : Nat),
      e.annotated? m =
        (if line.utf8ByteSize + column + 2 ≤ m.room then
          some (line ++ "\n" ++ String.ofList (List.replicate column ' ') ++ "^")
        else none) ∧
      (e.input.length ≤ 80 → line = e.input ∧ column = e.position) ∧
      (80 < e.input.length → line.length ≤ 80 ∧ column ≤ 40) ∧
      (e.position < e.input.length → line.toList[column]? = e.input.toList[e.position]?)) ∧
    (e.position ≤ e.input.length → e.annotated.utf8ByteSize ≤ m.room →
      e.annotated? m = some e.annotated ∧ e.message? m = some e.message) := by
  have characters : e.input.toList.length = e.input.length := String.length_toList
  refine ⟨?_, ?_, ?_⟩
  · rintro ⟨stops, long, large⟩
    have words : 2 * 37 ≤ Machine.word := by decide
    have late : 37 ≤ e.position := by omega
    have nothing : shown? m window e.input.toList e.position = none :=
      shown?_eq_none_iff.mpr ⟨stops, characters ▸ long, late, large⟩
    rw [annotated?, nothing]
    rfl
  · intro goes
    have something : shown? m window e.input.toList e.position ≠ none := by
      intro nothing
      obtain ⟨stops, long, -, large⟩ := shown?_eq_none_iff.mp nothing
      exact goes ⟨stops, characters ▸ long, large⟩
    obtain ⟨⟨line, column⟩, found⟩ := Option.ne_none_iff_exists'.mp something
    refine ⟨String.ofList line, column, ?_, ?_, ?_, ?_⟩
    · rw [annotated?, found, ← underlined_eq]
      rfl
    · intro short
      rw [shown?_whole (characters ▸ short)] at found
      cases found
      exact ⟨String.ofList_toList, rfl⟩
    · intro long
      rw [String.length_ofList]
      exact length_shown? window_fits (characters ▸ long) found
    · intro inside
      have within : e.position < e.input.toList.length := characters ▸ inside
      rw [shown?_eq (small_of_held held (Nat.le_of_lt inside))] at found
      have same := getElem?_shown window_fits within
      rw [Option.some.inj found] at same
      rw [String.toList_ofList]
      exact same
  · intro inside room
    have small := small_of_held held inside
    exact ⟨annotated?_eq small room, message?_eq small room⟩

/-- On a machine that drops what is beyond a word, an error in the middle of a hundred characters. -/
theorem annotated_caret_of_middle :
    let m : Machine := { overflow := .wraps, room := Nat.pow 2 47 }
    let e : ParseError := ⟨"Too many arguments!", String.ofList (List.replicate 100 'a'), 50, none⟩
    e.input.utf8ByteSize ≤ m.room ∧ ¬ Stops m e ∧ (∃ (line : String) (column : Nat),
      e.annotated? m =
        (if line.utf8ByteSize + column + 2 ≤ m.room then
          some (line ++ "\n" ++ String.ofList (List.replicate column ' ') ++ "^")
        else none) ∧
      (e.input.length ≤ 80 → line = e.input ∧ column = e.position) ∧
      (80 < e.input.length → line.length ≤ 80 ∧ column ≤ 40) ∧
      (e.position < e.input.length → line.toList[column]? = e.input.toList[e.position]?)) ∧
      e.message? m = some e.message := by
  intro m e
  have held : e.input.utf8ByteSize ≤ m.room := by decide +kernel
  have goes : ¬ Stops m e := fun stops => nomatch stops.1
  obtain ⟨-, shown, whole⟩ := annotated_caret m e held
  exact ⟨held, goes, shown goes, (whole (by decide +kernel) (by decide +kernel)).2⟩

/-- Far behind a short line there is no room for the spaces, and at the last word there is none on any
machine. At the last word behind a long line, those that stop at what is beyond a word show nothing. -/
theorem unannotated_far_behind :
    (∀ m : Machine, m.room < Nat.pow 2 62 →
      (⟨"Not a number", "abc", Nat.pow 2 62, none⟩ : ParseError).annotated? m = none) ∧
    (∀ m : Machine,
      (⟨"Not a number", "abc", Machine.word - 1, none⟩ : ParseError).annotated? m = none) ∧
    ∀ m : Machine, m.overflow = .stops →
      (⟨"Too many arguments!", String.ofList (List.replicate 100 'a'), Machine.word - 1, none⟩ :
        ParseError).annotated? m = none := by
  refine ⟨fun m small => ?_, fun m => ?_, fun m stops => ?_⟩
  · exact annotated?_of_lacking (by decide) (by dsimp only; omega)
  · have room := m.room_lt
    have spaces : Nat.pow 2 63 ≤ Machine.word - 1 := by decide
    exact annotated?_of_lacking (by decide) (by dsimp only; omega)
  · have nothing : shown? m window (String.ofList (List.replicate 100 'a')).toList
        (Machine.word - 1) = none :=
      shown?_eq_none_iff.mpr ⟨stops, by decide +kernel, by decide, by decide⟩
    rw [annotated?, nothing]
    rfl

end CommandGrammar.ParseError
