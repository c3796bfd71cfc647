import CommandGrammar.Proofs.Duration.Written
import CommandGrammar.Proofs.Text.Capitals

/-!
# Reading written durations

Every written duration, whichever of its marks are left out and whatever the case of its letters, is
read as its components. Without the mark `P` and a sign in front, the first number must be without a
sign: it would be taken for the sign of the whole.
-/

namespace CommandGrammar.Duration

variable {c letter : Char} {rest : List Char} {w : Written} {period time : Bool} {s : String}

/-! ## Numbers -/

theorem splitSign_of_head {cs : List Char} (bare : ∀ c ∈ cs.head?, c ≠ '-' ∧ c ≠ '+') :
    splitSign cs = (none, cs) := by
  unfold splitSign
  split
  · exact absurd rfl (bare '-' rfl).1
  · exact absurd rfl (bare '+' rfl).2
  · rfl

theorem splitSign_chars (s : Option Sign) {cs : List Char}
    (bare : s = none → ∀ c ∈ cs.head?, c ≠ '-' ∧ c ≠ '+') :
    splitSign (Sign.chars s ++ cs) = (s.map Sign.char, cs) := by
  rcases s with _ | _ | _
  · exact splitSign_of_head (bare rfl)
  · rfl
  · rfl

theorem Sign.minus_iff (s : Option Sign) :
    (s.map Sign.char == some '-') = decide (s = some .minus) := by
  rcases s with _ | _ | _ <;> decide

/-- Without a sign a number starts with a digit. -/
theorem Number.head_digits (n : Number) : ∀ c ∈ (n.digits ++ rest).head?, c ≠ '-' ∧ c ≠ '+' := by
  intro c head
  have digit : c.isDigit = true := by
    obtain ⟨d, ds, digits⟩ := List.exists_cons_of_ne_nil n.nonempty
    rw [digits] at head
    cases head
    exact n.isDigit c (digits ▸ List.mem_cons_self)
  constructor
  all_goals
    rintro rfl
    contradiction

/-- A character that is no digit ends a number in front of it. -/
theorem stops_of_not_isDigit (h : c.isDigit = false) :
    ∀ d ∈ (c :: rest).head?, d.isDigit = false := by
  rintro d ⟨⟩
  exact h

theorem readAmount_chars (n : Number) (stop : ∀ c ∈ rest.head?, c.isDigit = false) :
    readAmount (n.chars ++ rest) = some (n.amount, rest) := by
  have split : splitSign (n.chars ++ rest) = (n.sign.map Sign.char, n.digits ++ rest) := by
    rw [Number.chars, List.append_assoc]
    exact splitSign_chars n.sign fun _ => n.head_digits
  simp only [readAmount, split, Numeral.takeWhile_digits n.isDigit stop,
    Numeral.natural_ten n.isDigit n.nonempty, Option.map_some, List.drop_left, Sign.minus_iff]
  rfl

theorem readComponent_self (n : Number) (letter_ne : letter.isDigit = false) :
    readComponent letter (n.chars ++ letter :: rest) = (some n.amount, rest) := by
  rw [readComponent, readAmount_chars n (stops_of_not_isDigit letter_ne)]
  exact if_pos rfl

theorem readComponent_other (n : Number) (stop : c.isDigit = false) (other : c ≠ letter) :
    readComponent letter (n.chars ++ c :: rest) = (none, n.chars ++ c :: rest) := by
  rw [readComponent, readAmount_chars n (stops_of_not_isDigit stop)]
  exact if_neg other

/-- A component is read where the rest does not start with one of its kind. -/
theorem readComponent_component (n : Option Number) (letter_ne : letter.isDigit = false)
    (apart : readComponent letter rest = (none, rest)) :
    readComponent letter (component letter n ++ rest) = (n.map Number.amount, rest) := by
  cases n with
  | none => exact apart
  | some n =>
      rw [component, Option.elim_some, List.append_assoc]
      exact readComponent_self n letter_ne

/-! ## The clock -/

theorem Fraction.isDigit_mark (f : Fraction) : f.mark.isDigit = false := by
  rcases f.marked with mark | mark <;> rw [mark] <;> decide

/-- The mark of a fraction stands right behind the number of seconds. -/
theorem Fraction.append_chars (f : Fraction) (cs rest : List Char) :
    cs ++ f.chars ++ rest = cs ++ f.mark :: (f.digits ++ rest) := by
  rw [List.append_assoc]
  rfl

theorem readFraction_chars (f : Fraction) :
    readFraction (f.digits ++ 'S' :: rest) = some (f.nanos, 'S' :: rest) := by
  have stop : ∀ c ∈ ('S' :: rest).head?, c.isDigit = false := stops_of_not_isDigit rfl
  simp only [readFraction, Numeral.takeWhile_digits f.isDigit stop, if_pos f.short,
    Numeral.digitsFrom_ten f.isDigit, Option.map_some, List.drop_left]
  rfl

namespace Written

theorem readSeconds_second (w : Written) :
    readSeconds w.second = (w.components.seconds, w.components.fraction, []) := by
  unfold second components
  rcases w.seconds with _ | ⟨n, _ | f⟩
  · rfl
  · have read : readAmount (n.chars ++ ['S']) = some (n.amount, ['S']) :=
      readAmount_chars n (stops_of_not_isDigit rfl)
    simp only [Option.elim_some, Option.elim_none, List.append_nil, readSeconds, read]
    rfl
  · -- The reader looks for its letter first, and a mark is none.
    have other : f.mark ≠ 'S' := by
      rcases f.marked with mark | mark <;> rw [mark] <;> decide
    simp only [Option.elim_some, f.append_chars, readSeconds,
      readAmount_chars n (stops_of_not_isDigit f.isDigit_mark)]
    rw [if_pos f.marked, readFraction_chars f]
    rfl

/-- The seconds start with a number before a point, a comma or their letter. -/
theorem readComponent_second (w : Written) (other : letter ∉ ['S', '.', ',']) :
    readComponent letter w.second = (none, w.second) := by
  unfold second
  rcases w.seconds with _ | ⟨n, _ | f⟩
  · rfl
  · simp only [Option.elim_some, Option.elim_none, List.append_nil]
    exact readComponent_other n rfl fun same => other (same ▸ List.mem_cons_self)
  · have mark : f.mark ∈ ['S', '.', ','] := by
      rcases f.marked with mark | mark <;> rw [mark] <;> decide
    simp only [Option.elim_some, f.append_chars]
    exact readComponent_other n f.isDigit_mark fun same => other (same ▸ mark)

theorem readClock_clock (w : Written) (negative : Bool) (days : Option Amount) :
    readClock negative days w.clock =
      some ⟨negative, days, true, w.components.hours, w.components.minutes, w.components.seconds,
        w.components.fraction⟩ := by
  have minutes : readComponent 'M' (component 'M' w.minutes ++ w.second) =
      (w.minutes.map Number.amount, w.second) :=
    readComponent_component w.minutes rfl (w.readComponent_second (by decide))
  have apart : readComponent 'H' (component 'M' w.minutes ++ w.second) =
      (none, component 'M' w.minutes ++ w.second) := by
    cases w.minutes with
    | none => exact w.readComponent_second (by decide)
    | some n =>
        rw [component, Option.elim_some, List.append_assoc]
        exact readComponent_other n rfl (by decide)
  simp only [readClock, clock, readComponent_component w.hours rfl apart, minutes,
    readSeconds_second, List.isEmpty_nil, if_true]
  rfl

/-! ## The whole -/

theorem readComponents_body (w : Written) :
    readComponents (w.sign.map Sign.char) (w.body true true) = some w.components := by
  cases timed : w.timed with
  | true =>
      have apart : readComponent 'D' ('T' :: w.clock) = (none, 'T' :: w.clock) := rfl
      have body : w.body true true = 'P' :: (component 'D' w.days ++ 'T' :: w.clock) := by
        simp [Written.body, timed]
      simp only [body, readComponents, readComponent_component w.days rfl apart, readClock_clock,
        Sign.minus_iff]
      simp only [components, timed]
  | false =>
      have apart : readComponent 'D' [] = (none, []) := rfl
      have body : w.body true true = 'P' :: (component 'D' w.days ++ []) := by
        simp [Written.body, timed, clock_eq_nil timed]
      simp only [body, readComponents, readComponent_component w.days rfl apart, Sign.minus_iff]
      simp only [Written.timed, Bool.or_eq_false_iff, Option.isSome_eq_false_iff,
        Option.isNone_iff_eq_none] at timed
      simp [components, Written.timed, timed]

theorem complete_components (w : Written) : w.components.complete = true := by
  have present := w.present
  simp only [Components.complete, components, Option.isSome_map, timed, Bool.or_eq_true,
    Bool.and_eq_true, Bool.not_eq_true']
  cases timed : w.hours.isSome || w.minutes.isSome || w.seconds.isSome with
  | true => exact .inl (by simpa [or_assoc] using timed)
  | false =>
      simp only [Bool.or_eq_false_iff] at timed
      simp only [timed, Bool.false_eq_true, or_false] at present
      exact .inr ⟨present, rfl⟩

/-- The first number stands at the start of the text without its marks. -/
theorem exists_first (w : Written) :
    ∃ n rest, w.numbers.head? = some n ∧ component 'D' w.days ++ w.clock = n.chars ++ rest := by
  obtain ⟨sign, days, hours, minutes, seconds, present⟩ := w
  simp only [numbers, clock, second]
  rcases days with _ | n
  · rcases hours with _ | n
    · rcases minutes with _ | n
      · rcases seconds with _ | ⟨n, f⟩
        · simp at present
        · exact ⟨n, f.elim [] Fraction.chars ++ ['S'], rfl, List.append_assoc _ _ _⟩
      · exact ⟨n, _, rfl, List.append_assoc n.chars _ _⟩
    · exact ⟨n, _, rfl, List.append_assoc n.chars _ _⟩
  · exact ⟨n, _, rfl, List.append_assoc n.chars _ _⟩

/-- Without a sign in front of it, the text without the mark `P` starts with a digit or a `T`. -/
theorem head_body (bare : ∀ n ∈ w.numbers.head?, n.sign = none) :
    ∀ c ∈ (w.body false time).head?, c ≠ '-' ∧ c ≠ '+' := by
  obtain ⟨n, rest, first, start⟩ := w.exists_first
  have unsigned : n.chars = n.digits := by
    rw [Number.chars, bare n first]
    rfl
  rw [unsigned] at start
  cases marked : time && w.timed with
  | false =>
      have body : w.body false time = n.digits ++ rest := by
        simp [Written.body, marked, start]
      rw [body]
      exact n.head_digits
  | true =>
      cases days : w.days with
      | none =>
          have body : w.body false time = 'T' :: w.clock := by
            simp [Written.body, marked, component, days]
          rw [body]
          rintro c ⟨⟩
          decide
      | some m =>
          have same : m = n := by
            simpa [numbers, days] using first
          have body : w.body false time = n.digits ++ ('D' :: 'T' :: w.clock) := by
            simp [Written.body, marked, component, days, same, unsigned]
          rw [body]
          exact n.head_digits

end Written

/-- The components of a text with or without its marks, if they make a duration. -/
def components? (s : String) : Option Components :=
  let (sign, body) := splitSign (Text.uppercase s).toList
  (readComponents sign (restoreMarks body)).filter Components.complete

theorem ofString?_eq_bind (s : String) :
    ofString? s = (components? s).bind fun c => c.total.bind ofNanos? := by
  simp only [ofString?, components?, Option.bind_eq_bind]
  cases readComponents (splitSign (Text.uppercase s).toList).1
      (restoreMarks (splitSign (Text.uppercase s).toList).2) with
  | none => rfl
  | some c =>
      rw [Option.bind_some, Option.filter_some]
      split <;> rfl

/-- A written duration is read as its components, whichever of its marks it has. -/
theorem Written.components?_of_spells (spelled : w.Spells period time s)
    (bare : period = false → w.sign = none → ∀ n ∈ w.numbers.head?, n.sign = none) :
    components? s = some w.components := by
  have capitals : (Text.uppercase s).toList = w.chars period time := by
    rw [← spelled]
    refine Text.toList_uppercase fun c there => ?_
    rw [spelled] at there
    exact ascii_of_mem_chars there
  have split : splitSign (w.chars period time) = (w.sign.map Sign.char, w.body period time) := by
    refine splitSign_chars w.sign fun none => ?_
    cases period with
    | true =>
        rintro c ⟨⟩
        decide
    | false => exact head_body (bare rfl none)
  simp only [components?, capitals, split, restoreMarks_body, readComponents_body,
    Option.filter_some, complete_components, if_true]

/-- Leaving out the mark `P`, the mark `T` or both, in letters of either case, changes nothing about
what a written duration is read as: neither its components nor the duration, nor that there is none. -/
theorem ofString?_shorthand {full short : String} (fully : w.Spells true true full)
    (shortly : w.Spells period time short)
    (bare : w.sign = none → ∀ n ∈ w.numbers.head?, n.sign = none) :
    components? short = some w.components ∧ ofString? short = ofString? full := by
  have read := w.components?_of_spells shortly fun _ => bare
  have whole := w.components?_of_spells fully nofun
  exact ⟨read, by rw [ofString?_eq_bind, ofString?_eq_bind, read, whole]⟩

/-- Days and a clock without marks, whose later numbers have signs of their own. -/
theorem ofString?_shorthand_of_both :
    let w : Written :=
      { days := some { sign := none, digits := ['1'] }
        hours := some { sign := some .minus, digits := ['2'] }
        seconds := some ({ sign := some .plus, digits := ['3'] },
          some { mark := '.', digits := ['5'] }) }
    w.Spells true true "P1DT-2H+3.5S" ∧ w.Spells false false "1d-2h+3.5s" ∧
      (w.sign = none → ∀ n ∈ w.numbers.head?, n.sign = none) ∧
      components? "1d-2h+3.5s" = some w.components ∧
      ofString? "1d-2h+3.5s" = ofString? "P1DT-2H+3.5S" := by
  intro w
  have fully : w.Spells true true "P1DT-2H+3.5S" := by rfl
  have shortly : w.Spells false false "1d-2h+3.5s" := by rfl
  have bare : w.sign = none → ∀ n ∈ w.numbers.head?, n.sign = none := by decide
  exact ⟨fully, shortly, bare, ofString?_shorthand fully shortly bare⟩

end CommandGrammar.Duration
