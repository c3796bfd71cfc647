import CommandGrammar.Proofs.Duration.Exact
import CommandGrammar.Value

/-!
# Texts of durations

The text of a duration is a written duration of seconds only, and so it is read as that duration. A
fraction has nine digits less the zeros at its end, which stand for the same nanoseconds.
-/

namespace CommandGrammar.Duration

/-! ## Fractions -/

/-- Digits without the zeros at their end. -/
def stripped (ds : List Char) : List Char :=
  (ds.reverse.dropWhile (· == '0')).reverse

theorem eq_stripped_append (ds : List Char) :
    ∃ k, ds = stripped ds ++ List.replicate k '0' := by
  have zeros : ∀ c ∈ ds.reverse.takeWhile (· == '0'), c = '0' := fun c there =>
    eq_of_beq (List.all_eq_true.mp List.all_takeWhile c there)
  have whole : (ds.reverse.takeWhile (· == '0') ++ ds.reverse.dropWhile (· == '0')).reverse = ds := by
    rw [List.takeWhile_append_dropWhile, List.reverse_reverse]
  rw [List.reverse_append, List.eq_replicate_of_mem zeros, List.reverse_replicate] at whole
  exact ⟨_, whole.symm⟩

/-- The zeros at the end of nine digits are made up for by the power of ten. -/
theorem ofDigitChars_stripped {ds : List Char} (nine : ds.length = 9) :
    Nat.ofDigitChars 10 (stripped ds) 0 * Nat.pow 10 (9 - (stripped ds).length) =
      Nat.ofDigitChars 10 ds 0 := by
  obtain ⟨k, whole⟩ := eq_stripped_append ds
  have count : 9 - (stripped ds).length = k := by
    have length := congrArg List.length whole
    rw [List.length_append, List.length_replicate] at length
    omega
  calc Nat.ofDigitChars 10 (stripped ds) 0 * Nat.pow 10 (9 - (stripped ds).length)
      = Nat.pow 10 k * Nat.ofDigitChars 10 (stripped ds) 0 := by rw [count, Nat.mul_comm]
    _ = Nat.ofDigitChars 10 (stripped ds ++ List.replicate k '0') 0 := by
        rw [Nat.ofDigitChars_append, Nat.ofDigitChars_replicate_zero]
        rfl
    _ = Nat.ofDigitChars 10 ds 0 := by rw [← whole]

namespace Fraction

variable {nano : Nat}

/-- The fraction that so many nanoseconds are written as. -/
def ofNanos (nano : Nat) (small : nano < Nat.pow 10 9) : Fraction where
  mark := '.'
  digits := stripped (Numeral.padded 9 nano).toList
  decimal := by
    refine List.all_eq_true.mpr fun c there => ?_
    have digit := (List.dropWhile_sublist _).subset (List.mem_reverse.mp there)
    exact Numeral.isDigit_of_mem_padded (List.mem_reverse.mp digit)
  short := by
    have fewer := (List.dropWhile_sublist (· == '0')
      (l := (Numeral.padded 9 nano).toList.reverse)).length_le
    rw [List.length_reverse, Numeral.length_padded (by decide) small] at fewer
    rwa [stripped, List.length_reverse]

theorem nanos_ofNanos (small : nano < Nat.pow 10 9) : (ofNanos nano small).nanos = nano := by
  rw [nanos, ofNanos, ofDigitChars_stripped (Numeral.length_padded (by decide) small),
    Numeral.ofDigitChars_padded]

/-- The same, left out when it is nothing. -/
def shown (nano : Nat) (small : nano < Nat.pow 10 9) : Option Fraction :=
  if nano = 0 then none else some (ofNanos nano small)

theorem worth_shown (small : nano < Nat.pow 10 9) : worth (shown nano small) = nano := by
  unfold shown
  split
  · rename_i zero
    exact zero.symm
  · exact nanos_ofNanos small

theorem toList_fractionText (small : nano < Nat.pow 10 9) :
    (fractionText nano).toList = (shown nano small).elim [] chars := by
  unfold fractionText shown
  split
  · rfl
  · have point : ".".toList = ['.'] := rfl
    simp only [String.toList_append, String.toList_ofList, point, List.singleton_append,
      Option.elim_some, chars, ofNanos, stripped]

end Fraction

/-! ## Forms of the text -/

/-- A number without a sign. -/
def Number.ofNat (n : Nat) : Number where
  sign := none
  digits := Nat.toDigits 10 n
  nonempty := Nat.toDigits_ne_nil
  decimal := List.all_eq_true.mpr fun _ => Numeral.isDigit_of_mem_toDigits

theorem Number.value_ofNat (n : Nat) : (ofNat n).value = n := by
  rw [value, ofNat, size, Nat.ofDigitChars_ten_toDigits]
  rfl

/-- A sign, whole seconds and a fraction. -/
def written (d : Duration) : Written where
  sign := if d.nanos < 0 then some .minus else none
  seconds := some (.ofNat (d.nanos.natAbs / Nat.pow 10 9),
    Fraction.shown (d.nanos.natAbs % Nat.pow 10 9) (Nat.mod_lt _ (by decide)))
  present := .inr (.inr (.inr rfl))

theorem toList_text {d : Duration} (nonzero : d.nanos ≠ 0) :
    d.text.toList = d.written.chars true true := by
  have sign : (if d.nanos < 0 then "-" else "").toList = Sign.chars d.written.sign := by
    unfold written
    split <;> rfl
  have second : 0 < Nat.pow 10 9 := by decide
  have fraction := Fraction.toList_fractionText (Nat.mod_lt d.nanos.natAbs second)
  have marks : "PT".toList = ['P', 'T'] := rfl
  have last : "S".toList = ['S'] := rfl
  rw [text, if_neg nonzero]
  simp only [String.toList_append, sign, fraction, marks, last, Nat.toString_eq_ofList_toDigits,
    String.toList_ofList]
  simp [Written.chars, Written.body, Written.clock, Written.second, Written.timed, written,
    component, Number.chars, Number.ofNat, Sign.chars]

theorem nanos_written (d : Duration) : d.written.nanos = d.nanos := by
  have billion : Nat.pow 10 9 = 1000000000 := rfl
  have billion' : Int.pow 10 9 = 1000000000 := rfl
  have whole : d.written.whole = (d.nanos.natAbs / Nat.pow 10 9 : Nat) := by
    simp [Written.whole, written, Number.worth, Number.value_ofNat]
  have part : d.written.part = (d.nanos.natAbs % Nat.pow 10 9 : Nat) := by
    rw [Written.part, written, Option.elim_some, Fraction.worth_shown]
    rfl
  rw [Written.nanos, whole, part, billion, billion', Sign.put, written]
  by_cases negative : d.nanos < 0
  · rw [if_pos negative, if_pos rfl]
    omega
  · have plain : ¬(none : Option Sign) = some .minus := by decide
    rw [if_neg negative, if_neg plain]
    omega

/-- Capitals are their own capitals. -/
theorem Written.map_toUpper_chars (w : Written) (period time : Bool) :
    (w.chars period time).map Char.toUpper = w.chars period time := by
  refine (List.map_congr_left fun c there => ?_).trans (List.map_id _)
  rcases mem_chars there with figure | letter
  · exact toUpper_of_figure figure
  · simp only [List.mem_cons, List.not_mem_nil, or_false] at letter
    rcases letter with rfl | rfl | rfl | rfl | rfl | rfl <;> rfl

theorem size_written (d : Duration) : ∀ n ∈ d.written.numbers, n.size < Nat.pow 10 18 := by
  intro n there
  have large : Nat.pow 10 18 = 1000000000000000000 := rfl
  have billion : Nat.pow 10 9 = 1000000000 := rfl
  have limit_eq : limit = 9223372036854775807000000 := rfl
  have only : n = Number.ofNat (d.nanos.natAbs / Nat.pow 10 9) := List.mem_singleton.mp there
  have range := d.inRange
  rw [only, Number.size, Number.ofNat, Nat.ofDigitChars_ten_toDigits, large, billion]
  omega

/-- Every duration is read back from its text. -/
theorem ofString?_text (d : Duration) : ofString? (Value.duration d).text = some d := by
  have back : ofNanos? d.nanos = some d := ofNanos?_nanos d
  by_cases zero : d.nanos = 0
  · have text : (Value.duration d).text = "P0D" := if_pos zero
    let w : Written := { days := some { sign := none, digits := ['0'] } }
    have spelled : w.Spells true true "P0D" := by rfl
    have read := Written.ofString?_of_spells spelled nofun (by decide)
    rw [text, read, ← back, zero]
    rfl
  · have spelled : d.written.Spells true true d.text := by
      rw [Written.Spells, toList_text zero, Written.map_toUpper_chars]
    have read := Written.ofString?_of_spells spelled nofun (size_written d)
    rw [nanos_written, back] at read
    exact read

end CommandGrammar.Duration
