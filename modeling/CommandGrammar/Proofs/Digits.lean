import CommandGrammar.Numeral

/-!
# Decimal digits

A string of decimal digits is read as its positional value, up to the first character that is no
digit.
-/

namespace CommandGrammar.Numeral

variable {c : Char} {ds rest : List Char}

theorem isDigit_iff : c.isDigit = true ↔ '0' ≤ c ∧ c ≤ '9' := by
  simp [Char.isDigit, Char.le_def]

theorem toNat_digit_le (h : c.isDigit = true) : c.toNat - '0'.toNat ≤ 9 := by
  have most : c.toNat ≤ '9'.toNat := (isDigit_iff.mp h).2
  have nine : '9'.toNat = '0'.toNat + 9 := rfl
  omega

theorem digit_ten (h : c.isDigit = true) : digit 10 c = some (c.toNat - '0'.toNat) := by
  have small : c.toNat - '0'.toNat < 10 := Nat.lt_succ_of_le (toNat_digit_le h)
  rw [digit, digitValue, if_pos (isDigit_iff.mp h), Option.filter_some,
    if_pos (decide_eq_true small)]

/-- The value of digits, read on from the value of the digits before them. -/
theorem digitsFrom_ten (decimal : ∀ c ∈ ds, c.isDigit = true) (acc : Nat) :
    digitsFrom 10 acc ds = some (Nat.ofDigitChars 10 ds acc) := by
  induction ds generalizing acc with
  | nil => rfl
  | cons c ds ih =>
      rw [digitsFrom, digit_ten (decimal c List.mem_cons_self), Option.bind_some,
        ih (fun d there => decimal d (List.mem_cons_of_mem c there)), Nat.ofDigitChars_cons,
        Nat.mul_comm]

theorem natural_ten (decimal : ∀ c ∈ ds, c.isDigit = true) (nonempty : ds ≠ []) :
    natural 10 ds = some (Nat.ofDigitChars 10 ds 0) := by
  cases ds with
  | nil => exact absurd rfl nonempty
  | cons c ds => exact digitsFrom_ten decimal 0

/-- So many digits stay below that power of ten. -/
theorem ofDigitChars_lt (decimal : ∀ c ∈ ds, c.isDigit = true) :
    Nat.ofDigitChars 10 ds 0 < Nat.pow 10 ds.length := by
  induction ds with
  | nil => decide
  | cons c ds ih =>
      have head := toNat_digit_le (decimal c List.mem_cons_self)
      have rest := ih fun d there => decimal d (List.mem_cons_of_mem c there)
      calc Nat.ofDigitChars 10 (c :: ds) 0
          = Nat.pow 10 ds.length * (c.toNat - '0'.toNat) + Nat.ofDigitChars 10 ds 0 := by
            rw [Nat.ofDigitChars_cons, Nat.mul_zero, Nat.zero_add]
            exact Nat.ofDigitChars_eq_ofDigitChars_zero
        _ < Nat.pow 10 ds.length * (c.toNat - '0'.toNat) + Nat.pow 10 ds.length :=
            Nat.add_lt_add_left rest _
        _ = Nat.pow 10 ds.length * (c.toNat - '0'.toNat + 1) := (Nat.mul_succ _ _).symm
        _ ≤ Nat.pow 10 ds.length * 10 := Nat.mul_le_mul_left _ (Nat.succ_le_succ head)
        _ = Nat.pow 10 (c :: ds).length := rfl

/-- Digits are read up to the first character that is none. -/
theorem takeWhile_digits (decimal : ∀ c ∈ ds, c.isDigit = true)
    (stop : ∀ c ∈ rest.head?, c.isDigit = false) :
    (ds ++ rest).takeWhile Char.isDigit = ds := by
  rw [List.takeWhile_append_of_pos decimal]
  cases rest with
  | nil => rw [List.takeWhile_nil, List.append_nil]
  | cons c rest =>
      have other : c.isDigit = false := stop c rfl
      rw [List.takeWhile_cons, other, if_neg Bool.false_ne_true, List.append_nil]

/-! ## Written numbers -/

theorem isDigit_of_mem_toDigits {n : Nat} (h : c ∈ Nat.toDigits 10 n) : c.isDigit = true :=
  Nat.isDigit_of_mem_toDigits (by decide) (by decide) h

theorem isDigit_of_mem_padded {width n : Nat} (h : c ∈ (padded width n).toList) :
    c.isDigit = true := by
  rw [padded, String.toList_ofList] at h
  rcases List.mem_append.mp h with zero | digit
  · rw [List.eq_of_mem_replicate zero]
    rfl
  · exact isDigit_of_mem_toDigits digit

theorem padded_ne_nil (width n : Nat) : (padded width n).toList ≠ [] := by
  rw [padded, String.toList_ofList]
  exact List.append_ne_nil_of_right_ne_nil _ Nat.toDigits_ne_nil

/-- Zeros in front of a number do not change it. -/
theorem ofDigitChars_padded (width n : Nat) : Nat.ofDigitChars 10 (padded width n).toList 0 = n := by
  rw [padded, String.toList_ofList, Nat.ofDigitChars_append, Nat.ofDigitChars_replicate_zero,
    Nat.mul_zero, Nat.ofDigitChars_ten_toDigits]

theorem length_padded {width n : Nat} (pos : 0 < width) (small : n < Nat.pow 10 width) :
    (padded width n).toList.length = width := by
  have fits : (Nat.toDigits 10 n).length ≤ width := (Nat.length_toDigits_le_iff (by decide) pos).mpr small
  rw [padded, String.toList_ofList, List.length_append, List.length_replicate]
  omega

end CommandGrammar.Numeral
