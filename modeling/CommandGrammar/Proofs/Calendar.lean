import CommandGrammar.Calendar.DateTime
import CommandGrammar.Proofs.Digits

/-!
# Texts of date-times

A date-time is written as its date, a `T` and its time, each number with leading zeros and the
fraction in as few groups of three digits as it needs. The first of the forms that are tried reads all
of it back, and neither a time alone nor a date alone is read from it.
-/

namespace CommandGrammar

namespace DateTime

/-! ## Numbers -/

variable {ds rest : List Char} {width n : Nat} {c : Char}

theorem isBlank_digit (digit : c.isDigit = true) : Text.isBlank c = false := by
  have bounds := Numeral.isDigit_iff.mp digit
  have least : '0'.toNat ≤ c.toNat := bounds.1
  have most : c.toNat ≤ '9'.toNat := bounds.2
  have zero : '0'.toNat = 0x30 := rfl
  have nine : '9'.toNat = 0x39 := rfl
  simp only [Text.isBlank, Bool.or_eq_false_iff, Bool.and_eq_false_iff, decide_eq_false_iff_not,
    beq_eq_false_iff_ne]
  omega

theorem trimStart_of_not_blank (solid : Text.isBlank c = false) :
    Text.trimStart (c :: rest) = c :: rest := by
  rw [Text.trimStart, List.dropWhile_cons, solid, if_neg Bool.false_ne_true]

/-- Digits are not passed over as blanks. -/
theorem trimStart_digits (rest : List Char) (decimal : ∀ c ∈ ds, c.isDigit = true)
    (nonempty : ds ≠ []) : Text.trimStart (ds ++ rest) = ds ++ rest := by
  cases ds with
  | nil => exact absurd rfl nonempty
  | cons c ds => exact trimStart_of_not_blank (isBlank_digit (decimal c List.mem_cons_self))

/-- As many digits as may be read, or fewer before something else, are read as their number. -/
theorem digits_append (rest : List Char) (decimal : ∀ c ∈ ds, c.isDigit = true) (nonempty : ds ≠ [])
    (fits : ds.length ≤ width) (ends : ds.length = width ∨ ∀ c ∈ rest.head?, c.isDigit = false) :
    digits width (ds ++ rest) = some (Nat.ofDigitChars 10 ds 0, rest) := by
  have taken : ((ds ++ rest).take width).takeWhile Char.isDigit = ds := by
    -- Either the width ends the digits, or a character that is no digit stands behind them.
    rw [List.take_append, List.take_of_length_le fits]
    rcases ends with full | stop
    · rw [full, Nat.sub_self, List.take_zero]
      exact Numeral.takeWhile_digits decimal (by simp)
    · refine Numeral.takeWhile_digits decimal fun c there => stop c ?_
      cases rest with
      | nil => simp at there
      | cons d rest =>
          cases room : width - ds.length with
          | zero => simp [room] at there
          | succ k => simpa [room] using there
  rw [digits, taken, Numeral.natural_ten decimal nonempty, List.drop_left]
  rfl

theorem trimStart_padded (width n : Nat) (rest : List Char) :
    Text.trimStart ((Numeral.padded width n).toList ++ rest) =
      (Numeral.padded width n).toList ++ rest :=
  trimStart_digits rest (fun _ => Numeral.isDigit_of_mem_padded) (Numeral.padded_ne_nil width n)

/-- A number with zeros in front is read back where its digits can be told from what follows. -/
theorem digits_padded {zeros : Nat} (rest : List Char)
    (fits : (Numeral.padded zeros n).toList.length ≤ width)
    (ends : (Numeral.padded zeros n).toList.length = width ∨ ∀ c ∈ rest.head?, c.isDigit = false) :
    digits width ((Numeral.padded zeros n).toList ++ rest) = some (n, rest) := by
  rw [digits_append rest (fun _ => Numeral.isDigit_of_mem_padded) (Numeral.padded_ne_nil zeros n)
    fits ends, Numeral.ofDigitChars_padded]

/-- A number of two digits is read back, whatever follows it. -/
theorem digits_two (small : n < 100) :
    digits 2 (Text.trimStart ((Numeral.padded 2 n).toList ++ rest)) = some (n, rest) := by
  have length : (Numeral.padded 2 n).toList.length = 2 := Numeral.length_padded (by decide) small
  rw [trimStart_padded, digits_padded rest (Nat.le_of_eq length) (.inl length)]

/-! ## Years -/

theorem readYear_of_digit (digit : c.isDigit = true) :
    readYear (c :: rest) = (digits 4 (c :: rest)).map fun (n, rest) => ((n : Int), rest) := by
  unfold readYear
  split
  · rename_i minus
    rw [(List.cons.inj minus).1] at digit
    exact absurd digit (by decide)
  · rename_i plus
    rw [(List.cons.inj plus).1] at digit
    exact absurd digit (by decide)
  · rfl

/-- Behind a sign a year has as many digits as stand there. -/
theorem digits_signed (n : Nat) (stop : ∀ c ∈ rest.head?, c.isDigit = false) :
    digits ((Numeral.padded 4 n).toList ++ rest).length ((Numeral.padded 4 n).toList ++ rest) =
      some (n, rest) := by
  have fits : (Numeral.padded 4 n).toList.length ≤ ((Numeral.padded 4 n).toList ++ rest).length := by
    rw [List.length_append]
    exact Nat.le_add_right _ _
  exact digits_padded rest fits (.inr stop)

/-- A year that is written without a sign has four digits. -/
theorem length_plain {year : Int} (plain : 0 ≤ year ∧ year ≤ 9999) :
    (Numeral.padded 4 year.toNat).toList.length = 4 := by
  have power : Nat.pow 10 4 = 10000 := rfl
  exact Numeral.length_padded (by decide) (by omega)

/-- A year is read back from its text before anything but a digit. -/
theorem readYear_yearText (year : Int) (stop : ∀ c ∈ rest.head?, c.isDigit = false) :
    readYear (Text.trimStart ((Date.yearText year).toList ++ rest)) = some (year, rest) := by
  by_cases plain : 0 ≤ year ∧ year ≤ 9999
  · have length := length_plain plain
    have read := digits_padded rest (Nat.le_of_eq length) (.inl length)
    rw [Date.yearText, if_pos plain, trimStart_padded]
    cases text : (Numeral.padded 4 year.toNat).toList with
    | nil => exact absurd text (Numeral.padded_ne_nil 4 _)
    | cons c ds =>
        have head : c.isDigit = true := Numeral.isDigit_of_mem_padded (text ▸ List.mem_cons_self)
        rw [text] at read
        rw [List.cons_append, readYear_of_digit head, ← List.cons_append, read]
        exact congrArg (fun n => some (n, rest)) (Int.toNat_of_nonneg plain.1)
  · rw [Date.yearText, if_neg plain, String.toList_append, List.append_assoc]
    by_cases negative : year < 0
    · have value : -(year.natAbs : Int) = year := by omega
      rw [if_pos negative]
      change readYear ('-' :: ((Numeral.padded 4 year.natAbs).toList ++ rest)) = _
      rw [readYear, digits_signed year.natAbs stop]
      exact congrArg (fun n => some (n, rest)) value
    · have value : (year.natAbs : Int) = year := by omega
      rw [if_neg negative]
      change readYear ('+' :: ((Numeral.padded 4 year.natAbs).toList ++ rest)) = _
      rw [readYear, digits_signed year.natAbs stop]
      exact congrArg (fun n => some (n, rest)) value

/-! ## Fractions -/

/-- A fraction is left out or has three, six or nine digits, which stand for the nanoseconds. -/
theorem fractionText_cases {nano : Nat} (small : nano < Nat.pow 10 9) :
    (nano = 0 ∧ TimeOfDay.fractionText nano = "") ∨
      ∃ width ∈ [3, 6, 9], ∃ k < Nat.pow 10 width, k * Nat.pow 10 (9 - width) = nano ∧
        TimeOfDay.fractionText nano = "." ++ Numeral.padded width k := by
  unfold TimeOfDay.fractionText
  by_cases none : nano = 0
  · exact .inl ⟨none, if_pos none⟩
  · right
    rw [if_neg none]
    by_cases thousandths : nano % Nat.pow 10 6 = 0
    · refine ⟨3, by decide, nano / Nat.pow 10 6, ?_, ?_, if_pos thousandths⟩
      · exact Nat.div_lt_of_lt_mul small
      · exact Nat.div_mul_cancel (Nat.dvd_of_mod_eq_zero thousandths)
    · rw [if_neg thousandths]
      by_cases millionths : nano % Nat.pow 10 3 = 0
      · refine ⟨6, by decide, nano / Nat.pow 10 3, ?_, ?_, if_pos millionths⟩
        · exact Nat.div_lt_of_lt_mul small
        · exact Nat.div_mul_cancel (Nat.dvd_of_mod_eq_zero millionths)
      · exact ⟨9, by decide, nano, small, Nat.mul_one nano, if_neg millionths⟩

/-- A fraction that is not left out is a point and three, six or nine digits. -/
theorem fractionText_digits {nano : Nat} (small : nano < Nat.pow 10 9) :
    TimeOfDay.fractionText nano = "" ∨
      ∃ ds, (TimeOfDay.fractionText nano).toList = '.' :: ds ∧ ds.length ∈ [3, 6, 9] ∧
        ∀ c ∈ ds, c.isDigit = true := by
  rcases fractionText_cases small with ⟨-, text⟩ | ⟨width, listed, k, less, -, text⟩
  · exact .inl text
  · have pos : 0 < width := by
      simp only [List.mem_cons, List.not_mem_nil, or_false] at listed
      omega
    refine .inr ⟨(Numeral.padded width k).toList, ?_, ?_, fun _ => Numeral.isDigit_of_mem_padded⟩
    · rw [text, String.toList_append]
      rfl
    · rw [Numeral.length_padded pos less]
      exact listed

/-- Up to nine digits behind the point are read as that part of a second. -/
theorem readFraction_digits (decimal : ∀ c ∈ ds, c.isDigit = true) (nonempty : ds ≠ [])
    (fits : ds.length ≤ 9) :
    readFraction ds = some (Nat.ofDigitChars 10 ds 0 * Nat.pow 10 (9 - ds.length), []) := by
  have taken : (ds.take 9).takeWhile Char.isDigit = ds := by
    have all : (ds ++ []).takeWhile Char.isDigit = ds := Numeral.takeWhile_digits decimal (by simp)
    rw [List.append_nil] at all
    rw [List.take_of_length_le fits, all]
  rw [readFraction, taken, Numeral.natural_ten decimal nonempty, List.drop_length]
  rfl

theorem readField_fraction (p : Parts) (blank : p.nano = 0) {nano : Nat}
    (small : nano < Nat.pow 10 9) :
    readField p (TimeOfDay.fractionText nano).toList .fraction = some ({ p with nano }, []) := by
  rcases fractionText_cases small with ⟨rfl, text⟩ | ⟨width, listed, k, less, whole, text⟩
  · rw [text, ← blank]
    rfl
  · have pos : 0 < width ∧ width ≤ 9 := by
      simp only [List.mem_cons, List.not_mem_nil, or_false] at listed
      omega
    have length := Numeral.length_padded pos.1 less
    have read := readFraction_digits (fun _ => Numeral.isDigit_of_mem_padded)
      (Numeral.padded_ne_nil width k) (by rw [length]; exact pos.2)
    rw [length, Numeral.ofDigitChars_padded, whole] at read
    rw [text, String.toList_append]
    change (readFraction (Numeral.padded width k).toList).map _ = _
    rw [read]
    rfl

/-! ## Dates and times -/

theorem month_lt (d : Date) : d.month < 100 := by
  have valid := d.valid
  unfold IsDate at valid
  omega

theorem day_lt (d : Date) : d.day < 100 := by
  obtain ⟨_, _, _, _, _, most⟩ := d.valid
  unfold daysInMonth at most
  split at most
  · split at most <;> omega
  · split at most <;> omega

theorem readFields_mark (p : Parts) (c : Char) (fs : List Field) (cs : List Char) :
    readFields p (.mark c :: fs) (c :: cs) = readFields p fs cs := by
  simp only [readFields, readField, if_true, Option.bind_some]

/-- A date is read field by field from its text, and reading goes on behind it. -/
theorem readFields_date (p : Parts) (d : Date) (fs : List Field) (rest : List Char) :
    readFields p (dateForm ++ fs) (d.text.toList ++ rest) =
      readFields { p with year := d.year, month := d.month, day := d.day } fs rest := by
  have hyphen : "-".toList = ['-'] := rfl
  have stop : ∀ cs : List Char, ∀ c ∈ ('-' :: cs).head?, c.isDigit = false := by
    intro cs c there
    rw [← Option.some.inj there]
    rfl
  simp only [Date.text, String.toList_append, hyphen, List.append_assoc, dateForm,
    List.cons_append, List.nil_append, readFields, readField,
    readYear_yearText d.year (stop _), digits_two (month_lt d), digits_two (day_lt d),
    Option.map_some, Option.bind_some, if_true]

/-- A time is read field by field from its text. -/
theorem readFields_clock (p : Parts) (blank : p.nano = 0) (t : TimeOfDay) :
    readFields p clockForm t.text.toList =
      some { p with hour := t.hour, minute := t.minute, second := t.second, nano := t.nano } := by
  have colon : ":".toList = [':'] := rfl
  have hour : t.hour < 100 := Nat.lt_of_lt_of_le t.hour_lt (by decide)
  have minute : t.minute < 100 := Nat.lt_of_lt_of_le t.minute_lt (by decide)
  have second : t.second < 100 := Nat.lt_of_le_of_lt t.second_le (by decide)
  have fraction := readField_fraction
    { p with hour := t.hour, minute := t.minute, second := t.second } blank t.nano_lt
  simp only [TimeOfDay.text, TimeOfDay.clockText, String.toList_append, colon, List.append_assoc,
    List.cons_append, List.nil_append, clockForm, readFields, readField, digits_two hour,
    digits_two minute, digits_two second, Option.map_some, Option.bind_some, if_true]
  exact congrArg (Option.bind · fun read => readFields read.1 [] read.2) fraction

/-! ## Date-times -/

theorem text_toList (dt : DateTime) :
    dt.text.toList = dt.date.text.toList ++ 'T' :: dt.time.text.toList := by
  rw [text, textWith, String.toList_append, String.toList_append, List.append_assoc]
  rfl

theorem readBoth_of_readFields {form : List Field} {cs : List Char} {p : Parts} {dt : DateTime}
    (read : readFields {} form cs = some p) (date : p.date? = some dt.date)
    (time : p.time? = some dt.time) : readBoth form cs = some dt := by
  simp only [readBoth, read, date, time, Option.bind_eq_bind, Option.bind_some, pure]

/-- The numbers that the text of a date-time consists of. -/
def parts (dt : DateTime) : Parts where
  year := dt.date.year
  month := dt.date.month
  day := dt.date.day
  hour := dt.time.hour
  minute := dt.time.minute
  second := dt.time.second
  nano := dt.time.nano

/-- A date-time is read back from its text. -/
theorem readFull_text (dt : DateTime) : readFull dt.text.toList = some dt := by
  have read : readFields {} (dateForm ++ .mark 'T' :: clockForm) dt.text.toList = some dt.parts := by
    rw [text_toList, readFields_date, readFields_mark, readFields_clock _ rfl]
    rfl
  have date : dt.parts.date? = some dt.date := Date.of?_eq_some
  have time : dt.parts.time? = some dt.time := TimeOfDay.of?_eq_some
  rw [readFull, readBoth_of_readFields read date time, Option.some_or]

/-- The time that follows is left over when a date alone is read from the text. -/
theorem readDate_text (dt : DateTime) : readDate dt.text.toList = none := by
  have read := readFields_date {} dt.date [] ('T' :: dt.time.text.toList)
  rw [List.append_nil] at read
  rw [readDate, text_toList, read]
  rfl

/-- No time begins with more than two digits, since its hour has no more and a colon comes next. -/
theorem readFields_hour_of_digits (p : Parts) (fs : List Field)
    (decimal : ∀ c ∈ ds, c.isDigit = true) (long : 2 < ds.length) :
    readFields p (.hour :: .mark ':' :: fs) (ds ++ rest) = none := by
  match ds, decimal, long with
  | c :: d :: e :: ds, decimal, _ =>
      have hour : ∀ x ∈ [c, d], x.isDigit = true := by
        intro x there
        exact decimal x (List.mem_append_left (e :: ds) there)
      have third : e ≠ ':' := by
        rintro rfl
        exact absurd (decimal ':' (by simp)) (by decide)
      have read := digits_append (e :: (ds ++ rest)) hour (by simp) (Nat.le_refl 2) (.inl rfl)
      have solid := trimStart_digits (e :: (ds ++ rest)) hour (by simp)
      simp only [List.cons_append, List.nil_append] at read solid
      simp only [List.cons_append, readFields, readField, solid, read, Option.map_some,
        Option.bind_some, if_neg third, Option.bind_none]

/-- No time begins with a sign. -/
theorem readFields_hour_of_other (p : Parts) (fs : List Field) (other : c.isDigit = false)
    (solid : Text.isBlank c = false) : readFields p (.hour :: fs) (c :: rest) = none := by
  have stops : digits 2 (c :: rest) = none := by
    rw [digits, List.take_succ_cons, List.takeWhile_cons, other, if_neg Bool.false_ne_true]
    rfl
  rw [readFields, readField, trimStart_of_not_blank solid, stops]
  rfl

/-- A time alone is not read from the text, whose year has more digits than an hour or a sign. -/
theorem readFields_hour_text (p : Parts) (fs : List Field) (dt : DateTime) :
    readFields p (.hour :: .mark ':' :: fs) dt.text.toList = none := by
  rw [text_toList, Date.text, String.toList_append, String.toList_append, String.toList_append,
    String.toList_append]
  simp only [List.append_assoc]
  unfold Date.yearText
  split
  · rename_i plain
    exact readFields_hour_of_digits p fs (fun _ => Numeral.isDigit_of_mem_padded)
      (by rw [length_plain plain]; decide)
  · rw [String.toList_append, List.append_assoc]
    split
    · exact readFields_hour_of_other p _ (c := '-') rfl rfl
    · exact readFields_hour_of_other p _ (c := '+') rfl rfl

theorem readClock_text (dt : DateTime) : readClock dt.text.toList = none := by
  have full : readTime clockForm dt.text.toList = none := by
    rw [readTime, clockForm, readFields_hour_text]
    rfl
  have short : readTime minuteForm dt.text.toList = none := by
    rw [readTime, minuteForm, readFields_hour_text]
    rfl
  rw [readClock, full, short, Option.none_or]

/-- Whatever the day is, a date-time is what its text stands for. -/
theorem ofString?_of_text (today : Date) (dt : DateTime) : ofString? today dt.text = some dt := by
  rw [ofString?, readFull_text, Option.some_or]

end DateTime

end CommandGrammar
