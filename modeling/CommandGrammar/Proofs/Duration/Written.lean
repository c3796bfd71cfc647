import CommandGrammar.Duration.Iso
import CommandGrammar.Proofs.Digits

/-!
# Forms of written durations

A written duration is a choice of components, each a number with a sign of its own, behind an
optional sign. It is written with the marks `P` and `T` or without either of them, in letters of
either case; putting the marks back gives the text with both, and reading that gives the components.
-/

namespace CommandGrammar.Duration

/-! ## Forms -/

/-- A sign as it is written. -/
inductive Sign where
  | plus
  | minus
  deriving DecidableEq, Repr

namespace Sign

def char : Sign → Char
  | plus => '+'
  | minus => '-'

/-- A sign that may be written or not. -/
def chars (s : Option Sign) : List Char :=
  s.elim [] fun s => [s.char]

/-- An amount with a sign in front of it. -/
def put (s : Option Sign) (n : Int) : Int :=
  if s = some minus then -n else n

end Sign

/-- A number as it is written: decimal digits, perhaps behind a sign. -/
structure Number where
  sign : Option Sign
  digits : List Char
  nonempty : digits ≠ [] := by decide
  decimal : digits.all Char.isDigit = true := by rfl

namespace Number

def chars (n : Number) : List Char :=
  Sign.chars n.sign ++ n.digits

theorem isDigit (n : Number) : ∀ c ∈ n.digits, c.isDigit = true :=
  List.all_eq_true.mp n.decimal

/-- The number without its sign. -/
def size (n : Number) : Nat :=
  Nat.ofDigitChars 10 n.digits 0

def value (n : Number) : Int :=
  Sign.put n.sign n.size

/-- The value of a number that may be left out. -/
def worth (n : Option Number) : Int :=
  n.elim 0 value

/-- What is read of a number. -/
def amount (n : Number) : Amount :=
  ⟨n.sign = some .minus, n.size⟩

end Number

/-- A fraction of a second as it is written: a point or a comma, and up to nine digits. -/
structure Fraction where
  mark : Char
  digits : List Char
  marked : mark = '.' ∨ mark = ',' := by decide
  decimal : digits.all Char.isDigit = true := by rfl
  short : digits.length ≤ 9 := by decide

namespace Fraction

def chars (f : Fraction) : List Char :=
  f.mark :: f.digits

theorem isDigit (f : Fraction) : ∀ c ∈ f.digits, c.isDigit = true :=
  List.all_eq_true.mp f.decimal

/-- The fraction in nanoseconds: a digit stands for a tenth of what the one before it stands for. -/
def nanos (f : Fraction) : Nat :=
  Nat.ofDigitChars 10 f.digits 0 * Nat.pow 10 (9 - f.digits.length)

/-- The nanoseconds of a fraction that may be left out. -/
def worth (f : Option Fraction) : Nat :=
  f.elim 0 nanos

end Fraction

/-- A written duration: at least one component, perhaps behind a sign. -/
structure Written where
  sign : Option Sign := none
  days : Option Number := none
  hours : Option Number := none
  minutes : Option Number := none
  seconds : Option (Number × Option Fraction) := none
  present : days.isSome ∨ hours.isSome ∨ minutes.isSome ∨ seconds.isSome := by decide

/-- A component: its number and its letter. -/
def component (letter : Char) (n : Option Number) : List Char :=
  n.elim [] fun n => n.chars ++ [letter]

namespace Written

/-- The seconds, with a fraction if there is one. -/
def second (w : Written) : List Char :=
  w.seconds.elim [] fun s => s.1.chars ++ s.2.elim [] Fraction.chars ++ ['S']

/-- The components of the clock. -/
def clock (w : Written) : List Char :=
  component 'H' w.hours ++ (component 'M' w.minutes ++ w.second)

def timed (w : Written) : Bool :=
  w.hours.isSome || w.minutes.isSome || w.seconds.isSome

/-- The text behind the sign. The mark `P` is written if `period` says so, and the mark `T`, which
stands before the clock, if `time` does. -/
def body (w : Written) (period time : Bool) : List Char :=
  (if period then ['P'] else []) ++
    (component 'D' w.days ++ ((if time && w.timed then ['T'] else []) ++ w.clock))

/-- The text, with or without its marks. -/
def chars (w : Written) (period time : Bool) : List Char :=
  Sign.chars w.sign ++ w.body period time

/-- A text is written so when it is that text but for the case of its letters. -/
def Spells (w : Written) (period time : Bool) (s : String) : Prop :=
  s.toList.map Char.toUpper = w.chars period time

/-- The numbers of the components, in their order. -/
def numbers (w : Written) : List Number :=
  w.days.toList ++ w.hours.toList ++ w.minutes.toList ++ (w.seconds.map (·.1)).toList

/-- The whole seconds, exactly. -/
def whole (w : Written) : Int :=
  86400 * Number.worth w.days + 3600 * Number.worth w.hours + 60 * Number.worth w.minutes +
    Number.worth (w.seconds.map (·.1))

/-- The nanoseconds of the fraction, which goes the way of the seconds as they are written. -/
def part (w : Written) : Int :=
  w.seconds.elim 0 fun s => Sign.put s.1.sign (Fraction.worth s.2)

/-- The exact number of nanoseconds. The sign in front turns the whole. -/
def nanos (w : Written) : Int :=
  Sign.put w.sign (w.whole * Int.pow 10 9 + w.part)

/-- What is read of the text. -/
def components (w : Written) : Components where
  negative := w.sign = some .minus
  days := w.days.map Number.amount
  clock := w.timed
  hours := w.hours.map Number.amount
  minutes := w.minutes.map Number.amount
  seconds := (w.seconds.map (·.1)).map Number.amount
  fraction := w.seconds.elim 0 fun s => Fraction.worth s.2

end Written

/-! ## Letters -/

/-- A character of a number or a fraction. -/
def figure (c : Char) : Bool :=
  c.isDigit || c == '+' || c == '-' || c == '.' || c == ','

variable {c : Char} {w : Written} {period time : Bool}

theorem figure_of_isDigit (h : c.isDigit = true) : figure c = true := by
  simp [figure, h]

theorem Sign.figure_of_mem {s : Option Sign} (h : c ∈ Sign.chars s) : figure c = true := by
  rcases s with _ | _ | _
  · cases h
  · rw [List.mem_singleton.mp h]
    rfl
  · rw [List.mem_singleton.mp h]
    rfl

theorem Number.figure_of_mem {n : Number} (h : c ∈ n.chars) : figure c = true := by
  rcases List.mem_append.mp h with sign | digit
  · exact Sign.figure_of_mem sign
  · exact figure_of_isDigit (n.isDigit c digit)

theorem Fraction.figure_of_mem {f : Fraction} (h : c ∈ f.chars) : figure c = true := by
  rcases List.mem_cons.mp h with rfl | digit
  · rcases f.marked with point | comma
    · rw [point]
      rfl
    · rw [comma]
      rfl
  · exact figure_of_isDigit (f.isDigit c digit)

theorem mem_component {letter : Char} {n : Option Number} (h : c ∈ component letter n) :
    figure c = true ∨ c = letter := by
  cases n with
  | none => cases h
  | some n =>
      rcases List.mem_append.mp h with number | last
      · exact .inl (Number.figure_of_mem number)
      · exact .inr (List.mem_singleton.mp last)

theorem Written.mem_second (h : c ∈ w.second) : figure c = true ∨ c = 'S' := by
  unfold second at h
  cases seconds : w.seconds with
  | none => simp [seconds] at h
  | some s =>
      obtain ⟨n, f⟩ := s
      simp only [seconds, Option.elim_some, List.mem_append, List.mem_singleton] at h
      rcases h with (number | fraction) | last
      · exact .inl (Number.figure_of_mem number)
      · cases f with
        | none => cases fraction
        | some f => exact .inl (Fraction.figure_of_mem fraction)
      · exact .inr last

theorem Written.mem_clock (h : c ∈ w.clock) : figure c = true ∨ c = 'H' ∨ c = 'M' ∨ c = 'S' := by
  rcases List.mem_append.mp h with hours | rest
  · exact (mem_component hours).imp_right .inl
  · rcases List.mem_append.mp rest with minutes | second
    · exact (mem_component minutes).imp_right fun last => .inr (.inl last)
    · exact (mem_second second).imp_right fun last => .inr (.inr last)

theorem figure_ne (h : figure c = true) : c ∉ ['P', 'D', 'T', 'H', 'M', 'S'] := by
  intro letter
  simp only [List.mem_cons, List.not_mem_nil, or_false] at letter
  rcases letter with rfl | rfl | rfl | rfl | rfl | rfl <;> contradiction

theorem toUpper_of_figure (h : figure c = true) : c.toUpper = c := by
  simp only [figure, Bool.or_eq_true, beq_iff_eq] at h
  rcases h with (((digit | rfl) | rfl) | rfl) | rfl
  · have last : c.val ≤ '9'.val := (Numeral.isDigit_iff.mp digit).2
    exact dif_neg fun small => absurd (UInt32.le_trans small.1 last) (by decide)
  all_goals rfl

namespace Written

/-- Without the mark `T` a text has the mark `P`, days and the clock only. -/
theorem mem_body_untimed (h : c ∈ w.body period false) :
    figure c = true ∨ c ∈ ['P', 'D'] ∨ c ∈ w.clock := by
  rcases List.mem_append.mp h with mark | rest
  · refine .inr (.inl ?_)
    cases period with
    | false => cases mark
    | true =>
        rw [List.mem_singleton.mp mark]
        decide
  · rcases List.mem_append.mp rest with days | clock
    · rcases mem_component days with figure | rfl
      · exact .inl figure
      · exact .inr (.inl (by decide))
    · exact .inr (.inr clock)

theorem mem_body (h : c ∈ w.body period time) : c = 'T' ∨ c ∈ w.body period false := by
  simp only [body, List.mem_append] at h ⊢
  rcases h with mark | days | time | clock
  · exact .inr (.inl mark)
  · exact .inr (.inr (.inl days))
  · left
    split at time
    · exact List.mem_singleton.mp time
    · cases time
  · exact .inr (.inr (.inr (.inr clock)))

theorem mem_chars (h : c ∈ w.chars period time) :
    figure c = true ∨ c ∈ ['P', 'D', 'T', 'H', 'M', 'S'] := by
  rcases List.mem_append.mp h with sign | body
  · exact .inl (Sign.figure_of_mem sign)
  · rcases mem_body body with rfl | untimed
    · exact .inr (by decide)
    · rcases mem_body_untimed untimed with figure | mark | clock
      · exact .inl figure
      · exact .inr (List.mem_append_left ['T', 'H', 'M', 'S'] mark)
      · rcases mem_clock clock with figure | rfl | rfl | rfl
        · exact .inl figure
        all_goals exact .inr (by decide)

/-- No other character has an ASCII capital. -/
theorem ascii_of_mem_chars (h : c ∈ w.chars period time) : c.toNat ≤ 127 := by
  rcases mem_chars h with figure | letter
  · simp only [Duration.figure, Bool.or_eq_true, beq_iff_eq] at figure
    rcases figure with (((digit | rfl) | rfl) | rfl) | rfl
    · have last : c.toNat ≤ '9'.toNat := (Numeral.isDigit_iff.mp digit).2
      exact Nat.le_trans last (by decide)
    all_goals decide
  · simp only [List.mem_cons, List.not_mem_nil, or_false] at letter
    rcases letter with rfl | rfl | rfl | rfl | rfl | rfl <;> decide

theorem clock_eq_nil (h : w.timed = false) : w.clock = [] := by
  simp only [timed, Bool.or_eq_false_iff, Option.isSome_eq_false_iff, Option.isNone_iff_eq_none] at h
  simp [clock, second, component, h]

/-- Where a component of the clock is, its letter is. -/
theorem exists_mem_clock (h : w.timed = true) :
    ∃ c ∈ w.clock, (c == 'H' || c == 'M' || c == 'S') = true := by
  simp only [timed, Bool.or_eq_true, Option.isSome_iff_exists] at h
  rcases h with (⟨n, hours⟩ | ⟨n, minutes⟩) | ⟨s, seconds⟩
  · exact ⟨'H', by simp [clock, component, hours], rfl⟩
  · exact ⟨'M', by simp [clock, component, minutes], rfl⟩
  · exact ⟨'S', by simp [clock, second, seconds], rfl⟩

theorem not_mem_clock {letter : Char} (h : letter ∈ ['P', 'D', 'T']) : letter ∉ w.clock := by
  intro there
  rcases mem_clock there with figure | rfl | rfl | rfl
  · exact figure_ne figure (List.mem_append_left ['H', 'M', 'S'] h)
  all_goals contradiction

end Written

/-! ## Marks -/

/-- The mark `T` put back. -/
def restoreTime (cs : List Char) : List Char :=
  if cs.contains 'T' then cs
  else if cs.contains 'D' then
    if cs.any fun c => c == 'H' || c == 'M' || c == 'S' then
      cs.flatMap fun c => if c = 'D' then ['D', 'T'] else [c]
    else cs
  else match cs with
    | 'P' :: rest => 'P' :: 'T' :: rest
    | _ => 'T' :: cs

/-- The mark `P` put back. -/
def restorePeriod (cs : List Char) : List Char :=
  match cs with
  | 'P' :: _ => cs
  | _ => 'P' :: cs

theorem restoreMarks_eq (cs : List Char) : restoreMarks cs = restorePeriod (restoreTime cs) := rfl

theorem restorePeriod_of_head {cs : List Char} (h : ∀ c ∈ cs.head?, c ≠ 'P') :
    restorePeriod cs = 'P' :: cs := by
  unfold restorePeriod
  split
  · exact absurd rfl (h 'P' rfl)
  · rfl

theorem flatMap_days {cs : List Char} (free : 'D' ∉ cs) :
    (cs.flatMap fun c => if c = 'D' then ['D', 'T'] else [c]) = cs := by
  induction cs with
  | nil => rfl
  | cons c cs ih =>
      have other : c ≠ 'D' := fun same => free (same ▸ List.mem_cons_self)
      rw [List.flatMap_cons, if_neg other, ih fun there => free (List.mem_cons_of_mem c there)]
      rfl

namespace Written

/-- Without `T`, a text of days only stays as it is. -/
theorem restoreTime_days {n : Number} (days : w.days = some n) (untimed : w.timed = false)
    (absent : 'T' ∉ w.body period false) :
    restoreTime (w.body period false) = w.body period false := by
  have there : 'D' ∈ w.body period false := by simp [body, component, days]
  have bare : (w.body period false).any (fun c => c == 'H' || c == 'M' || c == 'S') = false := by
    rw [List.any_eq_false]
    intro c here letter
    have clock : c ∈ ['H', 'M', 'S'] := by
      simpa only [Bool.or_eq_true, beq_iff_eq, or_assoc, List.mem_cons, List.not_mem_nil, or_false]
        using letter
    rcases mem_body_untimed here with figure | mark | clock'
    · exact figure_ne figure (List.mem_append_right ['P', 'D', 'T'] clock)
    · simp only [List.mem_cons, List.not_mem_nil, or_false] at mark
      rcases mark with rfl | rfl <;> contradiction
    · rw [clock_eq_nil untimed] at clock'
      cases clock'
  unfold restoreTime
  rw [if_neg (mt List.contains_iff_mem.mp absent), if_pos (List.contains_iff_mem.mpr there), bare,
    if_neg Bool.false_ne_true]

/-- Without `T`, it is put back behind the days. -/
theorem restoreTime_both {n : Number} (days : w.days = some n) (timed : w.timed = true)
    (absent : 'T' ∉ w.body period false) :
    restoreTime (w.body period false) = w.body period true := by
  have there : 'D' ∈ w.body period false := by simp [body, component, days]
  have clocked : (w.body period false).any (fun c => c == 'H' || c == 'M' || c == 'S') = true := by
    obtain ⟨c, here, letter⟩ := exists_mem_clock timed
    exact List.any_eq_true.mpr ⟨c, by simp [body, here], letter⟩
  have mark : 'D' ∉ (if period then ['P'] else []) := by cases period <;> decide
  have number : 'D' ∉ n.chars := fun here => figure_ne (Number.figure_of_mem here) (by decide)
  unfold restoreTime
  rw [if_neg (mt List.contains_iff_mem.mp absent), if_pos (List.contains_iff_mem.mpr there), clocked,
    if_pos rfl]
  simp only [body, component, days, timed, Option.elim_some, Bool.false_and, Bool.and_self,
    List.flatMap_append, flatMap_days mark, flatMap_days number,
    flatMap_days (not_mem_clock (by decide))]
  simp

/-- Without `T` and days, it is put back in front of the clock. -/
theorem restoreTime_clock (days : w.days = none) (timed : w.timed = true)
    (absent : 'T' ∉ w.body period false) :
    restoreTime (w.body period false) = w.body period true := by
  have other : 'D' ∉ w.body period false := by
    intro here
    have clock : w.body period false = (if period then ['P'] else []) ++ w.clock := by
      simp [body, component, days]
    rw [clock] at here
    rcases List.mem_append.mp here with mark | clock
    · cases period <;> simp at mark
    · exact not_mem_clock (by decide) clock
  unfold restoreTime
  rw [if_neg (mt List.contains_iff_mem.mp absent), if_neg (mt List.contains_iff_mem.mp other)]
  cases period with
  | true => simp [body, component, days, timed]
  | false =>
      simp only [body, component, days, timed, Option.elim_none, Bool.false_and, Bool.and_self,
        Bool.false_eq_true, if_false, if_true, List.nil_append]
      split
      · rename_i rest first
        have free : 'P' ∉ w.clock := not_mem_clock (by decide)
        exact absurd (first ▸ List.mem_cons_self) free
      · rfl

theorem restoreTime_body (w : Written) (period time : Bool) :
    restoreTime (w.body period time) = w.body period true := by
  cases marked : time && w.timed with
  | true =>
      obtain ⟨rfl, timed⟩ := Bool.and_eq_true_iff.mp marked
      have there : 'T' ∈ w.body period true := by simp [body, timed]
      unfold restoreTime
      rw [if_pos (List.contains_iff_mem.mpr there)]
  | false =>
      have unmarked : w.body period time = w.body period false := by
        simp only [body, marked, Bool.false_and]
      have absent : 'T' ∉ w.body period false := by
        intro there
        rcases mem_body_untimed there with figure | mark | clock
        · exact figure_ne figure (by decide)
        · exact absurd mark (by decide)
        · exact not_mem_clock (by decide) clock
      rw [unmarked]
      cases days : w.days with
      | none =>
          have timed : w.timed = true := by
            have present := w.present
            rw [days] at present
            simpa [timed, or_assoc] using present
          exact restoreTime_clock days timed absent
      | some n =>
          cases timed : w.timed with
          | true => exact restoreTime_both days timed absent
          | false =>
              have same : w.body period true = w.body period false := by simp [body, timed]
              rw [same]
              exact restoreTime_days days timed absent

/-- Behind the mark `P` stands a number or the mark `T`. -/
theorem head_ne_period : ∀ c ∈ (w.body false true).head?, c ≠ 'P' := by
  intro c head same
  have there : 'P' ∈ w.body false true := same ▸ List.mem_of_mem_head? head
  simp only [body, Bool.false_eq_true, if_false, List.nil_append, List.mem_append] at there
  rcases there with days | time | clock
  · rcases mem_component days with figure | letter
    · exact figure_ne figure (by decide)
    · contradiction
  · split at time <;> simp at time
  · exact not_mem_clock (by decide) clock

/-- Whichever marks are left out, both are put back. -/
theorem restoreMarks_body (w : Written) (period time : Bool) :
    restoreMarks (w.body period time) = w.body true true := by
  rw [restoreMarks_eq, restoreTime_body]
  cases period with
  | true => rfl
  | false => exact restorePeriod_of_head head_ne_period

end Written

end CommandGrammar.Duration
