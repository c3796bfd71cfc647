import CommandGrammar.Numeral
import CommandGrammar.Proofs.Duration.Written
import Mathlib.Data.Nat.Digits.Defs

/-!
# Written numerals

A numeral is written with a mark that chooses its radix, a sign and digits; the mark and the sign may
be left out. Its digits have values by their place among the figures and stand for powers of the
radix. Reading accepts what is written so and nothing else, and gives the value.
-/

namespace CommandGrammar.Numeral

open Duration (Sign)

/-- The radix of a numeral. -/
inductive Radix where
  | decimal
  | hexadecimal
  | binary
  deriving DecidableEq, Repr

namespace Radix

def base : Radix → Nat
  | decimal => 10
  | hexadecimal => 16
  | binary => 2

/-- What stands in front of a numeral to choose its radix. -/
def mark : Radix → List Char
  | decimal => []
  | hexadecimal => ['0', 'x']
  | binary => ['0', 'b']

theorem base_mem (r : Radix) : r.base ∈ [10, 16, 2] := by
  cases r <;> decide

end Radix

/-- The figures in the order of their values. -/
def figures : List Char :=
  ['0', '1', '2', '3', '4', '5', '6', '7', '8', '9', 'a', 'b', 'c', 'd', 'e', 'f']

/-- A digit of a radix is one of so many figures; a letter may be a capital. -/
def IsFigure (base : Nat) (c : Char) : Prop :=
  c.toLower ∈ figures.take base

instance (base : Nat) (c : Char) : Decidable (IsFigure base c) := by
  unfold IsFigure; infer_instance

/-- The value of a digit. -/
def worth (c : Char) : Nat :=
  figures.idxOf c.toLower

/-- The value of digits: the last one counts ones, each other one the power of the radix above. -/
def positional (base : Nat) (ds : List Char) : Nat :=
  Nat.ofDigits base (ds.reverse.map worth)

/-- A numeral as it is written. -/
structure Written where
  radix : Radix := .decimal
  sign : Option Sign := none
  digits : List Char
  nonempty : digits ≠ []
  figured : ∀ c ∈ digits, IsFigure radix.base c

namespace Written

def chars (w : Written) : List Char :=
  w.radix.mark ++ Sign.chars w.sign ++ w.digits

def value (w : Written) : Int :=
  Sign.put w.sign (positional w.radix.base w.digits)

end Written

variable {r : Radix} {base : Nat} {c : Char} {cs ds : List Char}

/-! ## Digits -/

theorem digit_ascii : ∀ base ∈ [10, 16, 2], ∀ n < 128,
    digit base (Char.ofNat n) =
      if IsFigure base (Char.ofNat n) then some (worth (Char.ofNat n)) else none := by
  decide +kernel

theorem figures_ascii (figure : c ∈ figures) : c.toNat < 128 := by
  have all : figures.all (fun c => decide (c.toNat < 128)) = true := by decide
  exact of_decide_eq_true (List.all_eq_true.mp all c figure)

/-- A character outside ASCII is its own small letter, so it is no figure. -/
theorem not_isFigure (outside : 128 ≤ c.toNat) : ¬IsFigure base c := by
  intro figure
  have kept : c.toLower = c := by
    refine dif_neg fun capital => ?_
    have last : c.toNat ≤ 'Z'.toNat := capital.2
    have small : 'Z'.toNat < 128 := by decide
    omega
  rw [IsFigure, kept] at figure
  have ascii := figures_ascii (List.mem_of_mem_take figure)
  omega

theorem digitValue_outside (outside : 128 ≤ c.toNat) : digitValue c = none := by
  have above : ∀ d : Char, d.toNat < 128 → ¬c ≤ d := by
    intro d small below
    have le : c.toNat ≤ d.toNat := below
    omega
  rw [digitValue, if_neg fun h => above '9' (by decide) h.2,
    if_neg fun h => above 'z' (by decide) h.2, if_neg fun h => above 'Z' (by decide) h.2]

/-- A character is read as a digit exactly if it is one, and then with its value. -/
theorem digit_eq (r : Radix) (c : Char) :
    digit r.base c = if IsFigure r.base c then some (worth c) else none := by
  by_cases ascii : c.toNat < 128
  · have table := digit_ascii r.base r.base_mem c.toNat ascii
    rwa [Char.ofNat_toNat] at table
  · have outside : 128 ≤ c.toNat := Nat.le_of_not_lt ascii
    rw [if_neg (not_isFigure outside), digit, digitValue_outside outside]
    rfl

theorem positional_cons (base : Nat) (c : Char) (ds : List Char) :
    positional base (c :: ds) = worth c * base ^ ds.length + positional base ds := by
  rw [positional, List.reverse_cons, List.map_append, Nat.ofDigits_append, List.length_map,
    List.length_reverse, List.map_singleton, Nat.ofDigits_singleton, Nat.add_comm, Nat.mul_comm]
  rfl

theorem positional_append_singleton (base : Nat) (ds : List Char) (c : Char) :
    positional base (ds ++ [c]) = base * positional base ds + worth c := by
  rw [positional, List.reverse_append, List.map_append, List.reverse_singleton, List.map_singleton,
    List.singleton_append, Nat.ofDigits_cons, Nat.add_comm]
  rfl

/-- Digits read on from a number stand behind its digits. -/
theorem digitsFrom_eq_some_iff {acc n : Nat} :
    digitsFrom r.base acc ds = some n ↔
      (∀ c ∈ ds, IsFigure r.base c) ∧ acc * r.base ^ ds.length + positional r.base ds = n := by
  induction ds generalizing acc with
  | nil =>
      have value : acc * r.base ^ 0 + positional r.base [] = acc := Nat.mul_one acc
      rw [digitsFrom, List.length_nil, value, Option.some_inj]
      exact ⟨fun same => ⟨fun _ there => absurd there List.not_mem_nil, same⟩, And.right⟩
  | cons c ds ih =>
      rw [digitsFrom, digit_eq, List.forall_mem_cons]
      by_cases head : IsFigure r.base c
      · have value : (acc * r.base + worth c) * r.base ^ ds.length + positional r.base ds =
            acc * r.base ^ (c :: ds).length + positional r.base (c :: ds) := by
          rw [positional_cons, List.length_cons, Nat.pow_succ]
          ring
        rw [if_pos head, Option.bind_some, ih, value, and_iff_right head]
      · rw [if_neg head, Option.bind_none]
        exact ⟨fun read => absurd read (by simp), fun figured => absurd figured.1.1 head⟩

theorem natural_eq_some_iff {n : Nat} :
    natural r.base ds = some n ↔
      ds ≠ [] ∧ (∀ c ∈ ds, IsFigure r.base c) ∧ positional r.base ds = n := by
  cases ds with
  | nil => simp [natural]
  | cons c ds =>
      rw [natural, digitsFrom_eq_some_iff, Nat.zero_mul, Nat.zero_add,
        and_iff_right (List.cons_ne_nil c ds)]

/-! ## Signs and marks -/

theorem not_isFigure_sign (r : Radix) (s : Sign) : ¬IsFigure r.base s.char := by
  cases r <;> cases s <;> decide

/-- Nothing in front of the digits is a sign. -/
theorem signed_of_figure (figure : IsFigure r.base c) :
    signed r.base (c :: ds) = (natural r.base (c :: ds)).map fun n => (n : Int) := by
  unfold signed
  split
  · rename_i minus
    rw [(List.cons.inj minus).1] at figure
    exact absurd figure (not_isFigure_sign r .minus)
  · rename_i plus
    rw [(List.cons.inj plus).1] at figure
    exact absurd figure (not_isFigure_sign r .plus)
  · rfl

/-- Digits behind a sign that may be left out have their value under the sign. -/
theorem signed_chars (s : Option Sign) (nonempty : ds ≠ [])
    (figured : ∀ c ∈ ds, IsFigure r.base c) :
    signed r.base (Sign.chars s ++ ds) = some (Sign.put s (positional r.base ds)) := by
  have digits : natural r.base ds = some (positional r.base ds) :=
    natural_eq_some_iff.mpr ⟨nonempty, figured, rfl⟩
  cases s with
  | none =>
      cases ds with
      | nil => exact absurd rfl nonempty
      | cons c ds =>
          change signed r.base (c :: ds) = _
          rw [signed_of_figure (figured c List.mem_cons_self), digits]
          rfl
  | some s =>
      cases s with
      | plus =>
          change (natural r.base ds).map (fun n => (n : Int)) = _
          rw [digits]
          rfl
      | minus =>
          change (natural r.base ds).map (fun n => -(n : Int)) = _
          rw [digits]
          rfl

/-- A value under a sign comes of digits. -/
theorem of_natural {f : Int → Int} {n : Int}
    (h : ((natural r.base ds).bind fun m => some (m : Int)).map f = some n) :
    ds ≠ [] ∧ (∀ c ∈ ds, IsFigure r.base c) ∧ f (positional r.base ds) = n := by
  obtain ⟨m, read, value⟩ := Option.map_eq_some_iff.mp h
  obtain ⟨k, digits, same⟩ := Option.bind_eq_some_iff.mp read
  obtain ⟨nonempty, figured, rfl⟩ := natural_eq_some_iff.mp digits
  rw [← Option.some.inj same] at value
  exact ⟨nonempty, figured, value⟩

/-- What is read behind a mark is a sign, or none, and digits. -/
theorem of_signed {n : Int} (h : signed r.base cs = some n) :
    ∃ (s : Option Sign) (ds : List Char), cs = Sign.chars s ++ ds ∧ ds ≠ [] ∧
      (∀ c ∈ ds, IsFigure r.base c) ∧ Sign.put s (positional r.base ds) = n := by
  unfold signed at h
  split at h
  · exact ⟨some .minus, _, rfl, of_natural h⟩
  · exact ⟨some .plus, _, rfl, of_natural h⟩
  · exact ⟨none, cs, rfl, of_natural h⟩

/-- A mark chooses its radix, and what begins with no mark is decimal. -/
theorem prefixed_mark (r : Radix) (unmarked : r = .decimal → ∀ c ∈ cs.tail.head?, c ≠ 'x' ∧ c ≠ 'b') :
    prefixed (r.mark ++ cs) = signed r.base cs := by
  cases r with
  | hexadecimal => rfl
  | binary => rfl
  | decimal =>
      change prefixed cs = signed 10 cs
      unfold prefixed
      split
      · exact absurd rfl (unmarked rfl 'x' rfl).1
      · exact absurd rfl (unmarked rfl 'b' rfl).2
      · rfl

/-- A numeral is read exactly if it is written as one, and then it has its value. -/
theorem prefixed_eq_some_iff {n : Int} :
    prefixed cs = some n ↔ ∃ w : Written, w.chars = cs ∧ w.value = n := by
  constructor
  · intro h
    have marked : ∃ (r : Radix) (rest : List Char), cs = r.mark ++ rest ∧
        signed r.base rest = some n := by
      unfold prefixed at h
      split at h
      · exact ⟨.hexadecimal, _, rfl, h⟩
      · exact ⟨.binary, _, rfl, h⟩
      · exact ⟨.decimal, _, rfl, h⟩
    obtain ⟨r, rest, rfl, read⟩ := marked
    obtain ⟨s, ds, rfl, nonempty, figured, value⟩ := of_signed read
    exact ⟨⟨r, s, ds, nonempty, figured⟩, List.append_assoc _ _ _, value⟩
  · rintro ⟨w, rfl, rfl⟩
    rw [Written.chars, List.append_assoc, prefixed_mark, signed_chars w.sign w.nonempty w.figured]
    · rfl
    · intro decimal c there
      have behind : c ∈ w.digits := by
        cases sign : w.sign with
        | none =>
            rw [sign] at there
            exact List.mem_of_mem_tail (List.mem_of_mem_head? there)
        | some s =>
            rw [sign] at there
            exact List.mem_of_mem_head? there
      have figure := w.figured c behind
      rw [decimal] at figure
      constructor
      · rintro rfl
        exact absurd figure (by decide)
      · rintro rfl
        exact absurd figure (by decide)

/-! ## Texts of numbers -/

theorem isFigure_digitChar (r : Radix) {d : Nat} (small : d < r.base) :
    IsFigure r.base d.digitChar ∧ worth d.digitChar = d := by
  have table : ∀ base ∈ [10, 16, 2], ∀ d < base,
      IsFigure base d.digitChar ∧ worth d.digitChar = d := by
    decide
  exact table r.base r.base_mem d small

/-- The digits that a number is written with in a radix have its value there. -/
theorem toDigits_figures (r : Radix) (n : Nat) :
    (∀ c ∈ Nat.toDigits r.base n, IsFigure r.base c) ∧
      positional r.base (Nat.toDigits r.base n) = n := by
  have large : 1 < r.base := by cases r <;> decide
  induction n using Nat.strong_induction_on with
  | _ n ih =>
      by_cases one : n < r.base
      · obtain ⟨figure, value⟩ := isFigure_digitChar r one
        rw [Nat.toDigits_of_lt_base one]
        constructor
        · intro c there
          rw [List.mem_singleton.mp there]
          exact figure
        · rw [← List.nil_append [n.digitChar], positional_append_singleton, value]
          exact Nat.zero_add n
      · have more : r.base ≤ n := Nat.le_of_not_lt one
        have less : n / r.base < n := Nat.div_lt_self (by omega) large
        obtain ⟨figured, value⟩ := ih (n / r.base) less
        obtain ⟨figure, last⟩ := isFigure_digitChar r (Nat.mod_lt n (Nat.zero_lt_of_lt large))
        rw [Nat.toDigits_of_base_le large more]
        constructor
        · intro c there
          rcases List.mem_append.mp there with front | back
          · exact figured c front
          · rw [List.mem_singleton.mp back]
            exact figure
        · rw [positional_append_singleton, value, last, Nat.div_add_mod]

/-- A number written in a radix, with its mark. -/
def Written.ofNat (r : Radix) (s : Option Sign) (n : Nat) : Written where
  radix := r
  sign := s
  digits := Nat.toDigits r.base n
  nonempty := Nat.toDigits_ne_nil
  figured := (toDigits_figures r n).1

/-- The text of a number in a radix: its digits behind the mark. -/
def Radix.text (r : Radix) (n : Nat) : String :=
  String.ofList (r.mark ++ Nat.toDigits r.base n)

theorem Written.value_ofNat (r : Radix) (s : Option Sign) (n : Nat) :
    (ofNat r s n).value = Sign.put s n := by
  rw [value, ofNat, (toDigits_figures r n).2]

theorem Radix.text_eq_written (r : Radix) (n : Nat) :
    ∃ w : Written, w.chars = (r.text n).toList ∧ w.value = n := by
  refine ⟨.ofNat r none n, ?_, Written.value_ofNat r none n⟩
  rw [Radix.text, String.toList_ofList, Written.chars]
  exact congrArg (· ++ Nat.toDigits r.base n) (List.append_nil r.mark)

/-- The text of an integer is its numeral without a mark. -/
theorem toString_eq_written (n : Int) :
    ∃ w : Written, w.chars = (toString n).toList ∧ w.value = n := by
  have digits : ∀ m : Nat, (toString m).toList = Nat.toDigits 10 m := by
    intro m
    rw [Nat.toString_eq_ofList_toDigits, String.toList_ofList]
  cases n with
  | ofNat n =>
      refine ⟨.ofNat .decimal none n, ?_, Written.value_ofNat _ _ _⟩
      change Nat.toDigits 10 n = (toString n).toList
      rw [digits]
  | negSucc n =>
      refine ⟨.ofNat .decimal (some .minus) (n + 1), ?_, Written.value_ofNat _ _ _⟩
      change '-' :: Nat.toDigits 10 (n + 1) = ("-" ++ toString (n + 1)).toList
      rw [String.toList_append, digits]
      rfl

end CommandGrammar.Numeral
