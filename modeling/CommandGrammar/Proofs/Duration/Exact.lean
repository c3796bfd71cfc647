import CommandGrammar.Proofs.Duration.Components

/-!
# Exact durations

The nanoseconds of a written duration are computed step by step in 128 bits. A text gives no duration
when a step does not fit; otherwise its duration is the exact one, stored as floored seconds and the
nanoseconds beyond them. Where every number is below `10 ^ 18` all steps fit.
-/

namespace CommandGrammar.Duration

/-! ## Steps -/

/-- A component in nanoseconds, exactly. -/
def Amount.nanos (a : Option Amount) (unit : Int) : Int :=
  a.elim 0 fun a => a.value * unit

/-- What is computed on the way to a component in nanoseconds. -/
def Amount.steps (a : Option Amount) (unit : Int) : List Int :=
  a.elim [] fun a => [a.value, a.value * unit]

namespace Components

variable {c : Components}

/-- The whole seconds of the components, in nanoseconds. -/
def whole (c : Components) : Int :=
  Amount.nanos c.days (86400 * Int.pow 10 9) + Amount.nanos c.hours (3600 * Int.pow 10 9) +
    Amount.nanos c.minutes (60 * Int.pow 10 9) + Amount.nanos c.seconds (Int.pow 10 9)

/-- The components without the sign in front of them. -/
def unsigned (c : Components) : Int :=
  if c.seconds.any (·.negative) then c.whole - c.fraction else c.whole + c.fraction

/-- The exact number of nanoseconds. -/
def nanos (c : Components) : Int :=
  if c.negative then -c.unsigned else c.unsigned

/-- All that is computed on the way to the nanoseconds, one after the other. -/
def steps (c : Components) : List Int :=
  let day := 86400 * Int.pow 10 9
  let hour := 3600 * Int.pow 10 9
  let minute := 60 * Int.pow 10 9
  Amount.steps c.days day ++ Amount.steps c.hours hour ++
    [Amount.nanos c.days day + Amount.nanos c.hours hour] ++ Amount.steps c.minutes minute ++
    [Amount.nanos c.days day + Amount.nanos c.hours hour + Amount.nanos c.minutes minute] ++
    Amount.steps c.seconds (Int.pow 10 9) ++ [c.whole, c.unsigned, c.nanos]

end Components

/-- A computation goes on where a check passes. -/
theorem bind_guarded {α β : Type} (p : Bool) (a : α) (f : α → Option β) :
    (if p = true then some a else none).bind f = if p = true then f a else none := by
  cases p <;> rfl

theorem ite_all {α : Type} (p q : Bool) (a : Option α) :
    (if p = true then if q = true then a else none else none) =
      if (p && q) = true then a else none := by
  cases p <;> rfl

theorem scaled_eq (a : Option Amount) (unit : Int) :
    scaled a unit =
      if (Amount.steps a unit).all (Numeral.fits 128) = true then some (Amount.nanos a unit)
      else none := by
  cases a with
  | none => rfl
  | some a =>
      simp only [scaled, wide, Option.bind_eq_bind, bind_guarded, ite_all, Amount.steps,
        Amount.nanos, Option.elim_some, List.all_cons, List.all_nil, Bool.and_true]

/-- The total is the exact one, unless some step does not fit. -/
theorem Components.total_eq (c : Components) :
    c.total = if c.steps.all (Numeral.fits 128) = true then some c.nanos else none := by
  simp only [total, scaled_eq, wide, Option.bind_eq_bind, bind_guarded, ite_all, steps, nanos,
    unsigned, whole, List.all_append, List.all_cons, List.all_nil, Bool.and_true, Bool.and_assoc]
  cases c.seconds <;> rfl

/-! ## Range -/

/-- A number of nanoseconds stored as floored seconds, which must fit 64 bits, and the nanoseconds
beyond them. -/
def floored? (n : Int) : Option Duration :=
  let second := Int.pow 10 9
  if Numeral.fits 64 (n / second) then of? (n / second) (n % second).toNat else none

/-- Nothing is lost where the seconds are floored. -/
theorem floored?_eq (n : Int) : floored? n = ofNanos? n := by
  have second : Int.pow 10 9 = 1000000000 := rfl
  have beyond : (n % 1000000000).toNat < Nat.pow 10 9 := by
    have billion : Nat.pow 10 9 = 1000000000 := rfl
    omega
  have whole : n / 1000000000 * 1000000000 + ((n % 1000000000).toNat : Int) = n := by omega
  simp only [floored?, of?, second, if_pos beyond, whole]
  cases fits : Numeral.fits 64 (n / 1000000000) with
  | true => rfl
  | false =>
      have limit_eq : limit = 9223372036854775807000000 := rfl
      have power : Int.pow 2 (64 - 1) = 9223372036854775808 := rfl
      have outside : ¬(-limit ≤ n ∧ n ≤ limit) := by
        simp only [Numeral.fits, power, Bool.and_eq_false_iff, decide_eq_false_iff_not] at fits
        omega
      rw [if_neg Bool.false_ne_true, ofNanos?, dif_neg outside]

theorem fits_iff {n : Int} :
    Numeral.fits 128 n = true ↔ -Int.pow 2 127 ≤ n ∧ n < Int.pow 2 127 := by
  simp only [Numeral.fits, Bool.and_eq_true, decide_eq_true_eq]

/-- A fraction is less than a second. -/
theorem Fraction.worth_lt (f : Option Fraction) : Fraction.worth f < Nat.pow 10 9 := by
  cases f with
  | none => decide
  | some f =>
      have digits := Numeral.ofDigitChars_lt f.isDigit
      have power : Nat.pow 10 f.digits.length * Nat.pow 10 (9 - f.digits.length) = Nat.pow 10 9 := by
        have whole := Nat.pow_add 10 f.digits.length (9 - f.digits.length)
        rw [Nat.add_sub_cancel' f.short] at whole
        exact whole.symm
      rw [← power]
      exact Nat.mul_lt_mul_of_pos_right digits (Nat.pow_pos (by decide))

theorem Number.value_amount (n : Number) : n.amount.value = n.value := by
  simp only [Amount.value, amount, value, Sign.put, decide_eq_true_eq]

namespace Written

variable {w : Written} {period time : Bool} {s : String}

theorem nanos_amount (n : Option Number) (unit : Int) :
    Amount.nanos (n.map Number.amount) unit = Number.worth n * unit := by
  cases n with
  | none => exact (Int.zero_mul unit).symm
  | some n =>
      rw [Option.map_some, Amount.nanos, Option.elim_some, n.value_amount]
      rfl

theorem whole_components (w : Written) : w.components.whole = w.whole * Int.pow 10 9 := by
  have second : Int.pow 10 9 = 1000000000 := rfl
  simp only [Components.whole, components, nanos_amount, whole, second]
  omega

theorem unsigned_components (w : Written) :
    w.components.unsigned = w.whole * Int.pow 10 9 + w.part := by
  rw [Components.unsigned, whole_components]
  unfold components part
  rcases w.seconds with _ | ⟨n, f⟩
  · rfl
  · simp only [Option.map_some, Option.elim_some, Option.any_some, Number.amount, Sign.put,
      decide_eq_true_eq]
    split
    · exact Int.sub_eq_add_neg
    · rfl

theorem nanos_components (w : Written) : w.components.nanos = w.nanos := by
  rw [Components.nanos, unsigned_components]
  simp only [components, decide_eq_true_eq]
  rfl

theorem put_bounds (s : Option Sign) {n m : Nat} (small : n < m) :
    -(m : Int) < Sign.put s n ∧ Sign.put s n < m := by
  unfold Sign.put
  split <;> omega

theorem worth_bounds {n : Option Number} (small : ∀ k ∈ n, k.size < Nat.pow 10 18) :
    -Int.pow 10 18 < Number.worth n ∧ Number.worth n < Int.pow 10 18 := by
  cases n with
  | none => decide
  | some n => exact put_bounds n.sign (small n rfl)

theorem part_bounds (w : Written) : -Int.pow 10 9 < w.part ∧ w.part < Int.pow 10 9 := by
  unfold part
  rcases w.seconds with _ | ⟨n, f⟩
  · decide
  · exact put_bounds n.sign (Fraction.worth_lt f)

theorem steps_amount {n : Option Number} {unit : Int} (small : ∀ k ∈ n, k.size < Nat.pow 10 18)
    (units : unit ∈ [86400 * Int.pow 10 9, 3600 * Int.pow 10 9, 60 * Int.pow 10 9, Int.pow 10 9]) :
    (Amount.steps (n.map Number.amount) unit).all (Numeral.fits 128) = true := by
  have bounds := worth_bounds small
  cases n with
  | none => rfl
  | some n =>
      rw [Number.worth, Option.elim_some] at bounds
      have power : Int.pow 2 127 = 170141183460469231731687303715884105728 := rfl
      have large : Int.pow 10 18 = 1000000000000000000 := rfl
      have billion : Int.pow 10 9 = 1000000000 := rfl
      simp only [Amount.steps, Option.map_some, Option.elim_some, List.all_cons, List.all_nil,
        Bool.and_true, Bool.and_eq_true, n.value_amount, fits_iff, power]
      simp only [billion, List.mem_cons, List.not_mem_nil, or_false] at units
      rw [large] at bounds
      rcases units with rfl | rfl | rfl | rfl
      all_goals omega

/-- Where every number is below `10 ^ 18` all steps fit. -/
theorem steps_fit (small : ∀ n ∈ w.numbers, n.size < Nat.pow 10 18) :
    w.components.steps.all (Numeral.fits 128) = true := by
  have days : ∀ n ∈ w.days, n.size < Nat.pow 10 18 := fun n there =>
    small n (by simp [numbers, Option.mem_def.mp there])
  have hours : ∀ n ∈ w.hours, n.size < Nat.pow 10 18 := fun n there =>
    small n (by simp [numbers, Option.mem_def.mp there])
  have minutes : ∀ n ∈ w.minutes, n.size < Nat.pow 10 18 := fun n there =>
    small n (by simp [numbers, Option.mem_def.mp there])
  have seconds : ∀ n ∈ w.seconds.map (·.1), n.size < Nat.pow 10 18 := fun n there =>
    small n (by simp [numbers, Option.mem_def.mp there])
  have day := worth_bounds days
  have hour := worth_bounds hours
  have minute := worth_bounds minutes
  have second := worth_bounds seconds
  have part := w.part_bounds
  have power : Int.pow 2 127 = 170141183460469231731687303715884105728 := rfl
  have large : Int.pow 10 18 = 1000000000000000000 := rfl
  have billion : Int.pow 10 9 = 1000000000 := rfl
  rw [large] at day hour minute second
  rw [billion] at part
  have whole : -(100000 * 1000000000000000000) < w.whole ∧
      w.whole < 100000 * 1000000000000000000 := by
    unfold Written.whole
    omega
  have nanos : -Int.pow 2 127 ≤ w.nanos ∧ w.nanos < Int.pow 2 127 := by
    rw [Written.nanos, Sign.put, billion, power]
    split <;> omega
  simp only [Components.steps, List.all_append, List.all_cons, List.all_nil, Bool.and_true,
    Bool.and_eq_true, whole_components, unsigned_components, nanos_components]
  simp only [components, nanos_amount]
  refine ⟨⟨⟨⟨⟨⟨steps_amount days (by decide), steps_amount hours (by decide)⟩, ?_⟩,
    steps_amount minutes (by decide)⟩, ?_⟩, steps_amount seconds (by decide)⟩, ?_, ?_,
    fits_iff.mpr nanos⟩
  all_goals
    rw [fits_iff, billion, power]
    omega

/-- A written duration of such numbers is the exact one, if that is in range. -/
theorem ofString?_of_spells (spelled : w.Spells period time s)
    (bare : period = false → w.sign = none → ∀ n ∈ w.numbers.head?, n.sign = none)
    (small : ∀ n ∈ w.numbers, n.size < Nat.pow 10 18) : ofString? s = ofNanos? w.nanos := by
  rw [ofString?_eq_bind, components?_of_spells spelled bare, Option.bind_some, Components.total_eq,
    if_pos (steps_fit small), Option.bind_some, nanos_components]

end Written

/-- A duration written with both its marks, in letters of either case and with numbers below
`10 ^ 18`, is read as the exact one if that is in range, and refused otherwise. Whatever text is
read, no step towards its duration is anything but exact: one that does not fit ends the reading
without a result. -/
theorem ofString?_exact :
    (∀ (w : Written) (s : String), (∀ n ∈ w.numbers, n.size < Nat.pow 10 18) →
      w.Spells true true s →
        ofString? s =
          if h : -limit ≤ w.nanos ∧ w.nanos ≤ limit then some ⟨w.nanos, h⟩ else none) ∧
      ∀ s : String, ofString? s = (components? s).bind fun c =>
        if c.steps.all (Numeral.fits 128) = true then floored? c.nanos else none := by
  refine ⟨fun w s small spelled => ?_, fun s => ?_⟩
  · exact Written.ofString?_of_spells spelled (nofun) small
  · rw [ofString?_eq_bind]
    congr 1
    funext c
    rw [Components.total_eq, bind_guarded, floored?_eq]

/-- One day less ninety minutes, with a fraction that follows the sign of no seconds, all turned. -/
theorem ofString?_exact_of_signs :
    let w : Written :=
      { sign := some .minus
        days := some { sign := some .plus, digits := ['1'] }
        minutes := some { sign := some .minus, digits := ['9', '0'] }
        seconds := some ({ sign := some .minus, digits := ['0'] },
          some { mark := ',', digits := ['2', '5'] }) }
    (∀ n ∈ w.numbers, n.size < Nat.pow 10 18) ∧ w.Spells true true "-p+1dT-90m-0,25S" ∧
      ofString? "-p+1dT-90m-0,25S" = some { nanos := -80999750000000 } := by
  intro w
  have small : ∀ n ∈ w.numbers, n.size < Nat.pow 10 18 := by decide
  have spelled : w.Spells true true "-p+1dT-90m-0,25S" := by rfl
  exact ⟨small, spelled, (ofString?_exact.1 w _ small spelled).trans (by decide)⟩

end CommandGrammar.Duration
