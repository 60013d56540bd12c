import Footprint.Decimal.Basic
import Mathlib.Algebra.Order.Field.Rat
import Mathlib.Algebra.Order.Group.Abs
import Mathlib.Tactic.FieldSimp
import Mathlib.Tactic.Linarith
import Mathlib.Tactic.Positivity
import Mathlib.Tactic.Ring

/-!
The number that a decimal denotes.

`Decimal.value` is that number, and `RoundedAway` says what rounding to some places means, without
saying how it is computed. Of the operations on decimals

* `Decimal.roundedAway_round`: rounding denotes the rounded number;
* `Decimal.value_normalize`: taking zeros off the end of the fraction changes no number;
* `Decimal.sameValue_iff`, `Decimal.isZero_iff`: comparing decimals compares the numbers;
* `Decimal.normalize_eq_of_value_eq`, `Decimal.value_round_eq`: decimals of one value are the same
  once they are normalized, and round to one value.
-/

namespace Footprint

/-! ### Rounding -/

/-- `r` is `x` rounded to `places` places, a half going away from zero: none of the numbers with
so many places is nearer to `x`, and none that is as near is farther from zero. -/
structure RoundedAway (x : ℚ) (places : ℕ) (r : ℚ) : Prop where
  grid : ∃ n : ℤ, r = n / 10 ^ places
  nearest : ∀ n : ℤ, |x - r| ≤ |x - n / 10 ^ places|
  away : ∀ n : ℤ, |x - n / 10 ^ places| = |x - r| → |(n : ℚ) / 10 ^ places| ≤ |r|

/-- A whole number within half a unit is nearest, and the right one if a half lies below it. -/
theorem RoundedAway.of_half {x : ℚ} {places : ℕ} {k : ℤ}
    (near : 2 * |x * 10 ^ places - k| ≤ 1)
    (tie : 2 * |x * 10 ^ places - k| = 1 → |x * 10 ^ places| < |(k : ℚ)|) :
    RoundedAway x places (k / 10 ^ places) := by
  have power : (0 : ℚ) < 10 ^ places := by positivity
  set y := x * 10 ^ places with y_eq
  have distance : ∀ n : ℤ, |x - n / 10 ^ places| = |y - n| / 10 ^ places := by
    intro n
    have split : x - n / 10 ^ places = (y - n) / 10 ^ places := by
      rw [y_eq]
      field_simp
    rw [split, abs_div, abs_of_pos power]
  -- Another whole number is at least half a unit away.
  have other : ∀ n : ℤ, n ≠ k → 1 ≤ |y - n| + |y - k| := by
    intro n different
    have apart : (1 : ℚ) ≤ |(n : ℚ) - k| := by
      exact_mod_cast Int.one_le_abs (sub_ne_zero.mpr different)
    have triangle := abs_sub_le (n : ℚ) y k
    rw [abs_sub_comm (n : ℚ) y] at triangle
    linarith
  refine ⟨⟨k, rfl⟩, ?_, ?_⟩
  · intro n
    rw [distance, distance]
    refine div_le_div_of_nonneg_right ?_ power.le
    by_cases same : n = k
    · rw [same]
    · have := other n same
      linarith
  · intro n equal
    rw [distance, distance, div_left_inj' power.ne'] at equal
    rw [abs_div, abs_div, abs_of_pos power]
    refine div_le_div_of_nonneg_right ?_ power.le
    by_cases same : n = k
    · rw [same]
    · have half : 2 * |y - k| = 1 := by
        have := other n same
        linarith
      have below := tie half
      have reach := abs_sub_abs_le_abs_sub (n : ℚ) y
      rw [abs_sub_comm (n : ℚ) y, equal] at reach
      have strict : |(n : ℚ)| < |(k : ℚ)| + 1 := by linarith
      have whole : |n| < |k| + 1 := by exact_mod_cast strict
      exact_mod_cast Int.lt_add_one_iff.mp whole

/-- A number that has no more places stays as it is. -/
theorem RoundedAway.self {x : ℚ} {places : ℕ} (grid : ∃ n : ℤ, x = n / 10 ^ places) :
    RoundedAway x places x := by
  refine ⟨grid, ?_, ?_⟩
  · intro n
    rw [sub_self, abs_zero]
    exact abs_nonneg _
  · intro n equal
    rw [sub_self, abs_zero, abs_eq_zero, sub_eq_zero] at equal
    rw [equal]

theorem RoundedAway.neg {x r : ℚ} {places : ℕ} (rounded : RoundedAway x places r) :
    RoundedAway (-x) places (-r) := by
  have turn : ∀ y : ℚ, |(-x) - (-y)| = |x - y| := fun y => by rw [neg_sub_neg, abs_sub_comm]
  have turnGrid : ∀ n : ℤ, |(-x) - n / 10 ^ places| = |x - (-n : ℤ) / 10 ^ places| := by
    intro n
    rw [← turn, Int.cast_neg, neg_div, neg_neg]
  obtain ⟨⟨n, grid⟩, nearest, away⟩ := rounded
  refine ⟨⟨-n, by rw [grid, Int.cast_neg, neg_div]⟩, ?_, ?_⟩
  · intro n
    rw [turn, turnGrid]
    exact nearest (-n)
  · intro n equal
    rw [turn, turnGrid] at equal
    have farther := away (-n) equal
    rw [Int.cast_neg, neg_div, abs_neg] at farther
    rwa [abs_neg]

/-- A number is rounded in one way only. -/
theorem RoundedAway.unique {x r s : ℚ} {places : ℕ} (first : RoundedAway x places r)
    (second : RoundedAway x places s) : r = s := by
  obtain ⟨n, r_eq⟩ := first.grid
  obtain ⟨m, s_eq⟩ := second.grid
  have near : |x - s| = |x - r| := by
    apply le_antisymm
    · rw [r_eq]
      exact second.nearest n
    · rw [s_eq]
      exact first.nearest m
  have size : |r| = |s| := by
    apply le_antisymm
    · have away := second.away n
      rw [← r_eq] at away
      exact away near.symm
    · have away := first.away m
      rw [← s_eq] at away
      exact away near
  rcases abs_eq_abs.mp size with same | opposite
  · exact same
  -- Only zero has two roundings of opposite sign, and they are zero.
  · have least := first.nearest 0
    rw [opposite, sub_neg_eq_add] at near
    rcases abs_eq_abs.mp near with equal | turned
    · linarith
    · have zero : x = 0 := by linarith
      rw [zero, Int.cast_zero, zero_div, sub_zero, abs_zero, zero_sub, abs_neg] at least
      have none : r = 0 := abs_eq_zero.mp (le_antisymm least (abs_nonneg r))
      linarith

/-- The rounded quotient of natural numbers, in units of the last place. -/
theorem roundedAway_roundHalfUp (m : ℕ) {p : ℕ} (positive : 0 < p) (places : ℕ) :
    RoundedAway (m / p / 10 ^ places) places (roundHalfUp m p / 10 ^ places) := by
  obtain ⟨low, high⟩ := roundHalfUp_bounds m positive
  have unit : (0 : ℚ) < p := by exact_mod_cast positive
  have power : (10 : ℚ) ^ places ≠ 0 := by positivity
  set k := roundHalfUp m p
  set q := (m : ℚ) / p with q_eq
  have exact : q * p = m := div_mul_cancel₀ _ unit.ne'
  have above : 2 * (k - q) ≤ 1 := by
    have bound : (2 : ℚ) * p * k ≤ 2 * m + p := by exact_mod_cast low
    by_contra more
    nlinarith
  have below : -1 < 2 * (k - q) := by
    have bound : (2 : ℚ) * m < 2 * p * k + p := by exact_mod_cast high
    by_contra less
    nlinarith
  have near : 2 * |q - k| ≤ 1 := by
    have := abs_le.mpr (show -(1 / 2) ≤ q - k ∧ q - k ≤ 1 / 2 by constructor <;> linarith)
    linarith
  have nonneg : 0 ≤ q := by positivity
  have rounded := @RoundedAway.of_half (q / 10 ^ places) places k
  rw [div_mul_cancel₀ _ power, Int.cast_natCast] at rounded
  refine rounded near fun half => ?_
  -- The half lies below the rounded quotient.
  have upper : q < k := by
    by_contra notBelow
    rw [abs_of_nonneg (by linarith)] at half
    linarith
  rwa [abs_of_nonneg nonneg, abs_of_nonneg (nonneg.trans upper.le)]

namespace Decimal

/-! ### Values -/

/-- The number that a decimal denotes. -/
def value (d : Decimal) : ℚ := d.signed / 10 ^ d.scale

theorem value_eq (d : Decimal) : d.value =
    if d.negative then -(d.mantissa / 10 ^ d.scale : ℚ) else d.mantissa / 10 ^ d.scale := by
  unfold value signed
  split
  · rw [Int.cast_neg, Int.cast_natCast, neg_div]
  · rw [Int.cast_natCast]

theorem value_ofParts (negative : Bool) (mantissa scale : ℕ)
    (h : mantissa < 2 ^ 96 ∧ scale ≤ 28) : (ofParts negative mantissa scale h).value =
      if negative then -(mantissa / 10 ^ scale : ℚ) else mantissa / 10 ^ scale := by
  rw [value_eq]
  rcases Nat.eq_zero_or_pos mantissa with rfl | positive
  · simp [ofParts]
  · have notZero : mantissa ≠ 0 := positive.ne'
    simp [ofParts, notZero]

theorem negative_iff {d : Decimal} : d.negative = true ↔ d.value < 0 := by
  have size : (0 : ℚ) ≤ d.mantissa / 10 ^ d.scale := by positivity
  rw [value_eq]
  constructor
  · intro negative
    have positive : 0 < d.mantissa := by
      refine Nat.pos_of_ne_zero fun zero => ?_
      rw [d.sign_of_zero zero] at negative
      cases negative
    rw [if_pos negative, neg_lt_zero]
    positivity
  · intro below
    by_contra positive
    rw [if_neg positive] at below
    linarith

theorem sameValue_iff {a b : Decimal} : a.SameValue b ↔ a.value = b.value := by
  have power : ∀ n : ℕ, (10 : ℚ) ^ n ≠ 0 := fun n => by positivity
  unfold value SameValue
  rw [div_eq_div_iff (power _) (power _)]
  norm_cast

theorem isZero_iff {d : Decimal} : d.isZero = true ↔ d.value = 0 := by
  have power : (10 : ℚ) ^ d.scale ≠ 0 := by positivity
  rw [isZero, decide_eq_true_iff, value, div_eq_zero_iff, or_iff_left power, Int.cast_eq_zero,
    signed]
  split <;> omega

theorem SameValue.isZero_eq {a b : Decimal} (same : a.SameValue b) : a.isZero = b.isZero := by
  rw [Bool.eq_iff_iff, isZero_iff, isZero_iff, sameValue_iff.mp same]

/-! ### Rounding a decimal -/

/-- Rounding denotes the rounded number. -/
theorem roundedAway_round (d : Decimal) (places : ℕ) :
    RoundedAway d.value places (d.round places).value := by
  unfold round
  split
  case isTrue below =>
    have rounded := roundedAway_roundHalfUp d.mantissa (p := 10 ^ (d.scale - places))
      (Nat.pow_pos (by decide)) places
    have size : (d.mantissa : ℚ) / ((10 ^ (d.scale - places) : ℕ) : ℚ) / 10 ^ places =
        d.mantissa / 10 ^ d.scale := by
      rw [Nat.cast_pow, Nat.cast_ofNat, div_div, ← pow_add, Nat.sub_add_cancel below.le]
    rw [size] at rounded
    rw [value_eq, value_ofParts]
    split
    · exact rounded.neg
    · exact rounded
  case isFalse fits =>
    refine .self ⟨d.signed * 10 ^ (places - d.scale), ?_⟩
    have places_eq : (10 : ℚ) ^ places = 10 ^ (places - d.scale) * 10 ^ d.scale := by
      rw [← pow_add, Nat.sub_add_cancel (not_lt.mp fits)]
    rw [value, places_eq]
    push_cast
    field_simp

/-- A number that has no more places is kept by rounding. -/
theorem round_of_scale_le {d : Decimal} {places : ℕ} (fits : d.scale ≤ places) :
    d.round places = d := by
  rw [round, dif_neg (not_lt.mpr fits)]

theorem scale_round_le (d : Decimal) (places : ℕ) : (d.round places).scale ≤ places := by
  unfold round
  split
  case isTrue below => exact le_rfl
  case isFalse fits => exact not_lt.mp fits

/-! ### Zeros at the end -/

theorem strip_spec (mantissa scale : ℕ) :
    (strip mantissa scale).1 * 10 ^ (scale - (strip mantissa scale).2) = mantissa ∧
      ((strip mantissa scale).2 = 0 ∨ (strip mantissa scale).1 % 10 ≠ 0) := by
  induction scale generalizing mantissa with
  | zero => exact ⟨by simp [strip], .inl rfl⟩
  | succ scale ih =>
    unfold strip
    split
    case isTrue divides =>
      obtain ⟨whole, last⟩ := ih (mantissa / 10)
      refine ⟨?_, last⟩
      have shorter := (strip_le (mantissa / 10) scale).2
      rw [Nat.succ_sub shorter, Nat.pow_succ, ← Nat.mul_assoc, whole]
      omega
    case isFalse stays =>
      exact ⟨by simp, .inr stays⟩

/-- A decimal without zeros at the end of its fraction denotes the same number. -/
theorem value_normalize (d : Decimal) : d.normalize.value = d.value := by
  obtain ⟨whole, -⟩ := strip_spec d.mantissa d.scale
  have shorter := (strip_le d.mantissa d.scale).2
  rw [normalize, value_ofParts, value_eq]
  generalize strip d.mantissa d.scale = short at whole shorter
  have power : (10 : ℚ) ^ d.scale = 10 ^ (d.scale - short.2) * 10 ^ short.2 := by
    rw [← pow_add, Nat.sub_add_cancel shorter]
  have size : (short.1 / 10 ^ short.2 : ℚ) = d.mantissa / 10 ^ d.scale := by
    rw [power, ← whole]
    push_cast
    field_simp
  rw [size]

theorem scale_normalize_le (d : Decimal) : d.normalize.scale ≤ d.scale :=
  (strip_le d.mantissa d.scale).2

/-- The fraction of a normalized decimal does not end in a zero. -/
theorem scale_normalize_eq_zero_or (d : Decimal) :
    d.normalize.scale = 0 ∨ d.normalize.mantissa % 10 ≠ 0 :=
  (strip_spec d.mantissa d.scale).2

/-! ### Decimals of one value -/

/-- A fraction that does not end in a zero has no more places than another one of its value. -/
theorem scale_le_of_mul_pow {m n s t : ℕ} (same : m * 10 ^ t = n * 10 ^ s)
    (last : t = 0 ∨ n % 10 ≠ 0) : t ≤ s := by
  by_contra more
  have split : (10 : ℕ) ^ t = 10 ^ (t - s) * 10 ^ s := by
    rw [← pow_add, Nat.sub_add_cancel (not_le.mp more).le]
  rw [split, ← mul_assoc] at same
  have whole : m * 10 ^ (t - s) = n := Nat.eq_of_mul_eq_mul_right (by positivity) same
  have divides : 10 ∣ n := by
    rw [← whole]
    exact (dvd_pow_self 10 (by omega)).mul_left m
  omega

theorem natAbs_signed (d : Decimal) : d.signed.natAbs = d.mantissa := by
  unfold signed
  split <;> omega

/-- Decimals of one value whose fractions do not end in a zero are equal. -/
theorem eq_of_value_eq {a b : Decimal} (same : a.value = b.value)
    (lastA : a.scale = 0 ∨ a.mantissa % 10 ≠ 0) (lastB : b.scale = 0 ∨ b.mantissa % 10 ≠ 0) :
    a = b := by
  have sizes : a.mantissa * 10 ^ b.scale = b.mantissa * 10 ^ a.scale := by
    have signed : a.signed * 10 ^ b.scale = b.signed * 10 ^ a.scale := sameValue_iff.mpr same
    have sizes := congrArg Int.natAbs signed
    rwa [Int.natAbs_mul, Int.natAbs_mul, natAbs_signed, natAbs_signed, Int.natAbs_pow,
      Int.natAbs_pow] at sizes
  have scale : a.scale = b.scale := by
    apply le_antisymm
    · exact scale_le_of_mul_pow sizes.symm lastA
    · exact scale_le_of_mul_pow sizes lastB
  have mantissa : a.mantissa = b.mantissa := by
    rw [scale] at sizes
    exact Nat.eq_of_mul_eq_mul_right (by positivity) sizes
  have negative : a.negative = b.negative := by
    rw [Bool.eq_iff_iff, negative_iff, negative_iff, same]
  obtain ⟨signA, mantissaA, scaleA, _, _⟩ := a
  obtain ⟨signB, mantissaB, scaleB, _, _⟩ := b
  cases negative
  cases mantissa
  cases scale
  rfl

theorem normalize_eq_of_value_eq {a b : Decimal} (same : a.value = b.value) :
    a.normalize = b.normalize := by
  refine eq_of_value_eq ?_ (scale_normalize_eq_zero_or a) (scale_normalize_eq_zero_or b)
  rw [value_normalize, value_normalize, same]

/-- Rounding a number depends on its value only. -/
theorem value_round_eq {a b : Decimal} (same : a.value = b.value) (places : ℕ) :
    (a.round places).value = (b.round places).value := by
  have first := roundedAway_round a places
  rw [same] at first
  exact first.unique (roundedAway_round b places)

end Decimal

end Footprint
