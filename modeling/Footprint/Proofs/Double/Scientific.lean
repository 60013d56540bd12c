import Footprint.Proofs.Double.Nearest

/-!
The size of what is read from a significand and a power of ten.

* `Double.ofScientific?_mono`: with powers of ten that are not negative, a smaller significand with
  a smaller power is read as a smaller number, and as a finite one if the larger is.
* `Double.ofScientific?_le`: with a negative power of ten, the number is finite and no larger than
  what its significand is read as.
-/

namespace Footprint.Double

/-! ### Operations -/

theorem ofNat?_mono {n m : Nat} (le : n ≤ m) {z' : Double} (found : ofNat? m = some z') :
    ∃ z, ofNat? n = some z ∧ z.units ≤ z'.units :=
  nearest_mono false (by decide) (by decide) (Nat.mul_le_mul_right 1 le) found

theorem ofNat?_le {n : Nat} {x : Double} (le : n * unitsPerOne ≤ x.units) :
    ∃ z, ofNat? n = some z ∧ z.units ≤ x.units :=
  nearest_le false (by decide) (le.trans_eq (Nat.mul_one _).symm)

/-- Products grow with their factors. -/
theorem mul?_mono {x y x' y' z' : Double} (first : x.units ≤ x'.units)
    (second : y.units ≤ y'.units) (found : x'.mul? y' = some z') :
    ∃ z, x.mul? y = some z ∧ z.units ≤ z'.units := by
  have positive := Nat.mul_pos unitsPerOne_pos unitsPerOne_pos
  exact nearest_mono _ positive positive
    (Nat.mul_le_mul_right _ (Nat.mul_le_mul first second)) found

theorem units_negateIf (turn : Bool) (x : Double) : (x.negateIf turn).units = x.units := rfl

theorem isZero_iff {x : Double} : x.isZero = true ↔ x.units = 0 := by
  simp [isZero, units]

/-- A quotient by one or more is no larger than the dividend. -/
theorem div?_le (x : Double) {y : Double} (one : unitsPerOne ≤ y.units) :
    ∃ z, x.div? y = some z ∧ z.units ≤ x.units := by
  have positive : 0 < y.units := Nat.lt_of_lt_of_le unitsPerOne_pos one
  have notZero : y.isZero = false := by
    apply Bool.eq_false_iff.mpr
    intro zero
    exact positive.ne' (isZero_iff.mp zero)
  rw [div?, if_neg (by simp [notZero])]
  exact nearest_le _ positive (Nat.mul_le_mul_left _ one)

/-- Quotients by the same number grow with their dividends. -/
theorem div?_mono {x y x' z' : Double} (dividend : x.units ≤ x'.units)
    (found : x'.div? y = some z') : ∃ z, x.div? y = some z ∧ z.units ≤ z'.units := by
  unfold div? at found ⊢
  split at found
  case isTrue => cases found
  case isFalse notZero =>
    have positive : 0 < y.units := Nat.pos_of_ne_zero fun zero => notZero (isZero_iff.mpr zero)
    rw [if_neg notZero]
    exact nearest_mono _ positive positive (Nat.mul_le_mul_right _ dividend) found

/-- A sum is no larger than a double that its summands do not exceed together. -/
theorem add?_le {x y r : Double} (le : x.units + y.units ≤ r.units) :
    ∃ z, x.add? y = some z ∧ z.units ≤ r.units := by
  have size : ∀ u : Double, u.signedUnits.natAbs = u.units := by
    intro u
    unfold signedUnits
    split <;> omega
  have sum : (x.signedUnits + y.signedUnits).natAbs ≤ r.units := by
    refine (Int.natAbs_add_le _ _).trans ?_
    rw [size, size]
    exact le
  unfold add?
  simp only
  exact nearest_le _ unitsPerOne_pos (Nat.mul_le_mul_right unitsPerOne sum)

theorem roundHalfUp_mono {num more den : Nat} (le : num ≤ more) :
    roundHalfUp num den ≤ roundHalfUp more den :=
  Nat.div_le_div_right (Nat.add_le_add_right (Nat.mul_le_mul_left 2 le) _)

/-- Rounding to a whole number keeps the order. -/
theorem round?_mono {x x' z' : Double} (le : x.units ≤ x'.units) (found : x'.round? = some z') :
    ∃ z, x.round? = some z ∧ z.units ≤ z'.units := by
  have fewer : roundHalfUp x.units unitsPerOne ≤ roundHalfUp x'.units unitsPerOne :=
    roundHalfUp_mono le
  exact nearest_mono _ Nat.one_pos Nat.one_pos (Nat.mul_le_mul_right 1 fewer) found

/-- The number one. -/
def one : Double := ⟨false, 2 ^ 52, 1022, by decide⟩

theorem units_one : one.units = unitsPerOne := by decide +kernel

/-- Below a finite power of ten all powers are finite, and one or more. -/
theorem exists_tenPow?_of_le {k most : Nat} (le : k ≤ most) {z' : Double}
    (found : tenPow? most = some z') : ∃ z, tenPow? k = some z ∧ unitsPerOne ≤ z.units := by
  obtain ⟨z, rounds, -⟩ := ofNat?_mono (Nat.pow_le_pow_right (by decide) le) found
  refine ⟨z, rounds, ?_⟩
  have positive : 1 ≤ 10 ^ k := Nat.pow_pos (by decide)
  rw [← units_one]
  refine le_nearest (by decide) ?_ rounds
  rw [units_one, Nat.mul_one]
  exact Nat.le_mul_of_pos_left _ positive

theorem tenPow?_isSome : (tenPow? 308).isSome = true := by decide +kernel

theorem exists_tenPow? {k : Nat} (small : k ≤ 308) :
    ∃ z, tenPow? k = some z ∧ unitsPerOne ≤ z.units := by
  obtain ⟨most, found⟩ := Option.isSome_iff_exists.mp tenPow?_isSome
  exact exists_tenPow?_of_le small found

theorem units_zero (negative : Bool) : (zero negative).units = 0 := Nat.zero_mul _

theorem scaleDown?_le (steps : Nat) (x : Double) (k : Nat) :
    ∃ z, scaleDown? steps x k = some z ∧ z.units ≤ x.units := by
  induction steps generalizing x k with
  | zero =>
    refine ⟨zero x.negative, rfl, ?_⟩
    rw [units_zero]
    exact Nat.zero_le _
  | succ steps ih =>
    unfold scaleDown?
    split
    case isTrue small =>
      obtain ⟨power, found, one⟩ := exists_tenPow? small
      rw [found]
      exact x.div?_le one
    case isFalse =>
      split
      case isTrue => exact ⟨x, rfl, Nat.le_refl _⟩
      case isFalse =>
        obtain ⟨power, found, one⟩ := exists_tenPow? (Nat.le_refl 308)
        obtain ⟨y, quotient, le⟩ := x.div?_le one
        obtain ⟨z, rest, le'⟩ := ih y (k - 308)
        refine ⟨z, ?_, le'.trans le⟩
        rw [found, Option.bind_some, quotient, Option.bind_some, rest]

/-! ### Significands and powers of ten -/

/-- A number with a power of ten that is not negative grows with its significand and the power. -/
theorem ofScientific?_mono (negative : Bool) {negative' : Bool} {n n' k k' : Nat} (le : n ≤ n')
    (lower : k ≤ k') {z' : Double} (found : ofScientific? negative' n' (.ofNat k') = some z') :
    ∃ z, ofScientific? negative n (.ofNat k) = some z ∧ z.units ≤ z'.units := by
  unfold ofScientific? at found ⊢
  obtain ⟨x', rounds', found⟩ := Option.bind_eq_some_iff.mp found
  obtain ⟨x, rounds, fewer⟩ := ofNat?_mono le rounds'
  rw [rounds, Option.bind_some]
  simp only at found ⊢
  by_cases zero : (x.negateIf negative).isZero = true
  · rw [if_pos zero]
    refine ⟨_, rfl, ?_⟩
    rw [isZero_iff.mp zero]
    exact Nat.zero_le _
  · have notZero : ¬ (x'.negateIf negative').isZero = true := by
      intro zero'
      refine zero (isZero_iff.mpr (Nat.le_zero.mp ?_))
      exact fewer.trans_eq (isZero_iff.mp zero')
    rw [if_neg notZero] at found
    rw [if_neg zero]
    split at found
    case isFalse => cases found
    case isTrue small =>
      obtain ⟨power', tenPow', product⟩ := Option.bind_eq_some_iff.mp found
      obtain ⟨power, tenPow, less⟩ := ofNat?_mono (Nat.pow_le_pow_right (by decide) lower) tenPow'
      rw [if_pos (lower.trans small)]
      have factor : (x.negateIf negative).units ≤ (x'.negateIf negative').units := fewer
      obtain ⟨z, result, le'⟩ := mul?_mono factor less product
      exact ⟨z, Option.bind_eq_some_iff.mpr ⟨power, tenPow, result⟩, le'⟩

/-- A number with a negative power of ten is no larger than its significand. -/
theorem ofScientific?_le (negative : Bool) {n : Nat} {x : Double} (le : n * unitsPerOne ≤ x.units)
    (k : Nat) : ∃ z, ofScientific? negative n (.negSucc k) = some z ∧ z.units ≤ x.units := by
  obtain ⟨y, rounds, fewer⟩ := ofNat?_le le
  obtain ⟨z, scaled, less⟩ := scaleDown?_le 4 (y.negateIf negative) (k + 1)
  refine ⟨z, ?_, less.trans fewer⟩
  rw [ofScientific?, rounds, Option.bind_some]
  exact scaled

end Footprint.Double
