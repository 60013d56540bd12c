import Footprint.Proofs.Double.Numeral
import Footprint.Proofs.Double.Scientific

/-!
Doubles read back from documents.

The text of a double is read in rounded steps, so another double may come back. What matters is
that the numbers up to certain bounds stay below them (`Double.Bound`):

* `Double.Bound.reread_le`: each number up to a bound is read as a number up to this bound.
* `Double.bound_largest`: the largest double is a bound, so no number is lost
  (`Double.exists_reread`).
* `Double.bound_belowDecimals`: so is the largest double below `2 ^ 96`, where decimals end.

A number below a bound is at most half a gap below it when it is written. Then its significand is
at most the largest one for its power of ten, and reading is monotone; what is left to check for a
bound is one number for each of the powers of ten that do not leave room for all digits.
-/

namespace Footprint.Double

open Json (Numeral)

/-! ### Below a double -/

theorem eq_of_units_eq {x y : Double} (same : x.units = y.units) :
    x = y.negateIf (x.negative != y.negative) := by
  have exponent : x.exponent = y.exponent := by rw [← lastPlace_units, same, lastPlace_units]
  have significand : x.significand = y.significand := by
    unfold units at same
    rw [exponent] at same
    exact Nat.eq_of_mul_eq_mul_right (Nat.two_pow_pos _) same
  obtain ⟨negative, m, e, canonical⟩ := x
  obtain ⟨negative', m', e', canonical'⟩ := y
  simp only at exponent significand
  subst exponent significand
  have sign : negative = (negative' != (negative != negative')) := by
    cases negative <;> cases negative' <;> rfl
  simp only [negateIf, ← sign]

/-- A number below one with a full significand is at least its own gap and half the other's below
it. -/
theorem gap_le {x top : Double} (full : top.significand = 2 ^ 53 - 1) (less : x.units < top.units) :
    2 * x.units + 2 ^ x.exponent ≤ 2 * top.units - 2 ^ top.exponent := by
  have below := x.canonical.1
  have order : x.exponent ≤ top.exponent := by
    rw [← lastPlace_units, ← lastPlace_units]
    exact lastPlace_mono unitsPerOne_pos unitsPerOne_pos (Nat.mul_le_mul_right _ less.le)
  unfold units at less ⊢
  rw [full] at less ⊢
  rcases Nat.lt_or_eq_of_le order with lower | same
  · have power : 2 ^ (x.exponent + 1) ≤ 2 ^ top.exponent := Nat.pow_le_pow_right (by decide) lower
    rw [Nat.pow_succ] at power
    have most : x.significand * 2 ^ x.exponent ≤ (2 ^ 53 - 1) * 2 ^ x.exponent :=
      Nat.mul_le_mul_right _ (by omega)
    omega
  · rw [same] at less ⊢
    have fewer : x.significand + 1 ≤ 2 ^ 53 - 1 := Nat.lt_of_mul_lt_mul_right less
    have most := Nat.mul_le_mul_right (2 ^ top.exponent) fewer
    rw [Nat.succ_mul] at most
    omega

/-- Half a gap above a number and half a gap below another, in units. -/
theorem size_add_halfGap (x : Double) :
    x.size + x.halfGap = (2 * x.units + 2 ^ x.exponent : Nat) / (2 * unitsPerOne) := by
  have unit := unitsPerOne_cast_pos.ne'
  unfold size halfGap
  push_cast
  field_simp

/-! ### Bounds -/

/-- The significands that are written with the power of ten `k` for numbers below `top` are at most
this one. -/
def largestSignificand (top : Double) (k : Nat) : Nat :=
  min (10 ^ 17) ((2 * top.units - 2 ^ top.exponent) / (10 ^ k * (2 * unitsPerOne)))

/-- What has to be checked of a number for the numbers up to it to stay so. The powers of ten up to
`first` leave room for 17 digits, and 18 powers further there is room for none. -/
structure Bound (top : Double) (first : Nat) : Prop where
  full : top.significand = 2 ^ 53 - 1
  large : 2 ^ 64 * unitsPerOne ≤ top.units
  room : top.largestSignificand first = 10 ^ 17
  none : 2 * top.units < 10 ^ (first + 18) * (2 * unitsPerOne)
  own : ∀ turn, (top.negateIf turn).numeral.toDouble?.any (·.units ≤ top.units) = true
  scientific : ∀ k < 18, (ofScientific? false (top.largestSignificand (first + k))
    (.ofNat (first + k))).any (·.units ≤ top.units) = true

theorem exists_of_any {α : Type} {p : α → Bool} {found : Option α} (any : found.any p = true) :
    ∃ a, found = some a ∧ p a = true := by
  cases found with
  | none => cases any
  | some a => exact ⟨a, rfl, any⟩

theorem ofScientific?_zero (negative : Bool) (k : Nat) :
    ∃ z, ofScientific? negative 0 (.ofNat k) = some z ∧ z.units = 0 := by
  obtain ⟨y, rounds, le⟩ := ofNat?_le (n := 0) (x := zero false) (by simp [units_zero])
  rw [units_zero, Nat.le_zero] at le
  refine ⟨y.negateIf negative, ?_, le⟩
  have isZero : (y.negateIf negative).isZero = true := isZero_iff.mpr le
  rw [ofScientific?, rounds, Option.bind_some]
  exact if_pos isZero

section Below

variable {top x : Double} {first : Nat}

/-- A significand with a power of ten that is not negative, of a number below `top`. -/
theorem significand_le (full : top.significand = 2 ^ 53 - 1) (less : x.units < top.units) {k : Nat}
    (power : x.numeral.power = k) : x.numeral.significand ≤ top.largestSignificand k := by
  have unit := unitsPerOne_cast_pos
  refine Nat.le_min.mpr ⟨significand_numeral_le x, ?_⟩
  have positive : 0 < 10 ^ k * (2 * unitsPerOne) :=
    Nat.mul_pos (Nat.pow_pos (by decide)) (Nat.mul_pos (by decide) unitsPerOne_pos)
  rw [Nat.le_div_iff_mul_le positive]
  refine le_trans ?_ (gap_le full less)
  have near := (shortest_spec .toEven x).2
  rw [← value_numeral, power, zpow_natCast, size_add_halfGap, le_div_iff₀ (mul_pos two_pos unit),
    mul_assoc] at near
  exact_mod_cast near

theorem Bound.largestSignificand_eq_zero (bound : Bound top first) {k : Nat}
    (many : first + 18 ≤ k) : top.largestSignificand k = 0 := by
  have power : 10 ^ (first + 18) * (2 * unitsPerOne) ≤ 10 ^ k * (2 * unitsPerOne) :=
    Nat.mul_le_mul_right _ (Nat.pow_le_pow_right (by decide) many)
  have none : (2 * top.units - 2 ^ top.exponent) / (10 ^ k * (2 * unitsPerOne)) = 0 :=
    Nat.div_eq_of_lt (Nat.lt_of_le_of_lt (Nat.sub_le _ _) (bound.none.trans_le power))
  rw [largestSignificand, none, Nat.min_zero]

/-- Up to a bound, no significand is read as a number beyond it. -/
theorem Bound.exists_ofScientific? (bound : Bound top first) (negative : Bool) {n k : Nat}
    (le : n ≤ top.largestSignificand k) :
    ∃ y, ofScientific? negative n (.ofNat k) = some y ∧ y.units ≤ top.units := by
  rcases Nat.lt_or_ge k first with low | high
  · obtain ⟨z, found, fewer⟩ := exists_of_any (bound.scientific 0 (by decide))
    have digits : n ≤ top.largestSignificand (first + 0) := by
      rw [Nat.add_zero, bound.room]
      exact le.trans (Nat.min_le_left _ _)
    obtain ⟨y, read, le'⟩ := ofScientific?_mono negative digits low.le found
    exact ⟨y, read, le'.trans (of_decide_eq_true fewer)⟩
  · obtain ⟨more, rfl⟩ := Nat.exists_eq_add_of_le high
    rcases Nat.lt_or_ge more 18 with few | many
    · obtain ⟨z, found, fewer⟩ := exists_of_any (bound.scientific more few)
      obtain ⟨y, read, le'⟩ := ofScientific?_mono negative le (Nat.le_refl _) found
      exact ⟨y, read, le'.trans (of_decide_eq_true fewer)⟩
    · have zero := bound.largestSignificand_eq_zero (Nat.add_le_add_left many first)
      obtain ⟨y, read, none⟩ := ofScientific?_zero negative (first + more)
      rw [Nat.le_zero.mp (le.trans_eq zero)]
      exact ⟨y, read, none.trans_le (Nat.zero_le _)⟩

/-- Each number up to a bound is read as one. -/
theorem Bound.reread_le (bound : Bound top first) (le : x.units ≤ top.units) :
    ∃ y, x.numeral.toDouble? = some y ∧ y.units ≤ top.units := by
  rcases Nat.lt_or_eq_of_le le with less | same
  · have fits : x.numeral.significand < 2 ^ 64 :=
      Nat.lt_of_le_of_lt (significand_numeral_le x) (by decide)
    rw [Numeral.toDouble?_eq fits]
    cases power : x.numeral.power with
    | negSucc k =>
      have whole : x.numeral.significand * unitsPerOne ≤ top.units :=
        (Nat.mul_le_mul_right _ fits.le).trans bound.large
      exact ofScientific?_le x.numeral.negative whole k
    | ofNat k =>
      exact bound.exists_ofScientific? x.numeral.negative (significand_le bound.full less power)
  · rw [eq_of_units_eq same]
    obtain ⟨y, read, fewer⟩ := exists_of_any (bound.own (x.negative != top.negative))
    exact ⟨y, read, of_decide_eq_true fewer⟩

end Below

/-! ### The two bounds -/

/-- The largest double. -/
def largest : Double := ⟨false, 2 ^ 53 - 1, 2045, by decide⟩

/-- The largest double below `2 ^ 96`. -/
def belowDecimals : Double := ⟨false, 2 ^ 53 - 1, 1117, by decide⟩

theorem bound_largest : Bound largest 291 where
  full := rfl
  large := by decide +kernel
  room := by decide +kernel
  none := by decide +kernel
  own := by decide +kernel
  scientific := by decide +kernel

theorem bound_belowDecimals : Bound belowDecimals 11 where
  full := rfl
  large := by decide +kernel
  room := by decide +kernel
  none := by decide +kernel
  own := by decide +kernel
  scientific := by decide +kernel

theorem units_le_largest (x : Double) : x.units ≤ largest.units := by
  obtain ⟨below, low, -⟩ := x.canonical
  exact Nat.mul_le_mul (Nat.le_pred_of_lt below) (Nat.pow_le_pow_right (by decide) low)

/-- The text of a double is read as a double, and below `2 ^ 96` stays there. -/
theorem exists_reread (x : Double) : ∃ y, x.numeral.toJson = .float y ∧
    (x.units ≤ belowDecimals.units → y.units ≤ belowDecimals.units) := by
  obtain ⟨y, read, -⟩ := bound_largest.reread_le x.units_le_largest
  refine ⟨y, by rw [Numeral.toJson, x.toInt?_numeral, read], ?_⟩
  intro le
  obtain ⟨z, again, below⟩ := bound_belowDecimals.reread_le le
  rw [read] at again
  exact Option.some.inj again ▸ below

end Footprint.Double
