import Footprint.Double.Text
import Footprint.Proofs.Double.Nearest
import Footprint.Proofs.Text.Digits
import Mathlib.Tactic.FieldSimp
import Mathlib.Tactic.Linarith
import Mathlib.Tactic.Positivity

/-!
The shortest digits of a double.

* `Double.shortest_spec`: the shortest decimal of a double is a whole number of at most `10 ^ 17`
  times a power of ten, and lies at most half a gap above the double.

Behind it stands that a grid of 17 digits is fine enough: one of the two neighbours of a double on
that grid reads back as the double (`Double.exists_gridPoint?`).
-/

namespace Footprint.Double

/-- The distance from zero. -/
def size (x : Double) : ℚ := x.units / unitsPerOne

/-- Half the distance to the next larger double. -/
def halfGap (x : Double) : ℚ := 2 ^ x.exponent / (2 * unitsPerOne)

theorem unitsPerOne_cast_pos : (0 : ℚ) < unitsPerOne := by
  exact_mod_cast unitsPerOne_pos

theorem size_nonneg (x : Double) : 0 ≤ x.size :=
  div_nonneg (Nat.cast_nonneg _) unitsPerOne_cast_pos.le

theorem halfGap_pos (x : Double) : 0 < x.halfGap :=
  div_pos (by positivity) (mul_pos two_pos unitsPerOne_cast_pos)

/-! ### The first digit -/

theorem pow_le_of_length {n : Nat} (positive : 0 < n) :
    10 ^ ((Nat.toDigits 10 n).length - 1) ≤ n := by
  by_contra less
  obtain ⟨c, rest, digits, -⟩ := Digits.cons_of_toDigits n
  have length : (Nat.toDigits 10 n).length = rest.length + 1 := by rw [digits, List.length_cons]
  rw [length, Nat.add_sub_cancel] at less
  cases rest with
  | nil => exact less positive
  | cons d rest =>
    have short := Nat.toDigits_length 10 n (rest.length + 1) (by omega) (by simpa using less)
    rw [length, List.length_cons] at short
    omega

theorem lt_pow_length (n : Nat) : n < 10 ^ (Nat.toDigits 10 n).length := by
  have value := @Digits.ofDigitChars_lt (Nat.toDigits 10 n) Digits.isDigit_of_mem_toDigits
  rwa [Nat.ofDigitChars_ten_toDigits] at value

/-- How many digits a quotient has behind a shift by `shift` places says between which powers of
ten it lies. -/
theorem quotient_bounds {num den shift length : Nat} (positive : 0 < den)
    (notZero : 0 < num * 10 ^ shift / den)
    (digits : (Nat.toDigits 10 (num * 10 ^ shift / den)).length = length + 1) :
    (10 : ℚ) ^ ((length : Int) - shift) ≤ num / den ∧
      (num : ℚ) / den < 10 ^ ((length : Int) - shift + 1) := by
  have low := pow_le_of_length notZero
  have high := lt_pow_length (num * 10 ^ shift / den)
  rw [digits] at low high
  rw [Nat.add_sub_cancel, Nat.le_div_iff_mul_le positive] at low
  rw [Nat.div_lt_iff_lt_mul positive] at high
  have ten : (10 : ℚ) ≠ 0 := by norm_num
  have unit : (0 : ℚ) < den := by exact_mod_cast positive
  have next : (length : Int) - shift + 1 = ((length + 1 : Nat) : Int) - shift := by omega
  constructor
  · rw [zpow_sub₀ ten, zpow_natCast, zpow_natCast, div_le_div_iff₀ (by positivity) unit]
    exact_mod_cast low
  · rw [next, zpow_sub₀ ten, zpow_natCast, zpow_natCast, div_lt_div_iff₀ unit (by positivity)]
    exact_mod_cast high

/-- A number that is not zero lies between the power of ten of its first digit and the next. -/
theorem leadingExponent_spec {x : Double} (positive : 0 < x.units) :
    (10 : ℚ) ^ x.leadingExponent ≤ x.size ∧ x.size < 10 ^ (x.leadingExponent + 1) := by
  have shifted : unitsPerOne ≤ 1 * 10 ^ 400 := by decide +kernel
  unfold leadingExponent
  generalize places : 400 = shift at shifted ⊢
  obtain ⟨c, rest, digits, -⟩ := Digits.cons_of_toDigits (x.units * 10 ^ shift / unitsPerOne)
  have length := congrArg List.length digits
  rw [List.length_cons] at length
  have lead : ((rest.length + 1 : Nat) : Int) - 401 = rest.length - shift := by omega
  have notZero : 0 < x.units * 10 ^ shift / unitsPerOne :=
    Nat.div_pos (shifted.trans (Nat.mul_le_mul_right _ positive)) unitsPerOne_pos
  rw [length, lead]
  exact quotient_bounds unitsPerOne_pos notZero length

/-! ### Grids -/

section Grid

/-- The distance between two points of the grid of multiples of `10 ^ p`. This and the next two are
multiples of a quarter of a unit, over the power of ten that makes all of them whole. -/
def gridStep (p : Int) : Nat := 10 ^ p.toNat * (4 * unitsPerOne)

/-- The number on the scale of the grid. -/
def gridValue (x : Double) (p : Int) : Nat := 4 * x.units * 10 ^ (-p).toNat

/-- Half the distance to the next larger double, on the scale of the grid. -/
def gridGap (x : Double) (p : Int) : Nat := 2 * (2 ^ x.exponent * 10 ^ (-p).toNat)

/-- The scale of the grid. -/
def gridScale (p : Int) : ℚ := 4 * unitsPerOne * 10 ^ (-p).toNat

variable (tie : Tie) (x : Double) (p : Int)

theorem gridScale_pos : 0 < gridScale p := by
  have unit := unitsPerOne_cast_pos
  unfold gridScale
  positivity

theorem gridStep_cast : (gridStep p : ℚ) = 10 ^ p * gridScale p := by
  have ten : (10 : ℚ) ≠ 0 := by norm_num
  have power : (10 : ℚ) ^ p.toNat = 10 ^ p * 10 ^ (-p).toNat := by
    rw [← zpow_natCast, ← zpow_natCast, ← zpow_add₀ ten]
    congr 1
    omega
  unfold gridStep gridScale
  push_cast
  rw [power]
  ring

theorem gridValue_cast : (gridValue x p : ℚ) = x.size * gridScale p := by
  have unit := unitsPerOne_cast_pos.ne'
  unfold gridValue gridScale size
  push_cast
  field_simp

theorem gridGap_cast : (gridGap x p : ℚ) = x.halfGap * gridScale p := by
  have unit := unitsPerOne_cast_pos.ne'
  unfold gridGap gridScale halfGap
  push_cast
  field_simp
  ring

/-- The lower neighbour on the grid. -/
def gridBelow : Nat := gridValue x p / gridStep p

/-- Whether a point of the grid reads back as the number. -/
def Inside (c : Nat) : Bool :=
  let gap := 2 ^ x.exponent * 10 ^ (-p).toNat
  let low := if x.significand = 2 ^ 52 ∧ 0 < x.exponent then gridValue x p - gap
    else gridValue x p - 2 * gap
  let high := gridValue x p + 2 * gap
  if x.significand % 2 = 0 then low ≤ c * gridStep p ∧ c * gridStep p ≤ high
  else low < c * gridStep p ∧ c * gridStep p < high

/-- `gridPoint?` in terms of the grid. -/
theorem gridPoint?_eq : x.gridPoint? tie p =
    match Inside x p (gridBelow x p), Inside x p (gridBelow x p + 1) with
    | false, false => none
    | true, false => some (gridBelow x p)
    | false, true => some (gridBelow x p + 1)
    | true, true =>
      let fromBelow := gridValue x p - gridBelow x p * gridStep p
      let fromAbove := (gridBelow x p + 1) * gridStep p - gridValue x p
      if fromAbove < fromBelow ∨ (fromAbove = fromBelow ∧ tie.takesUpper (gridBelow x p)) then
        some (gridBelow x p + 1)
      else some (gridBelow x p) := rfl

/-- What `gridPoint?` gives is one of the two neighbours, and reads back. -/
theorem gridPoint?_eq_some {c : Nat} (found : x.gridPoint? tie p = some c) :
    (c = gridBelow x p ∨ c = gridBelow x p + 1) ∧ Inside x p c = true := by
  rw [gridPoint?_eq] at found
  cases below : Inside x p (gridBelow x p) <;> cases above : Inside x p (gridBelow x p + 1) <;>
    simp only [below, above] at found
  case false.false => cases found
  case false.true =>
    cases found
    exact ⟨.inr rfl, above⟩
  case true.false =>
    cases found
    exact ⟨.inl rfl, below⟩
  case true.true =>
    split at found
    · cases found
      exact ⟨.inr rfl, above⟩
    · cases found
      exact ⟨.inl rfl, below⟩

/-- There is a point when one of the two neighbours reads back. -/
theorem exists_gridPoint?_of_inside
    (inside : Inside x p (gridBelow x p) = true ∨ Inside x p (gridBelow x p + 1) = true) :
    ∃ c, x.gridPoint? tie p = some c := by
  rw [gridPoint?_eq]
  cases below : Inside x p (gridBelow x p) <;> cases above : Inside x p (gridBelow x p + 1) <;>
    simp only
  case false.false => simp [below, above] at inside
  case false.true => exact ⟨_, rfl⟩
  case true.false => exact ⟨_, rfl⟩
  case true.true =>
    split
    · exact ⟨_, rfl⟩
    · exact ⟨_, rfl⟩

variable {tie x p}

/-- A point that reads back is at most half a gap above the number. -/
theorem le_of_inside {c : Nat} (inside : Inside x p c = true) :
    (c : ℚ) * 10 ^ p ≤ x.size + x.halfGap := by
  have high : c * gridStep p ≤ gridValue x p + gridGap x p := by
    unfold Inside at inside
    simp only at inside
    split at inside
    · exact (of_decide_eq_true inside).2
    · exact Nat.le_of_lt (of_decide_eq_true inside).2
  have scale := gridScale_pos p
  have cast : (c : ℚ) * gridStep p ≤ gridValue x p + gridGap x p := by exact_mod_cast high
  rw [gridStep_cast, gridValue_cast, gridGap_cast, ← add_mul, ← mul_assoc] at cast
  exact le_of_mul_le_mul_right cast scale

/-- On a grid whose steps are small against the gap, the nearer neighbour reads back. -/
theorem inside_of_step_lt (size : gridGap x p ≤ gridValue x p)
    (step : gridStep p < 2 * gridGap x p)
    (tight : x.significand = 2 ^ 52 → gridStep p < gridGap x p) :
    Inside x p (gridBelow x p) = true ∨ Inside x p (gridBelow x p + 1) = true := by
  have split := Nat.div_add_mod' (gridValue x p) (gridStep p)
  have positive : 0 < gridStep p := Nat.mul_pos (Nat.pow_pos (by decide))
    (Nat.mul_pos (by decide) unitsPerOne_pos)
  have short := Nat.mod_lt (gridValue x p) positive
  have next : (gridBelow x p + 1) * gridStep p = gridBelow x p * gridStep p + gridStep p :=
    Nat.succ_mul _ _
  unfold Inside
  unfold gridGap at size step tight
  change gridBelow x p * gridStep p + _ = _ at split
  simp only [next]
  generalize gridBelow x p * gridStep p = below at split ⊢
  generalize 2 ^ x.exponent * 10 ^ (-p).toNat = gap at size step tight ⊢
  generalize gridValue x p % gridStep p = rest at split short
  by_cases power : x.significand = 2 ^ 52
  · have step := tight power
    rcases Nat.le_total (2 * rest) (gridStep p) with near | far
    · left
      split <;> split <;> simp only [decide_eq_true_eq] <;> omega
    · right
      split <;> split <;> simp only [decide_eq_true_eq] <;> omega
  · simp only [power, false_and, if_false]
    rcases Nat.le_total (2 * rest) (gridStep p) with near | far
    · left
      split <;> simp only [decide_eq_true_eq] <;> omega
    · right
      split <;> simp only [decide_eq_true_eq] <;> omega

/-- The grid of 17 digits has steps that are small against the gap. -/
theorem exists_gridPoint? (tie : Tie) (positive : 0 < x.units)
    (grid : p = x.leadingExponent - 16) : ∃ c, x.gridPoint? tie p = some c := by
  have fine : 10 ^ 16 * gridStep p ≤ gridValue x p := by
    have ten : (10 : ℚ) ≠ 0 := by norm_num
    have power : (10 : ℚ) ^ x.leadingExponent = 10 ^ 16 * 10 ^ p := by
      rw [← zpow_natCast, ← zpow_add₀ ten, grid]
      congr 1
      omega
    have low := (leadingExponent_spec positive).1
    rw [power] at low
    have cast : (10 ^ 16 * gridStep p : ℚ) ≤ gridValue x p := by
      rw [gridStep_cast, gridValue_cast, ← mul_assoc]
      exact mul_le_mul_of_nonneg_right low (gridScale_pos p).le
    exact_mod_cast cast
  have value : gridValue x p = 2 * x.significand * gridGap x p := by
    unfold gridValue gridGap units
    ring
  have gap : 0 < gridGap x p :=
    Nat.mul_pos (by decide) (Nat.mul_pos (Nat.two_pow_pos _) (Nat.pow_pos (by decide)))
  have below := x.canonical.1
  have significand : 0 < x.significand := Nat.pos_of_mul_pos_right positive
  refine exists_gridPoint?_of_inside tie x p (inside_of_step_lt ?_ ?_ ?_)
  · rw [value]
    exact Nat.le_mul_of_pos_left _ (by omega)
  · have : 2 * x.significand * gridGap x p < 2 ^ 54 * gridGap x p :=
      Nat.mul_lt_mul_of_pos_right (by omega) gap
    omega
  · intro power
    rw [value, power] at fine
    omega

end Grid

/-! ### The shortest decimal -/

/-- The point of a grid of `n + 1` digits has at most so many. -/
theorem le_of_gridPoint? {tie : Tie} {x : Double} {n c : Nat} (positive : 0 < x.units)
    (found : x.gridPoint? tie (x.leadingExponent - n) = some c) : c ≤ 10 ^ (n + 1) := by
  set p := x.leadingExponent - n with p_eq
  have coarse : gridValue x p < 10 ^ (n + 1) * gridStep p := by
    have ten : (10 : ℚ) ≠ 0 := by norm_num
    have power : (10 : ℚ) ^ (x.leadingExponent + 1) = 10 ^ (n + 1) * 10 ^ p := by
      rw [← zpow_natCast, ← zpow_add₀ ten, p_eq]
      congr 1
      push_cast
      ring
    have high := (leadingExponent_spec positive).2
    rw [power] at high
    have cast : (gridValue x p : ℚ) < 10 ^ (n + 1) * gridStep p := by
      rw [gridStep_cast, gridValue_cast, ← mul_assoc]
      exact mul_lt_mul_of_pos_right high (gridScale_pos p)
    exact_mod_cast cast
  have below : gridBelow x p < 10 ^ (n + 1) := Nat.div_lt_of_lt_mul (by rwa [Nat.mul_comm])
  rcases (gridPoint?_eq_some tie x p found).1 with rfl | rfl
  · exact below.le
  · exact below

/-- The shortest decimal is found on a grid of at most 17 digits. -/
theorem shortest_eq_gridPoint? (tie : Tie) {x : Double} (positive : 0 < x.units) :
    ∃ n : Nat, n < 17 ∧ x.gridPoint? tie (x.leadingExponent - n) = some (x.shortest tie).1 ∧
      (x.shortest tie).2 = x.leadingExponent - n := by
  have notZero : ¬ x.isZero = true := by
    simpa [isZero, units] using positive.ne'
  obtain ⟨c, last⟩ := exists_gridPoint? tie positive rfl
  unfold shortest
  rw [if_neg notZero]
  simp only
  cases scan : (List.range 17).findSome? fun (n : Nat) =>
      (x.gridPoint? tie (x.leadingExponent - n)).map
        fun c => (c, x.leadingExponent - (n : Int)) with
  | none =>
    have miss := List.findSome?_eq_none_iff.mp scan 16 (by decide)
    rw [Nat.cast_ofNat, last] at miss
    cases miss
  | some found =>
    obtain ⟨n, mem, point⟩ := List.exists_of_findSome?_eq_some scan
    obtain ⟨c, grid, rfl⟩ := Option.map_eq_some_iff.mp point
    exact ⟨n, List.mem_range.mp mem, grid, rfl⟩

/-- The shortest decimal of a double has at most `10 ^ 17` for its significand, and lies at most
half a gap above the double. -/
theorem shortest_spec (tie : Tie) (x : Double) : (x.shortest tie).1 ≤ 10 ^ 17 ∧
    ((x.shortest tie).1 : ℚ) * 10 ^ (x.shortest tie).2 ≤ x.size + x.halfGap := by
  rcases Nat.eq_zero_or_pos x.units with zero | positive
  · have isZero : x.isZero = true := by simpa [isZero, units] using zero
    rw [shortest, if_pos isZero]
    refine ⟨Nat.zero_le _, ?_⟩
    rw [Nat.cast_zero, zero_mul]
    exact add_nonneg x.size_nonneg x.halfGap_pos.le
  · obtain ⟨n, few, grid, exponent⟩ := shortest_eq_gridPoint? tie positive
    refine ⟨(le_of_gridPoint? positive grid).trans (Nat.pow_le_pow_right (by decide) few), ?_⟩
    rw [exponent]
    exact le_of_inside (gridPoint?_eq_some tie x _ grid).2

end Footprint.Double
