import Footprint.Double.Basic
import Mathlib.Tactic.Ring

/-!
Rounding to the nearest double.

The rounded quotient is seen through its units (`Double.roundedUnits`), in which neither the sign
nor the choice of significand and exponent plays a part.

* `Double.nearest_mono`: a larger quotient is rounded to a larger double, and a smaller one to a
  finite double.
* `Double.nearest_le`, `Double.le_nearest`: a quotient on one side of a double stays on that side.
-/

namespace Footprint

/-! ### Rounding to a whole number -/

theorem roundHalfEven_mul_right (num den : Nat) {c : Nat} (positive : 0 < c) :
    roundHalfEven (num * c) (den * c) = roundHalfEven num den := by
  unfold roundHalfEven
  simp only [Nat.mul_div_mul_right _ _ positive, Nat.mul_mod_mul_right]
  have less : 2 * (num % den * c) < den * c ↔ 2 * (num % den) < den := by
    rw [← Nat.mul_assoc, Nat.mul_lt_mul_right positive]
  have same : 2 * (num % den * c) = den * c ↔ 2 * (num % den) = den := by
    rw [← Nat.mul_assoc, Nat.mul_right_cancel_iff positive]
  simp only [less, same]

theorem div_le_roundHalfEven (num den : Nat) : num / den ≤ roundHalfEven num den := by
  unfold roundHalfEven
  simp only
  split
  · exact Nat.le_refl _
  · exact Nat.le_succ _

theorem roundHalfEven_le (num den : Nat) : roundHalfEven num den ≤ num / den + 1 := by
  unfold roundHalfEven
  simp only
  split
  · exact Nat.le_succ _
  · exact Nat.le_refl _

theorem roundHalfEven_le_of_le {num more den : Nat} (le : num ≤ more) :
    roundHalfEven num den ≤ roundHalfEven more den := by
  rcases Nat.lt_or_eq_of_le (Nat.div_le_div_right (c := den) le) with less | same
  · calc roundHalfEven num den ≤ num / den + 1 := roundHalfEven_le num den
      _ ≤ more / den := less
      _ ≤ roundHalfEven more den := div_le_roundHalfEven more den
  · have rest : num % den ≤ more % den := by
      have split := Nat.div_add_mod num den
      have splitMore := Nat.div_add_mod more den
      rw [same] at split
      omega
    unfold roundHalfEven
    simp only [same]
    split
    · split
      · exact Nat.le_refl _
      · exact Nat.le_succ _
    · rw [if_neg (by omega)]

/-- A larger quotient is rounded to a larger whole number. -/
theorem roundHalfEven_mono {num den num' den' : Nat} (positive : 0 < den) (positive' : 0 < den')
    (le : num * den' ≤ num' * den) : roundHalfEven num den ≤ roundHalfEven num' den' := by
  calc roundHalfEven num den = roundHalfEven (num * den') (den * den') :=
        (roundHalfEven_mul_right num den positive').symm
    _ ≤ roundHalfEven (num' * den) (den * den') := roundHalfEven_le_of_le le
    _ = roundHalfEven (num' * den) (den' * den) := by rw [Nat.mul_comm den den']
    _ = roundHalfEven num' den' := roundHalfEven_mul_right num' den' positive

theorem roundHalfEven_of_mul (n : Nat) {den : Nat} (positive : 0 < den) :
    roundHalfEven (n * den) den = n := by
  unfold roundHalfEven
  simp only [Nat.mul_div_cancel n positive, Nat.mul_mod_left, Nat.mul_zero]
  rw [if_pos (.inl positive)]

namespace Double

/-! ### The units of a rounded quotient -/

/-- The place of the last digit of `num / den` as a double: a power of two, in units. -/
def lastPlace (num den : Nat) : Nat := (num * unitsPerOne / den).log2 - 52

/-- The significand of `num / den`, before a carry. -/
def roundedDigits (num den : Nat) : Nat :=
  roundHalfEven (num * unitsPerOne) (den * 2 ^ lastPlace num den)

/-- The units to which `num / den` is rounded. -/
def roundedUnits (num den : Nat) : Nat := roundedDigits num den * 2 ^ lastPlace num den

theorem unitsPerOne_pos : 0 < unitsPerOne := by
  unfold unitsPerOne
  generalize 1074 = places
  exact Nat.two_pow_pos places

/-- The significand of `num / den`; a carry makes room for its last digit. -/
def carriedDigits (num den : Nat) : Nat :=
  if roundedDigits num den = 2 ^ 53 then 2 ^ 52 else roundedDigits num den

/-- The exponent of `num / den`, after a carry. -/
def carriedPlace (num den : Nat) : Nat :=
  if roundedDigits num den = 2 ^ 53 then lastPlace num den + 1 else lastPlace num den

theorem nearest_eq (negative : Bool) (num den : Nat) : nearest negative num den =
    if h : carriedDigits num den < 2 ^ 53 ∧ carriedPlace num den ≤ 2045 ∧
        (2 ^ 52 ≤ carriedDigits num den ∨ carriedPlace num den = 0) then
      some ⟨negative, carriedDigits num den, carriedPlace num den, h⟩
    else none := rfl

theorem carried_mul (num den : Nat) :
    carriedDigits num den * 2 ^ carriedPlace num den = roundedUnits num den := by
  unfold carriedDigits carriedPlace roundedUnits
  split
  case isTrue carried =>
    rw [carried, Nat.pow_succ (n := 2)]
    ring
  case isFalse => rfl

section Units

variable {num den : Nat}

/-- The quotient is below 53 binary digits in front of the last place. -/
theorem scaled_lt (positive : 0 < den) :
    num * unitsPerOne < 2 ^ 53 * (den * 2 ^ lastPlace num den) := by
  have below : num * unitsPerOne / den < 2 ^ (53 + lastPlace num den) := by
    refine Nat.lt_of_lt_of_le Nat.lt_log2_self (Nat.pow_le_pow_right (by decide) ?_)
    unfold lastPlace
    omega
  calc num * unitsPerOne < den * 2 ^ (53 + lastPlace num den) :=
        Nat.lt_mul_of_div_lt below positive |>.trans_eq (Nat.mul_comm _ _)
    _ = 2 ^ 53 * (den * 2 ^ lastPlace num den) := by
        rw [Nat.pow_add]
        ring

/-- Where the last place is not the first unit, the quotient has all 53 binary digits. -/
theorem le_scaled (large : lastPlace num den ≠ 0) :
    2 ^ 52 * (den * 2 ^ lastPlace num den) ≤ num * unitsPerOne := by
  have notZero : num * unitsPerOne / den ≠ 0 := by
    intro zero
    rw [lastPlace, zero] at large
    exact large rfl
  have above : 2 ^ (52 + lastPlace num den) ≤ num * unitsPerOne / den := by
    have same : 52 + lastPlace num den = (num * unitsPerOne / den).log2 := by
      unfold lastPlace at large ⊢
      omega
    rw [same]
    exact Nat.log2_self_le notZero
  calc 2 ^ 52 * (den * 2 ^ lastPlace num den) = 2 ^ (52 + lastPlace num den) * den := by
        rw [Nat.pow_add]
        ring
    _ ≤ num * unitsPerOne / den * den := Nat.mul_le_mul_right _ above
    _ ≤ num * unitsPerOne := Nat.div_mul_le_self _ _

theorem roundedDigits_le (positive : 0 < den) : roundedDigits num den ≤ 2 ^ 53 := by
  have place : 0 < den * 2 ^ lastPlace num den := Nat.mul_pos positive (Nat.two_pow_pos _)
  calc roundedDigits num den
      ≤ roundHalfEven (2 ^ 53 * (den * 2 ^ lastPlace num den)) (den * 2 ^ lastPlace num den) :=
        roundHalfEven_le_of_le (Nat.le_of_lt (scaled_lt positive))
    _ = 2 ^ 53 := roundHalfEven_of_mul _ place

theorem le_roundedDigits (positive : 0 < den) (large : lastPlace num den ≠ 0) :
    2 ^ 52 ≤ roundedDigits num den := by
  have place : 0 < den * 2 ^ lastPlace num den := Nat.mul_pos positive (Nat.two_pow_pos _)
  calc 2 ^ 52 = roundHalfEven (2 ^ 52 * (den * 2 ^ lastPlace num den))
        (den * 2 ^ lastPlace num den) := (roundHalfEven_of_mul _ place).symm
    _ ≤ roundedDigits num den := roundHalfEven_le_of_le (le_scaled large)

/-- A finite rounding has the rounded units. -/
theorem units_of_nearest {negative : Bool} {z : Double}
    (rounds : nearest negative num den = some z) :
    z.units = roundedUnits num den ∧ z.negative = negative := by
  rw [nearest_eq] at rounds
  obtain ⟨_, same⟩ := Option.dite_none_right_eq_some.mp rounds
  obtain rfl := Option.some.inj same
  exact ⟨carried_mul num den, rfl⟩

theorem units_lt (x : Double) : x.units < 2 ^ (53 + x.exponent) := by
  rw [Nat.pow_add]
  exact Nat.mul_lt_mul_of_pos_right x.canonical.1 (Nat.two_pow_pos _)

/-- The rounding is finite where the rounded units are those of a finite exponent. -/
theorem exists_nearest (negative : Bool) (positive : 0 < den) {most : Nat} (low : most ≤ 2045)
    (finite : roundedUnits num den < 2 ^ (53 + most)) : ∃ z, nearest negative num den = some z := by
  have range (least : 2 ^ 52 ≤ carriedDigits num den) : carriedPlace num den ≤ 2045 := by
    have power : 2 ^ (52 + carriedPlace num den) < 2 ^ (53 + most) := by
      rw [Nat.pow_add]
      rw [← carried_mul] at finite
      exact Nat.lt_of_le_of_lt (Nat.mul_le_mul_right _ least) finite
    have := (Nat.pow_lt_pow_iff_right (a := 2) (by decide)).mp power
    omega
  have canonical : carriedDigits num den < 2 ^ 53 ∧
      (2 ^ 52 ≤ carriedDigits num den ∨ carriedPlace num den = 0) := by
    unfold carriedDigits carriedPlace
    split
    case isTrue => exact ⟨by decide, .inl (Nat.le_refl _)⟩
    case isFalse notCarried =>
      refine ⟨Nat.lt_of_le_of_ne (roundedDigits_le positive) notCarried, ?_⟩
      by_cases large : lastPlace num den = 0
      · exact .inr large
      · exact .inl (le_roundedDigits positive large)
  refine ⟨_, (nearest_eq negative num den).trans (dif_pos ⟨canonical.1, ?_, canonical.2⟩)⟩
  rcases canonical.2 with least | low
  · exact range least
  · omega

end Units

/-! ### Order -/

section Order

variable {num den num' den' : Nat}

theorem log2_mono {a b : Nat} (le : a ≤ b) : a.log2 ≤ b.log2 := by
  by_cases zero : a = 0
  · rw [zero]
    exact Nat.zero_le _
  · exact (Nat.le_log2 (by omega)).mpr (Nat.le_trans (Nat.log2_self_le zero) le)

theorem lastPlace_mono (positive : 0 < den) (positive' : 0 < den')
    (le : num * den' ≤ num' * den) : lastPlace num den ≤ lastPlace num' den' := by
  have quotient : num * unitsPerOne / den ≤ num' * unitsPerOne / den' := by
    rw [Nat.le_div_iff_mul_le positive']
    refine Nat.le_of_mul_le_mul_right ?_ positive
    calc num * unitsPerOne / den * den' * den = num * unitsPerOne / den * den * den' := by ring
      _ ≤ num * unitsPerOne * den' := Nat.mul_le_mul_right _ (Nat.div_mul_le_self _ _)
      _ = num * den' * unitsPerOne := by ring
      _ ≤ num' * den * unitsPerOne := Nat.mul_le_mul_right _ le
      _ = num' * unitsPerOne * den := by ring
  exact Nat.sub_le_sub_right (log2_mono quotient) 52

/-- A larger quotient is rounded to more units. -/
theorem roundedUnits_mono (positive : 0 < den) (positive' : 0 < den')
    (le : num * den' ≤ num' * den) : roundedUnits num den ≤ roundedUnits num' den' := by
  rcases Nat.lt_or_eq_of_le (lastPlace_mono positive positive' le) with less | same
  · -- The larger quotient has more binary digits.
    have power : 2 ^ (lastPlace num den + 1) ≤ 2 ^ lastPlace num' den' :=
      Nat.pow_le_pow_right (by decide) less
    calc roundedUnits num den ≤ 2 ^ 53 * 2 ^ lastPlace num den :=
          Nat.mul_le_mul_right _ (roundedDigits_le positive)
      _ = 2 ^ 52 * 2 ^ (lastPlace num den + 1) := by
          rw [Nat.pow_succ (n := 2)]
          ring
      _ ≤ 2 ^ 52 * 2 ^ lastPlace num' den' := Nat.mul_le_mul_left _ power
      _ ≤ roundedUnits num' den' :=
          Nat.mul_le_mul_right _ (le_roundedDigits positive' (by omega))
  · have place : 0 < 2 ^ lastPlace num' den' := Nat.two_pow_pos _
    unfold roundedUnits roundedDigits
    rw [same]
    refine Nat.mul_le_mul_right _
      (roundHalfEven_mono (Nat.mul_pos positive place) (Nat.mul_pos positive' place) ?_)
    calc num * unitsPerOne * (den' * 2 ^ lastPlace num' den')
        = num * den' * (unitsPerOne * 2 ^ lastPlace num' den') := by ring
      _ ≤ num' * den * (unitsPerOne * 2 ^ lastPlace num' den') := Nat.mul_le_mul_right _ le
      _ = num' * unitsPerOne * (den * 2 ^ lastPlace num' den') := by ring

/-- The last place of a double is its exponent. -/
theorem lastPlace_units (x : Double) : lastPlace x.units unitsPerOne = x.exponent := by
  rw [lastPlace, Nat.mul_div_cancel _ unitsPerOne_pos, units]
  obtain ⟨below, -, least⟩ := x.canonical
  by_cases zero : x.significand = 0
  · have low : x.exponent = 0 := least.resolve_left (by omega)
    rw [zero, low]
    decide
  · have positive : 0 < 2 ^ x.exponent := Nat.two_pow_pos _
    have log : (x.significand * 2 ^ x.exponent).log2 = x.significand.log2 + x.exponent := by
      have notZero : x.significand * 2 ^ x.exponent ≠ 0 := Nat.mul_ne_zero zero positive.ne'
      refine (Nat.log2_eq_iff notZero).mpr ⟨?_, ?_⟩
      · rw [Nat.pow_add]
        exact Nat.mul_le_mul_right _ (Nat.log2_self_le zero)
      · rw [Nat.add_right_comm, Nat.pow_add]
        exact Nat.mul_lt_mul_of_pos_right Nat.lt_log2_self positive
    have short : x.significand.log2 < 53 := (Nat.log2_lt zero).mpr below
    rw [log]
    rcases least with least | low
    · have full : 52 ≤ x.significand.log2 := (Nat.le_log2 zero).mpr least
      omega
    · omega

/-- A double is rounded to itself. -/
theorem roundedUnits_units (x : Double) : roundedUnits x.units unitsPerOne = x.units := by
  unfold roundedUnits roundedDigits
  rw [lastPlace_units]
  have exact : roundHalfEven (x.units * unitsPerOne) (unitsPerOne * 2 ^ x.exponent) =
      x.significand := by
    have split : x.units * unitsPerOne = x.significand * (unitsPerOne * 2 ^ x.exponent) := by
      rw [units]
      ring
    rw [split]
    exact roundHalfEven_of_mul _ (Nat.mul_pos unitsPerOne_pos (Nat.two_pow_pos _))
  rw [exact, units]

/-- A larger quotient is rounded to a larger double; if it is finite, so is the smaller one. -/
theorem nearest_mono {negative' : Bool} (negative : Bool) (positive : 0 < den)
    (positive' : 0 < den') (le : num * den' ≤ num' * den) {z' : Double}
    (rounds : nearest negative' num' den' = some z') :
    ∃ z, nearest negative num den = some z ∧ z.units ≤ z'.units := by
  have fewer := roundedUnits_mono positive positive' le
  rw [← (units_of_nearest rounds).1] at fewer
  obtain ⟨z, found⟩ := exists_nearest negative positive z'.canonical.2.1
    (Nat.lt_of_le_of_lt fewer z'.units_lt)
  exact ⟨z, found, (units_of_nearest found).1.trans_le fewer⟩

/-- A quotient that is at most a double is rounded to at most that double. -/
theorem nearest_le (negative : Bool) (positive : 0 < den) {x : Double}
    (le : num * unitsPerOne ≤ x.units * den) :
    ∃ z, nearest negative num den = some z ∧ z.units ≤ x.units := by
  have fewer := roundedUnits_mono positive unitsPerOne_pos le
  rw [roundedUnits_units] at fewer
  obtain ⟨z, found⟩ := exists_nearest negative positive x.canonical.2.1
    (Nat.lt_of_le_of_lt fewer x.units_lt)
  exact ⟨z, found, (units_of_nearest found).1.trans_le fewer⟩

/-- A quotient that is at least a double is rounded to at least that double. -/
theorem le_nearest {negative : Bool} (positive : 0 < den) {x z : Double}
    (le : x.units * den ≤ num * unitsPerOne) (rounds : nearest negative num den = some z) :
    x.units ≤ z.units := by
  have more := roundedUnits_mono unitsPerOne_pos positive le
  rwa [roundedUnits_units, ← (units_of_nearest rounds).1] at more

end Order

end Double

end Footprint
