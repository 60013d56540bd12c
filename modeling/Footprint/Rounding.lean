/-!
Rounding a quotient of natural numbers to a whole number.

Both roundings are nearest; they differ on an exact half only:

* `roundHalfUp` takes the larger neighbour,
* `roundHalfEven` takes the even one.
-/

namespace Footprint

/-- The whole number nearest to `num / den`; a half goes up. -/
def roundHalfUp (num den : Nat) : Nat := (2 * num + den) / (2 * den)

/-- The whole number nearest to `num / den`; a half goes to the even neighbour. -/
def roundHalfEven (num den : Nat) : Nat :=
  let below := num / den
  let rest := num % den
  if 2 * rest < den ∨ (2 * rest = den ∧ below % 2 = 0) then below else below + 1

/-- `roundHalfUp` is within half a unit, and not at the half below it. -/
theorem roundHalfUp_bounds (num : Nat) {den : Nat} (h : 0 < den) :
    2 * den * roundHalfUp num den ≤ 2 * num + den ∧
      2 * num < 2 * den * roundHalfUp num den + den := by
  unfold roundHalfUp
  have split := Nat.div_add_mod (2 * num + den) (2 * den)
  have small := Nat.mod_lt (2 * num + den) (show 0 < 2 * den by omega)
  omega

end Footprint
