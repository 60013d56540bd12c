import Footprint.Decimal.Reading
import Footprint.Double.Text

/-!
Decimals and doubles.

A double becomes the decimal that its expanded text reads as. A decimal becomes a double in steps
that are each rounded, so digits beyond the sixteenth can be lost: whole part and fraction are
converted and added, and the sum is rounded to the places of the decimal.
-/

namespace Footprint.Decimal

-- Powers are those of the core library, whichever instances a reader of the module has in scope.
attribute [local instance (high)] instPowNat

/-- The decimal that the shortest digits of `x`, written without exponent, read as. -/
def ofDouble? (x : Double) : Option Decimal := ofPlain? (x.chars .expanded)

/-- The size of a decimal as a double. -/
def sizeToDouble? (d : Decimal) : Option Double := do
  let power := 10 ^ d.scale
  let whole ← Double.ofNat? (d.mantissa / power)
  if d.mantissa % power = 0 then
    return whole
  let scale ← Double.tenPow? d.scale
  let fraction ← (← Double.ofNat? (d.mantissa % power)).div? scale
  let sum ← whole.add? fraction
  (← (← sum.mul? scale).round?).div? scale

/-- The double that stands for a decimal in documents. All intermediate results are far below the
largest double, so the default is never taken. -/
def toDouble (d : Decimal) : Double := (d.sizeToDouble?.getD (.zero false)).negateIf d.negative

/-- The whole number that equals `d`, if there is one in the range of 64 bits with sign. -/
def toInt64? (d : Decimal) : Option Int :=
  let power := 10 ^ d.scale
  let whole : Int := if d.negative then -(d.mantissa / power : Nat) else (d.mantissa / power : Nat)
  if d.mantissa % power = 0 ∧ -2 ^ (63 : Nat) ≤ whole ∧ whole < 2 ^ (63 : Nat) then some whole
  else none

end Footprint.Decimal
