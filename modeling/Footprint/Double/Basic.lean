import Footprint.Rounding

/-!
Double precision numbers, exactly.

A finite double is a sign and a whole number of units of `2 ^ -1074`, the smallest positive
double; the units have at most 53 significant bits. All arithmetic is done on the exact quotients
and rounded once by `Double.nearest`, ties to even, so every operation is a function of natural
numbers.
-/

namespace Footprint

-- Powers are those of the core library, whichever instances a reader of the module has in scope.
attribute [local instance (high)] instPowNat

/-- A finite double precision number, `± significand * 2 ^ exponent` units of `2 ^ -1074`. -/
structure Double where
  negative : Bool
  significand : Nat
  exponent : Nat
  canonical : significand < 2 ^ (53 : Nat) ∧ exponent ≤ 2045 ∧
    (2 ^ (52 : Nat) ≤ significand ∨ exponent = 0)
deriving DecidableEq, Repr

namespace Double

/-- The size of the unit is the reciprocal of this number. -/
def unitsPerOne : Nat := 2 ^ (1074 : Nat)

/-- The distance from zero, in units. -/
def units (x : Double) : Nat := x.significand * 2 ^ x.exponent

/-- Zero with the given sign. -/
def zero (negative : Bool) : Double := ⟨negative, 0, 0, by decide⟩

instance : Inhabited Double := ⟨zero false⟩

/-- Whether the number is zero, of either sign. -/
def isZero (x : Double) : Bool := x.significand = 0

/-- The double nearest to `± num / den`, ties to even; `none` beyond the largest double. -/
def nearest (negative : Bool) (num den : Nat) : Option Double :=
  let scaled := num * unitsPerOne
  let shift := (scaled / den).log2 - 52
  let rounded := roundHalfEven scaled (den * 2 ^ shift)
  let carried := rounded = 2 ^ (53 : Nat)
  let significand := if carried then 2 ^ (52 : Nat) else rounded
  let exponent := if carried then shift + 1 else shift
  if h : significand < 2 ^ (53 : Nat) ∧ exponent ≤ 2045 ∧
      (2 ^ (52 : Nat) ≤ significand ∨ exponent = 0) then
    some ⟨negative, significand, exponent, h⟩
  else
    none

/-- The double nearest to a natural number. -/
def ofNat? (n : Nat) : Option Double := nearest false n 1

/-- The double nearest to `10 ^ k`. -/
def tenPow? (k : Nat) : Option Double := ofNat? (10 ^ k)

/-- The exact units with their sign. -/
def signedUnits (x : Double) : Int := if x.negative then -x.units else x.units

/-- The rounded sum; a zero sum is negative only when both numbers are. -/
def add? (x y : Double) : Option Double :=
  let sum := x.signedUnits + y.signedUnits
  nearest (sum < 0 || (x.negative && y.negative)) sum.natAbs unitsPerOne

/-- The rounded product. -/
def mul? (x y : Double) : Option Double :=
  nearest (x.negative != y.negative) (x.units * y.units) (unitsPerOne * unitsPerOne)

/-- The rounded quotient; `none` for a zero divisor. -/
def div? (x y : Double) : Option Double :=
  if y.isZero then none else nearest (x.negative != y.negative) x.units y.units

/-- The nearest whole number, a half going away from zero. -/
def round? (x : Double) : Option Double :=
  nearest x.negative (roundHalfUp x.units unitsPerOne) 1

/-- The same number with its sign turned when `turn` holds. -/
def negateIf (turn : Bool) (x : Double) : Double := { x with negative := x.negative != turn }

/-- Divide by ever further powers of ten, at most `10 ^ 308` at a time. Three steps reach zero
from any number below `2 ^ 64`. -/
def scaleDown? : Nat → Double → Nat → Option Double
  | 0, x, _ => some (zero x.negative)
  | steps + 1, x, k =>
    if k ≤ 308 then (tenPow? k).bind x.div?
    else if x.isZero then some x
    else (tenPow? 308).bind fun power => (x.div? power).bind fun y => scaleDown? steps y (k - 308)

/-- `± significand * 10 ^ exponent` as number texts are read: the significand is rounded to a
double, which is then multiplied or divided by a power of ten and rounded again. -/
def ofScientific? (negative : Bool) (significand : Nat) (exponent : Int) : Option Double :=
  (ofNat? significand).bind fun x =>
    let signed := x.negateIf negative
    match exponent with
    | .ofNat k =>
      if signed.isZero then some signed
      else if k ≤ 308 then (tenPow? k).bind signed.mul?
      else none
    | .negSucc k => scaleDown? 4 signed (k + 1)

end Double

end Footprint
