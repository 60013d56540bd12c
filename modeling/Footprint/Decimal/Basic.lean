import Footprint.Rounding

/-!
Decimal numbers of bounded size.

A decimal is a sign, a mantissa of 96 bits and a scale of at most 28 places; its value is the
signed mantissa divided by `10 ^ scale`. The scale is part of the number (`2.50` is not written
`2.5`) but not of its value: `SameValue` compares values.

Zero has no sign. Every decimal is built by `ofParts`, which takes the sign off a zero, so rounding
and stripping give a plain zero as well, and whoever writes a number need not ask whether it is zero
before it writes a sign.
-/

namespace Footprint

-- Powers are those of the core library, whichever instances a reader of the module has in scope.
attribute [local instance (high)] instPowNat

/-- A signed mantissa over a power of ten. -/
structure Decimal where
  negative : Bool
  mantissa : Nat
  scale : Nat
  bounded : mantissa < 2 ^ (96 : Nat) ∧ scale ≤ 28
  sign_of_zero : mantissa = 0 → negative = false
deriving DecidableEq, Repr

namespace Decimal

/-- The largest mantissa. -/
def maxMantissa : Nat := 2 ^ (96 : Nat) - 1

/-- The largest scale. -/
def maxScale : Nat := 28

/-- The decimal with these parts; a zero loses its sign. -/
def ofParts (negative : Bool) (mantissa scale : Nat)
    (h : mantissa < 2 ^ (96 : Nat) ∧ scale ≤ 28) : Decimal :=
  ⟨negative && mantissa != 0, mantissa, scale, h, by intro zero; simp [zero]⟩

/-- The decimal with these parts, if they are within bounds. -/
def ofParts? (negative : Bool) (mantissa scale : Nat) : Option Decimal :=
  if h : mantissa < 2 ^ (96 : Nat) ∧ scale ≤ 28 then some (ofParts negative mantissa scale h)
  else none

/-- Zero. -/
def zero : Decimal := ofParts false 0 0 (by decide)

instance : Inhabited Decimal := ⟨zero⟩

/-- A whole number, if its size fits the mantissa. -/
def ofInt? (i : Int) : Option Decimal := ofParts? (i < 0) i.natAbs 0

/-- Whether the value is zero. -/
def isZero (d : Decimal) : Bool := d.mantissa = 0

/-- The mantissa with its sign. -/
def signed (d : Decimal) : Int := if d.negative then -d.mantissa else d.mantissa

/-- The two decimals denote the same number. -/
def SameValue (a b : Decimal) : Prop := a.signed * 10 ^ b.scale = b.signed * 10 ^ a.scale

instance (a b : Decimal) : Decidable (SameValue a b) := inferInstanceAs (Decidable (_ = _))

/-! ### Rounding -/

theorem roundHalfUp_le (m : Nat) {d : Nat} (h : 0 < d) : roundHalfUp m d ≤ m := by
  unfold roundHalfUp
  have : 2 * m + d < 2 * d * (m + 1) := by
    have : 2 * d * (m + 1) = 2 * (d * m) + 2 * d := by rw [Nat.mul_add, Nat.mul_assoc, Nat.mul_one]
    have : m ≤ d * m := Nat.le_mul_of_pos_left m h
    omega
  exact Nat.lt_succ_iff.mp (Nat.div_lt_of_lt_mul this)

/-- The nearest decimal with at most `places` places, a half going away from zero. -/
def round (d : Decimal) (places : Nat) : Decimal :=
  if below : places < d.scale then
    ofParts d.negative (roundHalfUp d.mantissa (10 ^ (d.scale - places))) places
      ⟨Nat.lt_of_le_of_lt (roundHalfUp_le _ (Nat.pow_pos (by decide))) d.bounded.1, by
        have := d.bounded.2
        omega⟩
  else d

/-- Take zeros off the end of the fraction: the pair of the shortened mantissa and scale. -/
def strip : Nat → Nat → Nat × Nat
  | mantissa, 0 => (mantissa, 0)
  | mantissa, scale + 1 =>
    if mantissa % 10 = 0 then strip (mantissa / 10) scale else (mantissa, scale + 1)

theorem strip_le (mantissa scale : Nat) :
    (strip mantissa scale).1 ≤ mantissa ∧ (strip mantissa scale).2 ≤ scale := by
  induction scale generalizing mantissa with
  | zero => exact ⟨Nat.le_refl _, Nat.le_refl _⟩
  | succ scale ih =>
    unfold strip
    split
    · have := ih (mantissa / 10)
      omega
    · exact ⟨Nat.le_refl _, Nat.le_refl _⟩

/-- The same value without zeros at the end of the fraction. -/
def normalize (d : Decimal) : Decimal :=
  let short := strip d.mantissa d.scale
  ofParts d.negative short.1 short.2
    ⟨Nat.lt_of_le_of_lt (strip_le ..).1 d.bounded.1, Nat.le_trans (strip_le ..).2 d.bounded.2⟩

/-! ### Digits -/

/-- The digits of `n`, with zeros in front up to `width`. -/
def paddedDigits (width n : Nat) : List Char :=
  let digits := Nat.toDigits 10 n
  List.replicate (width - digits.length) '0' ++ digits

/-- The digits before the point, of the size of the number. -/
def wholeDigits (d : Decimal) : List Char := Nat.toDigits 10 (d.mantissa / 10 ^ d.scale)

/-- The digits after the point: as many as the scale says. -/
def fractionDigits (d : Decimal) : List Char :=
  if d.scale = 0 then [] else paddedDigits d.scale (d.mantissa % 10 ^ d.scale)

/-- The number with all the places of its scale. -/
def chars (d : Decimal) : List Char :=
  let size := match d.fractionDigits with
    | [] => d.wholeDigits
    | fraction => d.wholeDigits ++ '.' :: fraction
  if d.negative then '-' :: size else size

/-- The number with all the places of its scale. -/
def text (d : Decimal) : String := String.ofList d.chars

end Decimal

end Footprint
