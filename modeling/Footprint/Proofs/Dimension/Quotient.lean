import Footprint.Proofs.Dimension.Combined
import Footprint.Proofs.Dimension.Product

/-!
Quotients and products undo each other.

A quotient that exists is always undone by a product. A product is undone by a quotient unless the
divisor stores the least exponent: that one has no opposite, so nothing can be divided by it, even
where the quotient itself would be in range.

* `not_div_of_storesLeast`: no quotient by a dimension that stores the least exponent.
* `undone_mul_div`: what products and quotients of two dimensions make of each other.
-/

namespace Footprint.Dimension

variable {a b c p q : Dimension}

/-! ### The least exponent -/

/-- Some base is stored with the least exponent. -/
def StoresLeast (d : Dimension) : Prop := ∃ base, (base, Int32.minValue) ∈ d.entries

/-- The first base, in the order of bytes, that is stored with the least exponent. -/
structure FirstLeast (d : Dimension) (base : String) : Prop where
  stored : (base, Int32.minValue) ∈ d.entries
  before : ∀ other, Text.BytesBefore other base → (other, Int32.minValue) ∉ d.entries

theorem mem_entries_least_iff {base : String} :
    (base, Int32.minValue) ∈ b.entries ↔ b.exponent base = Int32.minValue := by
  rw [mem_entries_iff]
  exact and_iff_left (by decide)

theorem exponent_ne_least (least : ¬ b.StoresLeast) (base : String) :
    b.exponent base ≠ Int32.minValue :=
  fun same => least ⟨base, mem_entries_least_iff.mpr same⟩

theorem canAdd_neg_one_iff {d : Dimension} {base : String} {e : Int32} : d.CanAdd base (-1) e ↔
    e ≠ Int32.minValue ∧ ExponentRange ((d.exponent base).toInt - e.toInt) := by
  rw [CanAdd, neg_one_mul_toInt, exponentRange_neg_iff, Int.sub_eq_add_neg]

/-- Dividing adds the opposite exponents, in the order of the bases. -/
theorem addsTo_div (a b : Dimension) : AddsTo a (-1) b.exponent (a.div b) := by
  rw [div, weightedSum?_pair]
  exact addsTo_addScaled? a b (-1)

/-- A quotient that exists has the exact exponents, and its divisor has no least exponent. -/
theorem of_div (divided : a.div b = .ok q) : ¬ b.StoresLeast ∧
    ∀ base, (q.exponent base).toInt = quotientExponent a b base := by
  have adds := addsTo_div a b
  rw [divided] at adds
  cases adds with
  | exact fits value =>
    refine ⟨?_, fun base => ?_⟩
    · rintro ⟨base, mem⟩
      exact (canAdd_neg_one_iff.mp (fits base)).1 (mem_entries_least_iff.mp mem)
    · rw [value, neg_one_mul_toInt, quotientExponent, Int.sub_eq_add_neg]

/-- Nothing can be divided by a dimension that stores the least exponent. -/
theorem not_div_of_storesLeast (least : b.StoresLeast) (x : Dimension) :
    ∃ base, x.div b = .error (.exponentOverflow base) := by
  cases divided : x.div b with
  | ok q => exact absurd least (of_div divided).1
  | error e =>
    have adds := addsTo_div x b
    rw [divided] at adds
    cases adds with
    | @overflow base _ _ => exact ⟨base, rfl⟩

/-! ### Undoing -/

theorem mul_of_div (divided : a.div b = .ok q) : q.mul b = .ok a := by
  refine (comesTo_mul q b).eq (comesTo_ok a) fun base => ?_
  rw [productExponent, (of_div divided).2, quotientExponent, Int.sub_add_cancel]

theorem quotientExponent_mul (multiplied : a.mul b = .ok p) (base : String) :
    quotientExponent p b base = (a.exponent base).toInt := by
  rw [quotientExponent, (comesTo_mul a b).toInt_exponent multiplied, productExponent,
    Int.add_sub_cancel]

theorem div_of_mul (multiplied : a.mul b = .ok p) (least : ¬ b.StoresLeast) :
    p.div b = .ok a :=
  (comesTo_div (exponent_ne_least least)).eq (comesTo_ok a) (quotientExponent_mul multiplied)

/-- A product cannot be divided by a factor with the least exponent. All differences are in range,
so it is the first of these exponents that is reported. -/
theorem div_of_mul_of_storesLeast (multiplied : a.mul b = .ok p) (least : b.StoresLeast) :
    ∃ base, b.FirstLeast base ∧ p.div b = .error (.exponentOverflow base) := by
  have canAdd_iff (base : String) :
      p.CanAdd base (-1) (b.exponent base) ↔ (base, Int32.minValue) ∉ b.entries := by
    have inRange : ExponentRange ((p.exponent base).toInt - (b.exponent base).toInt) := by
      rw [← quotientExponent, quotientExponent_mul multiplied]
      exact exponentRange_toInt _
    rw [canAdd_neg_one_iff, mem_entries_least_iff]
    exact and_iff_left inRange
  have adds := addsTo_div p b
  obtain ⟨base, failed⟩ := not_div_of_storesLeast least p
  rw [failed] at adds
  cases adds with
  | overflow lost before =>
    refine ⟨base, ⟨?_, fun other less => ?_⟩, failed⟩
    · rwa [canAdd_iff, not_not] at lost
    · exact (canAdd_iff other).mp (before other (Text.bytesBefore_iff.mp less))

theorem div_self_iff : (∃ q, a.div a = .ok q ∧ q.isOne = true) ↔ ¬ a.StoresLeast := by
  constructor
  · rintro ⟨q, divided, -⟩
    exact (of_div divided).1
  · intro least
    refine ⟨one, (comesTo_div (exponent_ne_least least)).eq (comesTo_ok one) fun base => ?_, rfl⟩
    exact Int.sub_self _

/-- An inverse has the opposite exponents, so there is no least one among those it inverts. -/
theorem of_inverse (inverse : b.pow (-1) = .ok c) : ¬ b.StoresLeast ∧
    ∀ base, (c.exponent base).toInt = -(b.exponent base).toInt := by
  have value (base : String) : (c.exponent base).toInt = -(b.exponent base).toInt := by
    rw [(comesTo_pow b (-1)).toInt_exponent inverse, powerExponent, neg_one_mul_toInt]
  refine ⟨?_, value⟩
  rintro ⟨base, mem⟩
  have opposite : ExponentRange (-(b.exponent base).toInt) := value base ▸ exponentRange_toInt _
  exact exponentRange_neg_iff.mp opposite (mem_entries_least_iff.mp mem)

/-- To divide is to multiply with the inverse, errors included. -/
theorem div_eq_mul_inverse (inverse : b.pow (-1) = .ok c) : a.div b = a.mul c := by
  obtain ⟨least, value⟩ := of_inverse inverse
  refine (comesTo_div (exponent_ne_least least)).eq (comesTo_mul a c) fun base => ?_
  rw [quotientExponent, productExponent, value, Int.sub_eq_add_neg]

/-- What products and quotients with `b` make of each other. -/
structure Undone (a b : Dimension) : Prop where
  mul_div : ∀ q, a.div b = .ok q → q.mul b = .ok a
  div_mul : ∀ p, a.mul b = .ok p → ¬ b.StoresLeast → p.div b = .ok a
  /-- Nothing is divided by a dimension with the least exponent. -/
  undivided : b.StoresLeast → ∀ x : Dimension, ∃ base, x.div b = .error (.exponentOverflow base)
  /-- A product with it is refused for the first base that has it. -/
  refused : b.StoresLeast → ∀ p, a.mul b = .ok p →
    ∃ base, b.FirstLeast base ∧ p.div b = .error (.exponentOverflow base)
  self : (∃ q, a.div a = .ok q ∧ q.isOne = true) ↔ ¬ a.StoresLeast
  inverse : ∀ c, b.pow (-1) = .ok c → a.div b = a.mul c

/-- Products and quotients undo each other, up to the least exponent. -/
theorem undone_mul_div (a b : Dimension) : Undone a b where
  mul_div _ := mul_of_div
  div_mul _ := div_of_mul
  undivided := not_div_of_storesLeast
  refused least _ multiplied := div_of_mul_of_storesLeast multiplied least
  self := div_self_iff
  inverse _ := div_eq_mul_inverse

/-- A product in range that is not divided by its factor, although the quotient is in range. -/
example :
    (base mass).mul (ofEntries [(mass, Int32.minValue)]) =
        .ok (ofEntries [(mass, Int32.minValue + 1)]) ∧
      (ofEntries [(mass, Int32.minValue + 1)]).div (ofEntries [(mass, Int32.minValue)]) =
        .error (.exponentOverflow mass) :=
  ⟨rfl, rfl⟩

end Footprint.Dimension
