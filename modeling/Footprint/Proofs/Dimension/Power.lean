import Footprint.Proofs.Dimension.Product

/-!
Powers are repeated products.

A power takes each exponent times the number at once; a product of copies goes through all smaller
powers. With a natural number of copies the exponents only move away from zero, so the product
cannot leave the range on the way to a power that is in range. The two may be lost at different
bases: the power at the first one in order, the product at the one that leaves the range soonest.

* `sameOrLost_pow`: a power and the product of so many copies are the same, or both are lost.
* `mul_of_pow`, `pow_of_pow`: products and powers of powers that exist, errors included.
* `pow_iterates`: all of this for a dimension.
-/

namespace Footprint.Dimension

variable {d p q : Dimension} {m n : Int32}

/-! ### Powers of powers -/

/-- The product of two powers is the power with the sum, where both powers exist. -/
theorem mul_of_pow {sum : Int32} (value : sum.toInt = m.toInt + n.toInt)
    (first : d.pow m = .ok p) (second : d.pow n = .ok q) : p.mul q = d.pow sum := by
  refine (comesTo_mul p q).eq (comesTo_pow d sum) fun base => ?_
  rw [productExponent, (comesTo_pow d m).toInt_exponent first,
    (comesTo_pow d n).toInt_exponent second]
  simp only [powerExponent]
  rw [value, Int.add_mul]

/-- The power of a power is the power with the product, where the inner power exists. -/
theorem pow_of_pow {times : Int32} (value : times.toInt = m.toInt * n.toInt)
    (first : d.pow m = .ok p) : p.pow n = d.pow times := by
  refine (comesTo_pow p n).eq (comesTo_pow d times) fun base => ?_
  rw [powerExponent, (comesTo_pow d m).toInt_exponent first]
  simp only [powerExponent]
  rw [value, ← Int.mul_assoc, Int.mul_comm n.toInt m.toInt]

theorem pow_eq_one (value : n.toInt = 0) : d.pow n = .ok one := by
  refine (comesTo_pow d n).eq (comesTo_ok one) fun base => ?_
  rw [powerExponent, value]
  exact Int.zero_mul _

theorem pow_eq_self (value : n.toInt = 1) : d.pow n = .ok d := by
  refine (comesTo_pow d n).eq (comesTo_ok d) fun base => ?_
  rw [powerExponent, value, Int.one_mul]

/-! ### Repeated products -/

/-- Both come to the same, or both leave the range, perhaps at different bases. -/
inductive SameOrLost : Except Error Dimension → Except Error Dimension → Prop where
  | same (d : Dimension) : SameOrLost (.ok d) (.ok d)
  | lost (base other : String) :
      SameOrLost (.error (.exponentOverflow base)) (.error (.exponentOverflow other))

section SameOrLost

variable {f : String → Int} {r s : Except Error Dimension}

theorem ComesTo.sameOrLost_self (comes : ComesTo f r) : SameOrLost r r := by
  cases comes with
  | exact _ => exact .same _
  | overflow _ _ => exact .lost _ _

theorem SameOrLost.ok_iff (agree : SameOrLost r s) (d : Dimension) : r = .ok d ↔ s = .ok d := by
  cases agree with
  | same _ => exact Iff.rfl
  | lost _ _ => exact ⟨nofun, nofun⟩

theorem SameOrLost.overflow (agree : SameOrLost r s) (failed : ¬ ∃ d, r = .ok d) :
    (∃ base, r = .error (.exponentOverflow base)) ∧
      ∃ base, s = .error (.exponentOverflow base) := by
  cases agree with
  | same d => exact absurd ⟨d, rfl⟩ failed
  | lost base other => exact ⟨⟨base, rfl⟩, ⟨other, rfl⟩⟩

end SameOrLost

/-- A natural multiple is in range when a greater one is. -/
theorem exponentRange_mul_of_le {i j e : Int} (nonneg : 0 ≤ i) (le : i ≤ j)
    (inRange : ExponentRange (j * e)) : ExponentRange (i * e) := by
  rcases Int.le_total 0 e with up | down
  · exact exponentRange_zero.between inRange (Int.mul_nonneg nonneg up)
      (Int.mul_le_mul_of_nonneg_right le up)
  · exact inRange.between exponentRange_zero (Int.mul_le_mul_of_nonpos_right le down)
      (Int.mul_nonpos_of_nonneg_of_nonpos nonneg down)

theorem exists_pow_of_le (nonneg : 0 ≤ m.toInt) (le : m.toInt ≤ n.toInt)
    (powered : ∃ r, d.pow n = .ok r) : ∃ r, d.pow m = .ok r := by
  rw [(comesTo_pow d n).exists_ok_iff] at powered
  exact (comesTo_pow d m).exists_ok_iff.mpr fun base =>
    exponentRange_mul_of_le nonneg le (powered base)

/-- One more factor is multiplied to the product of the others. -/
theorem product_concat (dims : List Dimension) (d : Dimension) :
    product (dims ++ [d]) = product dims >>= fun p => p.mul d := by
  rw [product, List.map_append]
  exact (weightedSum?_concat _ _).trans (bind_congr fun p => (weightedSum?_pair p d 1).symm)

/-- The power with a natural number and the product of so many copies. -/
theorem sameOrLost_pow (d : Dimension) (copies : Nat) (n : Int32) (value : n.toInt = copies) :
    SameOrLost (d.pow n) (product (List.replicate copies d)) := by
  induction copies generalizing n with
  | zero =>
    rw [pow_eq_one value]
    exact .same one
  | succ copies ih =>
    have inRange : ExponentRange copies := by
      have atLast := exponentRange_toInt n
      rw [value] at atLast
      exact exponentRange_zero.between atLast (by omega) (by omega)
    obtain ⟨m, -, before⟩ := fitExponent?_of_range inRange
    have fewer := ih m before
    rw [List.replicate_succ', product_concat]
    generalize powered : d.pow m = power at fewer
    generalize product (List.replicate copies d) = others at fewer
    cases fewer with
    | same p =>
      have sum : n.toInt = m.toInt + (1 : Int32).toInt := by
        rw [value, before]
        rfl
      show SameOrLost (d.pow n) (p.mul d)
      rw [mul_of_pow sum powered (pow_eq_self rfl)]
      exact (comesTo_pow d n).sameOrLost_self
    | lost base other =>
      -- The product stays lost, and a greater power is lost with the smaller one.
      have failed : ¬ ∃ r, d.pow n = .ok r := by
        intro succeeds
        obtain ⟨r, found⟩ := exists_pow_of_le (m := m) (by omega) (by omega) succeeds
        cases powered.symm.trans found
      obtain ⟨first, lost⟩ := (comesTo_pow d n).eq_overflow failed
      rw [lost]
      exact .lost first other

/-! ### What powers are -/

/-- The powers of a dimension as repeated products. -/
structure Iterates (d : Dimension) : Prop where
  /-- A power with a natural number is the product of so many copies. -/
  product_iff : ∀ n : Int32, 0 ≤ n.toInt → ∀ r,
    d.pow n = .ok r ↔ product (List.replicate n.toInt.toNat d) = .ok r
  /-- Where there is none, both are out of range. -/
  lost : ∀ n : Int32, 0 ≤ n.toInt → (¬ ∃ r, d.pow n = .ok r) →
    (∃ base, d.pow n = .error (.exponentOverflow base)) ∧
      ∃ base, product (List.replicate n.toInt.toNat d) = .error (.exponentOverflow base)
  /-- Powers that exist are multiplied by adding their numbers. -/
  mul : ∀ (m n sum : Int32) p q, sum.toInt = m.toInt + n.toInt →
    d.pow m = .ok p → d.pow n = .ok q → p.mul q = d.pow sum
  /-- A power that exists is raised by multiplying the numbers. -/
  pow : ∀ (m n times : Int32) p, times.toInt = m.toInt * n.toInt →
    d.pow m = .ok p → p.pow n = d.pow times

/-- Powers are repeated products, for every dimension. -/
theorem pow_iterates (d : Dimension) : Iterates d := by
  have agree (n : Int32) (nonneg : 0 ≤ n.toInt) :
      SameOrLost (d.pow n) (product (List.replicate n.toInt.toNat d)) :=
    sameOrLost_pow d n.toInt.toNat n (Int.toNat_of_nonneg nonneg).symm
  refine ⟨?_, ?_, ?_, ?_⟩
  · intro n nonneg r
    exact (agree n nonneg).ok_iff r
  · intro n nonneg failed
    exact (agree n nonneg).overflow failed
  · intro m n sum p q value first second
    exact mul_of_pow value first second
  · intro m n times p value first
    exact pow_of_pow value first

/-- The second base leaves the range with two copies, the first one only with three. -/
example :
    (ofEntries [(mass, 1000000000), (time, 2000000000)]).pow 3 = .error (.exponentOverflow mass) ∧
      product (List.replicate 3 (ofEntries [(mass, 1000000000), (time, 2000000000)])) =
        .error (.exponentOverflow time) :=
  ⟨rfl, rfl⟩

end Footprint.Dimension
