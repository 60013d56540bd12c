import Footprint.Proofs.Dimension.Sum

/-!
Products, quotients and powers of dimensions, exactly.

Each of them adds one weighted dimension to another. Where no term leaves the range by itself, only
the exact exponents count: the operation has them, or fails at the first base at which they are out
of range (`ComesTo`).

* `ComesTo.eq`: operations with the same exact exponents agree, errors included.
* `comesTo_mul`, `comesTo_div`, `comesTo_pow`: the exact exponents of each operation.
* `mul_eq_iff`: this is all that a product can come to.
-/

namespace Footprint.Dimension

variable {a b d : Dimension} {result : Except Error Dimension}

/-! ### Exact exponents -/

/-- What an operation with these exact exponents comes to: the dimension that has them, or the first
base at which they are out of range. -/
inductive ComesTo (exponents : String → Int) : Except Error Dimension → Prop where
  | exact {d : Dimension} : (∀ base, (d.exponent base).toInt = exponents base) →
      ComesTo exponents (.ok d)
  | overflow {base : String} : ¬ ExponentRange (exponents base) →
      (∀ other, Text.BytesBefore other base → ExponentRange (exponents other)) →
      ComesTo exponents (.error (.exponentOverflow base))

section ComesTo

variable {f g : String → Int} {r s : Except Error Dimension}

/-- A dimension is what its own exponents come to. -/
theorem comesTo_ok (d : Dimension) : ComesTo (fun base => (d.exponent base).toInt) (.ok d) :=
  .exact fun _ => rfl

theorem ComesTo.toInt_exponent (comes : ComesTo f r) (found : r = .ok d) (base : String) :
    (d.exponent base).toInt = f base := by
  subst found
  cases comes with
  | exact value => exact value base

/-- It succeeds exactly when all exponents are in range. -/
theorem ComesTo.exists_ok_iff (comes : ComesTo f r) :
    (∃ d, r = .ok d) ↔ ∀ base, ExponentRange (f base) := by
  cases comes with
  | @exact d value =>
    refine ⟨fun _ base => ?_, fun _ => ⟨d, rfl⟩⟩
    rw [← value]
    exact exponentRange_toInt _
  | overflow leaves _ => exact ⟨nofun, fun inRange => absurd (inRange _) leaves⟩

theorem ComesTo.eq_overflow (comes : ComesTo f r) (failed : ¬ ∃ d, r = .ok d) :
    ∃ base, r = .error (.exponentOverflow base) := by
  cases comes with
  | @exact d _ => exact absurd ⟨d, rfl⟩ failed
  | @overflow base _ _ => exact ⟨base, rfl⟩

/-- Operations with the same exact exponents agree, errors included. -/
theorem ComesTo.eq (first : ComesTo f r) (second : ComesTo g s)
    (same : ∀ base, f base = g base) : r = s := by
  obtain rfl : f = g := funext same
  cases first with
  | exact value =>
    cases second with
    | exact value' =>
      refine congrArg Except.ok (ext_exponent fun base => Int32.toInt_inj.mp ?_)
      rw [value, value']
    | overflow leaves _ =>
      rw [← value] at leaves
      exact absurd (exponentRange_toInt _) leaves
  | overflow leaves before =>
    cases second with
    | exact value =>
      rw [← value] at leaves
      exact absurd (exponentRange_toInt _) leaves
    | overflow leaves' before' => rw [Text.eq_of_first leaves before leaves' before']

end ComesTo

/-! ### One addition -/

/-- The exact exponent of a base in the product of two dimensions. -/
def productExponent (a b : Dimension) (base : String) : Int :=
  (a.exponent base).toInt + (b.exponent base).toInt

/-- The exact exponent of a base in the quotient of two dimensions. -/
def quotientExponent (a b : Dimension) (base : String) : Int :=
  (a.exponent base).toInt - (b.exponent base).toInt

/-- The exact exponent of a base in a power of a dimension. -/
def powerExponent (d : Dimension) (power : Int32) (base : String) : Int :=
  power.toInt * (d.exponent base).toInt

theorem one_mul_toInt (e : Int32) : (1 : Int32).toInt * e.toInt = e.toInt := Int.one_mul _

theorem neg_one_mul_toInt (e : Int32) : (-1 : Int32).toInt * e.toInt = -e.toInt :=
  Int.neg_one_mul _

/-- The least exponent is the only one without an opposite. -/
theorem exponentRange_neg_iff {e : Int32} : ExponentRange (-e.toInt) ↔ e ≠ Int32.minValue := by
  have least : Int32.minValue.toInt = -2 ^ 31 := rfl
  obtain ⟨low, high⟩ := exponentRange_toInt e
  rw [ne_eq, ← Int32.toInt_inj, least, ExponentRange]
  omega

/-- An addition whose terms are in range where the sums are comes to the exact sums. -/
theorem comesTo_addScaled? {weight : Int32} (terms : ∀ base,
    ExponentRange ((a.exponent base).toInt + weight.toInt * (b.exponent base).toInt) →
      ExponentRange (weight.toInt * (b.exponent base).toInt)) :
    ComesTo (fun base => (a.exponent base).toInt + weight.toInt * (b.exponent base).toInt)
      (a.addScaled? b weight) := by
  have adds := addsTo_addScaled? a b weight
  generalize a.addScaled? b weight = result at adds
  cases adds with
  | exact _ value => exact .exact value
  | @overflow base lost before =>
    refine .overflow (fun inRange => lost ⟨terms base inRange, inRange⟩) fun other less => ?_
    exact (before other (Text.bytesBefore_iff.mp less)).2

theorem comesTo_addScaled?_one (a b : Dimension) :
    ComesTo (productExponent a b) (a.addScaled? b 1) := by
  have adds : ComesTo _ (a.addScaled? b 1) := comesTo_addScaled? fun base _ => by
    rw [one_mul_toInt]
    exact exponentRange_toInt _
  simp only [one_mul_toInt] at adds
  exact adds

theorem one_addScaled? (d : Dimension) : one.addScaled? d 1 = .ok d :=
  (comesTo_addScaled?_one one d).eq (comesTo_ok d) fun _ => Int.zero_add _

/-- The sum of a single term. -/
theorem weightedSum?_singleton (d : Dimension) (weight : Int32) :
    weightedSum? [(d, weight)] = one.addScaled? d weight := by
  simp only [weightedSum?, List.foldlM_cons, List.foldlM_nil, bind_pure]

/-- A second term is added to the first dimension. -/
theorem weightedSum?_pair (a b : Dimension) (weight : Int32) :
    weightedSum? [(a, 1), (b, weight)] = a.addScaled? b weight := by
  have sum := weightedSum?_concat [(a, 1)] (b, weight)
  rw [weightedSum?_singleton, one_addScaled?] at sum
  exact sum

/-! ### Products, quotients and powers -/

theorem comesTo_mul (a b : Dimension) : ComesTo (productExponent a b) (a.mul b) := by
  rw [mul, weightedSum?_pair]
  exact comesTo_addScaled?_one a b

/-- A quotient by a dimension without the least exponent. -/
theorem comesTo_div (opposite : ∀ base, b.exponent base ≠ Int32.minValue) :
    ComesTo (quotientExponent a b) (a.div b) := by
  have adds : ComesTo _ (a.addScaled? b (-1)) := comesTo_addScaled? fun base _ => by
    rw [neg_one_mul_toInt, exponentRange_neg_iff]
    exact opposite base
  simp only [neg_one_mul_toInt, ← Int.sub_eq_add_neg] at adds
  rw [div, weightedSum?_pair]
  exact adds

theorem comesTo_pow (d : Dimension) (power : Int32) :
    ComesTo (powerExponent d power) (d.pow power) := by
  have nothing (base : String) : (one.exponent base).toInt = 0 := rfl
  have adds : ComesTo _ (one.addScaled? d power) := comesTo_addScaled? fun base inRange => by
    rwa [nothing, Int.zero_add] at inRange
  simp only [nothing, Int.zero_add] at adds
  rw [pow, weightedSum?_singleton]
  exact adds

/-- What the product of two dimensions comes to. -/
inductive MulsTo (a b : Dimension) : Except Error Dimension → Prop where
  | exact {d : Dimension} : (∀ base, (d.exponent base).toInt = productExponent a b base) →
      MulsTo a b (.ok d)
  | overflow {base : String} : ¬ ExponentRange (productExponent a b base) →
      (∀ other, Text.BytesBefore other base → ExponentRange (productExponent a b other)) →
      MulsTo a b (.error (.exponentOverflow base))

theorem mulsTo_iff : MulsTo a b result ↔ ComesTo (productExponent a b) result := by
  constructor
  · intro muls
    cases muls with
    | exact value => exact .exact value
    | overflow leaves before => exact .overflow leaves before
  · intro comes
    cases comes with
    | exact value => exact .exact value
    | overflow leaves before => exact .overflow leaves before

/-- A product has the exact exponents, or fails at the first base at which they are out of
range. -/
theorem mul_eq_iff : a.mul b = result ↔ MulsTo a b result := by
  rw [mulsTo_iff]
  constructor
  · rintro rfl
    exact comesTo_mul a b
  · intro comes
    exact (comesTo_mul a b).eq comes fun _ => rfl

end Footprint.Dimension
