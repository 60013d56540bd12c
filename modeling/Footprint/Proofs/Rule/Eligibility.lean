import Footprint.Proofs.Dimension.Sum
import Footprint.Rule.Check

/-!
The eligible unit types of a rule, exactly.

An attribute enters a product with the exponents of the unit in its first binding, or with none at
all (`Bindings.entering`). What is eligible follows from the sums of these whole numbers alone:

* as long as all running sums stay in range, the names of the unit types with the exponents of the
  whole sum, or that dimension if it is not one and no unit type has it;
* otherwise the failure at the first running sum that leaves the range (`Bindings.FirstOverflow`).

`Rule.eligibility_eq_iff` says that `Rule.eligibility` gives this and nothing else.
-/

namespace Footprint

namespace Bindings

/-! ### Products of attributes -/

/-- The exponent of `base` with which an attribute enters a product: that of the unit in its first
binding, and zero where there is no binding or the first one has no unit. -/
def entering (a : Attribute) (base : String) : Bindings → Int
  | [] => 0
  | b :: rest =>
    if b.subject = a then b.unit.elim 0 fun u => (u.dim.exponent base).toInt
    else entering a base rest

/-- The sum of the exponents with which some attributes enter. -/
def exponentSum (bs : Bindings) (attributes : List Attribute) (base : String) : Int :=
  (attributes.map fun a => entering a base bs).sum

/-- All running sums stay in the range of exponents. -/
def InRange (bs : Bindings) (attributes : List Attribute) : Prop :=
  ∀ count base, ExponentRange (exponentSum bs (attributes.take count) base)

/-- The attribute at `position` is the first with which a running sum leaves the range of
exponents, and `base` is the first, in the order of bytes, at which it does so there. -/
structure FirstOverflow (bs : Bindings) (attributes : List Attribute) (position : Nat)
    (base : String) : Prop where
  inside : position < attributes.length
  leaves : ¬ ExponentRange (exponentSum bs (attributes.take (position + 1)) base)
  earlier : ∀ i < position, ∀ other,
    ExponentRange (exponentSum bs (attributes.take (i + 1)) other)
  before : ∀ other, Text.BytesBefore other base →
    ExponentRange (exponentSum bs (attributes.take (position + 1)) other)

/-- The dimension with which an attribute enters. -/
def dimOf (bs : Bindings) (a : Attribute) : Dimension :=
  ((unitOf a bs).map (·.dim)).getD Dimension.one

theorem exponent_dimOf (bs : Bindings) (a : Attribute) (base : String) :
    ((bs.dimOf a).exponent base).toInt = entering a base bs := by
  induction bs with
  | nil => rfl
  | cons b rest ih =>
    by_cases bound : b.subject = a
    · rw [entering, if_pos bound]
      simp only [dimOf, unitOf, find?, List.find?_cons, bound, decide_true, Option.bind_some]
      cases b.unit with
      | none => rfl
      | some u => rfl
    · rw [entering, if_neg bound, ← ih]
      simp only [dimOf, unitOf, find?, List.find?_cons, bound, decide_false]

/-- The terms of the product of some attributes. -/
def factors (bs : Bindings) (attributes : List Attribute) : List (Dimension × Int32) :=
  attributes.map fun a => (bs.dimOf a, 1)

theorem requiredDimension_select (bs : Bindings) (attributes : List Attribute) :
    (bs.select attributes).requiredDimension = Dimension.weightedSum? (bs.factors attributes) := by
  simp only [requiredDimension, select, Dimension.product, factors, dimOf, List.map_map,
    Function.comp_def]

theorem exactSum_factors (bs : Bindings) (attributes : List Attribute) (base : String) :
    Dimension.exactSum (bs.factors attributes) base = exponentSum bs attributes base := by
  have one : (1 : Int32).toInt = 1 := rfl
  simp only [Dimension.exactSum, factors, exponentSum, List.map_map, Function.comp_def, one,
    Int.one_mul, exponent_dimOf]

/-- A factor has weight one, so it fits where the running sum does. -/
theorem fitsAt_factors {bs : Bindings} {attributes : List Attribute} {position : Nat}
    {base : String} (inside : position < attributes.length) :
    Dimension.FitsAt (bs.factors attributes) position base ↔
      ExponentRange (exponentSum bs (attributes.take (position + 1)) base) := by
  have sum : Dimension.exactSum ((bs.factors attributes).take (position + 1)) base =
      exponentSum bs (attributes.take (position + 1)) base := by
    rw [← exactSum_factors]
    simp only [factors, List.map_take]
  unfold Dimension.FitsAt
  rw [sum]
  constructor
  · intro fits
    exact (fits (bs.dimOf attributes[position], 1) (by simp [factors, inside])).2
  · intro inRange t found
    obtain ⟨a, -, rfl⟩ := Option.map_eq_some_iff.mp (List.getElem?_map.symm.trans found)
    refine ⟨?_, inRange⟩
    show ExponentRange ((1 : Int32).toInt * ((bs.dimOf a).exponent base).toInt)
    rw [show (1 : Int32).toInt = 1 from rfl, Int.one_mul]
    exact exponentRange_toInt _

theorem inRange_iff_fits {bs : Bindings} {attributes : List Attribute} :
    InRange bs attributes ↔
      ∀ position base, Dimension.FitsAt (bs.factors attributes) position base := by
  constructor
  · intro inRange position base
    by_cases inside : position < attributes.length
    · exact (fitsAt_factors inside).mpr (inRange (position + 1) base)
    · exact Dimension.fitsAt_of_length_le (by simpa [factors] using inside) base
  · intro fits count base
    induction count with
    | zero => exact (by decide : ExponentRange 0)
    | succ count ih =>
      by_cases inside : count < attributes.length
      · exact (fitsAt_factors inside).mp (fits count base)
      · have whole : attributes.length ≤ count := Nat.not_lt.mp inside
        rw [List.take_of_length_le whole] at ih
        rwa [List.take_of_length_le (Nat.le_succ_of_le whole)]

theorem firstOverflow_iff {bs : Bindings} {attributes : List Attribute} {position : Nat}
    {base : String} :
    FirstOverflow bs attributes position base ↔
      Dimension.FirstOverflow (bs.factors attributes) position base := by
  constructor
  · rintro ⟨inside, leaves, earlier, before⟩
    refine ⟨fun fits => leaves ((fitsAt_factors inside).mp fits), fun i less other => ?_,
      fun other less => (fitsAt_factors inside).mpr (before other less)⟩
    exact (fitsAt_factors (Nat.lt_trans less inside)).mpr (earlier i less other)
  · rintro ⟨leaves, earlier, before⟩
    have inside : position < attributes.length := by
      apply Nat.lt_of_not_le
      intro outside
      exact leaves (Dimension.fitsAt_of_length_le (by simpa [factors] using outside) base)
    refine ⟨inside, fun fits => leaves ((fitsAt_factors inside).mpr fits), fun i less other => ?_,
      fun other less => (fitsAt_factors inside).mp (before other less)⟩
    exact (fitsAt_factors (Nat.lt_trans less inside)).mp (earlier i less other)

end Bindings

/-! ### Unit types with given exponents -/

/-- `names` are the names of the unit types that have the given exponents at every base: one name
for each such type, in the order of the types. -/
inductive NamesWith (exponents : String → Int) : List UnitType → List String → Prop where
  | nil : NamesWith exponents [] []
  | listed {d : UnitType} {rest : List UnitType} {names : List String} :
      (∀ base, (d.dim.exponent base).toInt = exponents base) → NamesWith exponents rest names →
      NamesWith exponents (d :: rest) (d.name :: names)
  | skipped {d : UnitType} {rest : List UnitType} {names : List String} :
      (∃ base, (d.dim.exponent base).toInt ≠ exponents base) → NamesWith exponents rest names →
      NamesWith exponents (d :: rest) names

theorem NamesWith.unique {exponents : String → Int} {types : List UnitType} {a b : List String}
    (ha : NamesWith exponents types a) (hb : NamesWith exponents types b) : a = b := by
  induction ha generalizing b with
  | nil =>
    cases hb
    rfl
  | listed same _ ih =>
    cases hb with
    | listed _ rest => rw [ih rest]
    | skipped other _ =>
      obtain ⟨base, differs⟩ := other
      exact absurd (same base) differs
  | skipped other _ ih =>
    cases hb with
    | listed same _ =>
      obtain ⟨base, differs⟩ := other
      exact absurd (same base) differs
    | skipped _ rest => exact ih rest

theorem Registry.namesWith_matching {exponents : String → Int} {dim : Dimension}
    (value : ∀ base, (dim.exponent base).toInt = exponents base) (registry : Registry) :
    NamesWith exponents registry.definitions (registry.matching dim) := by
  unfold Registry.matching
  induction registry.definitions with
  | nil => exact .nil
  | cons d rest ih =>
    by_cases same : d.dim = dim
    · rw [List.filter_cons_of_pos (by simpa using same), List.map_cons]
      exact .listed (fun base => same ▸ value base) ih
    · rw [List.filter_cons_of_neg (by simpa using same)]
      refine .skipped ?_ ih
      apply Classical.byContradiction
      intro none
      refine same (Dimension.ext_exponent fun base => Int32.toInt_inj.mp ?_)
      rw [value base]
      exact Classical.byContradiction fun differs => none ⟨base, differs⟩

namespace Rule

/-! ### Eligible unit types -/

/-- What is eligible for the factor of a rule with the given attributes. -/
inductive Eligible (registry : Registry) (bs : Bindings) (attributes : List Attribute) :
    Except Error Eligibility → Prop where
  | types {names : List String} : bs.InRange attributes →
      NamesWith (bs.exponentSum attributes) registry.definitions names →
      (names ≠ [] ∨ ∀ base, bs.exponentSum attributes base = 0) →
      Eligible registry bs attributes (.ok (.types names))
  | unsupported {dim : Dimension} : bs.InRange attributes →
      (∀ base, (dim.exponent base).toInt = bs.exponentSum attributes base) →
      NamesWith (bs.exponentSum attributes) registry.definitions [] →
      (∃ base, bs.exponentSum attributes base ≠ 0) →
      Eligible registry bs attributes (.ok (.unsupported dim))
  | overflow {position : Nat} {base : String} : bs.FirstOverflow attributes position base →
      Eligible registry bs attributes (.error (.exponentOverflow base))

theorem Eligible.unique {registry : Registry} {bs : Bindings} {attributes : List Attribute}
    {a b : Except Error Eligibility} (ha : Eligible registry bs attributes a)
    (hb : Eligible registry bs attributes b) : a = b := by
  have conflict : bs.InRange attributes → ∀ position base,
      ¬ bs.FirstOverflow attributes position base := fun inRange position base first =>
    first.leaves (inRange (position + 1) base)
  cases ha with
  | types inRange named supported =>
    cases hb with
    | types _ named' _ => rw [named.unique named']
    | unsupported _ _ none nonzero =>
      rcases supported with some | zero
      · exact absurd (named.unique none) some
      · obtain ⟨base, h⟩ := nonzero
        exact absurd (zero base) h
    | overflow first => exact absurd first (conflict inRange _ _)
  | unsupported inRange value none nonzero =>
    cases hb with
    | types _ named supported =>
      rcases supported with some | zero
      · exact absurd (named.unique none) some
      · obtain ⟨base, h⟩ := nonzero
        exact absurd (zero base) h
    | unsupported _ value' _ _ =>
      rw [Dimension.ext_exponent fun base =>
        Int32.toInt_inj.mp ((value base).trans (value' base).symm)]
    | overflow first => exact absurd first (conflict inRange _ _)
  | overflow first =>
    cases hb with
    | types inRange _ _ => exact absurd first (conflict inRange _ _)
    | unsupported inRange _ _ _ => exact absurd first (conflict inRange _ _)
    | overflow first' =>
      have sum := Bindings.firstOverflow_iff.mp first
      have sum' := Bindings.firstOverflow_iff.mp first'
      rw [(sum.unique sum').2]

theorem eligible_eligibilityOf {registry : Registry} {bs : Bindings} {attributes : List Attribute}
    {dim : Dimension} (inRange : bs.InRange attributes)
    (value : ∀ base, (dim.exponent base).toInt = bs.exponentSum attributes base) :
    Eligible registry bs attributes (.ok (eligibilityOf registry dim)) := by
  have named := registry.namesWith_matching value
  have zeroIff : dim.isOne = true ↔ ∀ base, bs.exponentSum attributes base = 0 := by
    rw [Dimension.isOne_iff]
    apply forall_congr'
    intro base
    rw [← value base, ← Int32.toInt_inj, Int32.toInt_zero]
  unfold eligibilityOf
  by_cases missing : (registry.matching dim).isEmpty = true ∧ ¬ dim.isOne = true
  · rw [if_pos missing]
    have none := List.isEmpty_iff.mp missing.1
    refine .unsupported inRange value (none ▸ named) ?_
    apply Classical.byContradiction
    intro zero
    exact missing.2 (zeroIff.mpr fun base => Classical.byContradiction fun h => zero ⟨base, h⟩)
  · rw [if_neg missing]
    refine .types inRange named ?_
    by_cases none : registry.matching dim = []
    · refine .inr (zeroIff.mp (Classical.byContradiction fun notOne => missing ⟨?_, notOne⟩))
      rw [none]
      rfl
    · exact .inl none

theorem eligible_eligibility (r : Rule) (bs : Bindings) (registry : Registry) :
    Eligible registry bs r.multipliers (r.eligibility bs registry) := by
  unfold eligibility requiredDimension
  rw [Bindings.requiredDimension_select]
  have sums := Dimension.sumsTo_weightedSum? (bs.factors r.multipliers)
  generalize Dimension.weightedSum? (bs.factors r.multipliers) = sum at sums
  cases sums with
  | exact fits value =>
    refine eligible_eligibilityOf (Bindings.inRange_iff_fits.mpr fits) ?_
    intro base
    rw [value, Bindings.exactSum_factors]
  | overflow first => exact .overflow (Bindings.firstOverflow_iff.mpr first)

/-- The unit types from which the factor of a rule may come are exactly what `Eligible` says. -/
theorem eligibility_eq_iff (r : Rule) (bs : Bindings) (registry : Registry)
    (answer : Except Error Eligibility) :
    r.eligibility bs registry = answer ↔ Eligible registry bs r.multipliers answer := by
  constructor
  · rintro rfl
    exact eligible_eligibility r bs registry
  · intro eligible
    exact (eligible_eligibility r bs registry).unique eligible

end Rule

end Footprint
