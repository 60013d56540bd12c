import Footprint.Session
import Mathlib.Algebra.Group.Int.Defs
import Mathlib.Data.List.Forall2

/-!
Sessions that say the same.

Two sessions are the same when they differ at most in the scale of their decimals (`Session.Same`).
Decimals of one value that are whole numbers of 64 bits are written alike, so the same sessions
have the same texts as long as all their constants are such numbers:

* `Session.Same.toJson_eq`.
-/

namespace Footprint

/-! ### Decimals -/

namespace Decimal

/-- The value is a whole number that 64 bits with sign hold. -/
def IsInt64 (d : Decimal) : Prop :=
  ∃ i : Int, d.signed = i * 10 ^ d.scale ∧ -2 ^ 63 ≤ i ∧ i < 2 ^ 63

/-- An exact quotient of natural numbers, by multiplication. -/
theorem exact_div_iff {m p : Nat} (positive : 0 < p) {i : Int} :
    m % p = 0 ∧ ((m / p : Nat) : Int) = i ↔ (m : Int) = i * p := by
  constructor
  · rintro ⟨divides, rfl⟩
    have whole := Nat.div_mul_cancel (Nat.dvd_of_mod_eq_zero divides)
    exact_mod_cast whole.symm
  · intro product
    have notZero : (p : Int) ≠ 0 := by omega
    have rest : (m : Int) % p = 0 := by rw [product, Int.mul_emod_left]
    have quotient : (m : Int) / p = i := by rw [product, Int.mul_ediv_cancel _ notZero]
    exact ⟨by exact_mod_cast rest, by exact_mod_cast quotient⟩

/-- The whole number that equals a decimal, seen through its value. -/
theorem toInt64?_eq_some_iff {d : Decimal} {i : Int} :
    d.toInt64? = some i ↔ d.signed = i * 10 ^ d.scale ∧ -2 ^ 63 ≤ i ∧ i < 2 ^ 63 := by
  have positive : 0 < 10 ^ d.scale := Nat.pow_pos (by decide)
  have whole : ∀ n : Int, d.mantissa % 10 ^ d.scale = 0 ∧
      ((d.mantissa / 10 ^ d.scale : Nat) : Int) = n ↔ (d.mantissa : Int) = n * 10 ^ d.scale := by
    intro n
    rw [exact_div_iff positive]
    push_cast
    rfl
  unfold toInt64? signed
  cases d.negative with
  | false =>
    simp only [Bool.false_eq_true, if_false, ← whole i, Option.ite_none_right_eq_some,
      Option.some.injEq]
    constructor
    · rintro ⟨⟨rest, range⟩, rfl⟩
      exact ⟨⟨rest, rfl⟩, range⟩
    · rintro ⟨⟨rest, rfl⟩, range⟩
      exact ⟨⟨rest, range⟩, rfl⟩
  | true =>
    have turned : -(d.mantissa : Int) = i * 10 ^ d.scale ↔
        (d.mantissa : Int) = -i * 10 ^ d.scale := by
      rw [Int.neg_mul]
      omega
    simp only [if_true, turned, ← whole (-i), Option.ite_none_right_eq_some, Option.some.injEq]
    constructor
    · rintro ⟨⟨rest, range⟩, rfl⟩
      exact ⟨⟨rest, (Int.neg_neg _).symm⟩, range⟩
    · rintro ⟨⟨rest, same⟩, range⟩
      have same : i = -((d.mantissa / 10 ^ d.scale : Nat) : Int) := by omega
      exact ⟨⟨rest, same ▸ range⟩, same.symm⟩

theorem isInt64_iff {d : Decimal} : d.IsInt64 ↔ ∃ i, d.toInt64? = some i := by
  simp only [IsInt64, toInt64?_eq_some_iff]

/-- Whether a decimal is a whole number depends on its value only. -/
theorem SameValue.toInt64?_eq {a b : Decimal} (same : a.SameValue b) {i : Int}
    (whole : a.toInt64? = some i) : b.toInt64? = some i := by
  obtain ⟨value, range⟩ := toInt64?_eq_some_iff.mp whole
  refine toInt64?_eq_some_iff.mpr ⟨?_, range⟩
  have positive : (10 : Int) ^ a.scale ≠ 0 := Int.pow_ne_zero (by decide)
  refine Int.eq_of_mul_eq_mul_right positive ?_
  calc b.signed * 10 ^ a.scale = a.signed * 10 ^ b.scale := same.symm
    _ = i * 10 ^ a.scale * 10 ^ b.scale := by rw [value]
    _ = i * 10 ^ b.scale * 10 ^ a.scale := by rw [Int.mul_right_comm]

theorem SameValue.toJson_eq {a b : Decimal} (same : a.SameValue b) (whole : a.IsInt64) :
    a.toJson = b.toJson := by
  obtain ⟨i, found⟩ := isInt64_iff.mp whole
  simp only [toJson, found, same.toInt64?_eq found]

end Decimal

/-! ### Quantities, factors, rules and sessions -/

/-- The same value of the same unit. -/
structure Quantity.Same (a b : Quantity) : Prop where
  value : a.value.SameValue b.value
  unit : a.unit = b.unit

/-- The same factor, constants being compared by value. -/
inductive EmissionFactor.Same : EmissionFactor → EmissionFactor → Prop where
  | constant {a b : Option Quantity} : Option.Rel Quantity.Same a b →
      Same (.constant a) (.constant b)
  | external {catalogId : Option String} {dim : Option Dimension} :
      Same (.external catalogId dim) (.external catalogId dim)

/-- The same choices of an event rule. -/
structure EventRule.Same (a b : EventRule) : Prop where
  activity : a.activity = b.activity
  factor : Option.Rel EmissionFactor.Same a.factor b.factor
  multipliers : a.multipliers = b.multipliers

/-- The same choices of a relation rule. -/
structure RelationRule.Same (a b : RelationRule) : Prop where
  activity : a.activity = b.activity
  objectType : a.objectType = b.objectType
  qualifier : a.qualifier = b.qualifier
  factor : Option.Rel EmissionFactor.Same a.factor b.factor
  multipliers : a.multipliers = b.multipliers

/-- Rules of one kind with the same choices. -/
inductive Rule.Same : Rule → Rule → Prop where
  | event {a b : EventRule} : a.Same b → Same (.event a) (.event b)
  | relation {a b : RelationRule} : a.Same b → Same (.relation a) (.relation b)

/-- Sessions that differ at most in the scale of their decimals. -/
structure Session.Same (a b : Session) : Prop where
  bindings : a.bindings = b.bindings
  rules : List.Forall₂ Rule.Same a.rules b.rules
  allocation : a.allocation = b.allocation

/-- Whether a factor that is a constant has a whole number of 64 bits for its value. -/
def EmissionFactor.IsWhole (f : EmissionFactor) : Prop :=
  ∀ q, f = .constant (some q) → q.value.IsInt64

/-- Whether a rule with a constant factor has a whole number of 64 bits for its value. -/
def Rule.IsWhole (r : Rule) : Prop := ∀ f, r.factor = some f → f.IsWhole

theorem Quantity.Same.toJson_eq {a b : Quantity} (same : a.Same b) (whole : a.value.IsInt64) :
    a.toJson = b.toJson := by
  unfold Quantity.toJson
  rw [same.value.toJson_eq whole, same.unit]

theorem EmissionFactor.Same.toJson_eq {a b : EmissionFactor} (same : a.Same b)
    (whole : a.IsWhole) : a.toJson = b.toJson := by
  cases same with
  | constant values =>
    cases values with
    | none => rfl
    | @some q p related =>
      simp only [EmissionFactor.toJson, Json.optionalMember, Option.map_some,
        related.toJson_eq (whole q rfl)]
  | external => rfl

theorem EmissionFactor.optionalMember_eq {a b : Option EmissionFactor}
    (same : Option.Rel EmissionFactor.Same a b) (whole : ∀ f, a = some f → f.IsWhole) :
    Json.optionalMember "factor" EmissionFactor.toJson a =
      Json.optionalMember "factor" EmissionFactor.toJson b := by
  cases same with
  | none => rfl
  | @some f g related =>
    simp only [Json.optionalMember, Option.map_some, related.toJson_eq (whole f rfl)]

theorem Rule.Same.toJson_eq {a b : Rule} (same : a.Same b) (whole : a.IsWhole) :
    a.toJson = b.toJson := by
  cases same with
  | event same =>
    have factor := EmissionFactor.optionalMember_eq same.factor whole
    simp only [Rule.toJson, kindName, activity, Rule.factor, multipliers, same.activity, factor,
      same.multipliers]
  | relation same =>
    have factor := EmissionFactor.optionalMember_eq same.factor whole
    simp only [Rule.toJson, kindName, activity, Rule.factor, multipliers, same.activity,
      same.objectType, same.qualifier, factor, same.multipliers]

theorem Rule.map_toJson_eq {a b : List Rule} (same : List.Forall₂ Rule.Same a b)
    (whole : ∀ r ∈ a, r.IsWhole) : a.map Rule.toJson = b.map Rule.toJson := by
  induction same with
  | nil => rfl
  | cons first _ ih =>
    rw [List.map_cons, List.map_cons, first.toJson_eq (whole _ List.mem_cons_self),
      ih fun r mem => whole r (List.mem_cons_of_mem _ mem)]

/-- The same sessions are written alike when their constants are whole numbers. -/
theorem Session.Same.toJson_eq {a b : Session} (same : a.Same b)
    (whole : ∀ r ∈ a.rules, r.IsWhole) : a.toJson = b.toJson := by
  unfold Session.toJson Json.ofList
  rw [same.bindings, Rule.map_toJson_eq same.rules whole, same.allocation]

end Footprint
