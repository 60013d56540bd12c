import Footprint.Proofs.Display.Range
import Footprint.Rule.Check
import Footprint.Rule.Edit

/-!
Decimals of one value are shown and checked alike.

A shown number is built from the rounded and normalized value, which depends on the number only
(`Display.rounded_eq`). Apart from that a display asks whether a value is zero and whether two are
the same, and a check whether a constant is zero; the answers depend on the number as well.

* `Decimal.sameValue_iff_alike`: decimals denote the same number exactly when no number, amount of
  money, quantity or range and no check of a factor or rule tells them apart.
-/

namespace Footprint

namespace Display

/-! ### Numbers and quantities -/

section Alike

variable {v w : Decimal} (same : v.SameValue w)
include same

theorem rounded_eq (format : NumberStyle) : rounded v format = rounded w format := by
  have value : v.value = w.value := Decimal.sameValue_iff.mp same
  exact Decimal.normalize_eq_of_value_eq (Decimal.value_round_eq value format.places)

theorem sign_eq (format : NumberStyle) : sign v format = sign w format := by
  rw [sign, rounded_eq same, sign]

theorem size_eq (format : NumberStyle) (locale : Locale) :
    size v format locale = size w format locale := by
  simp only [size, fraction, whole, rounded_eq same]

theorem number_eq (format : NumberStyle) (locale : Locale) :
    number v format locale = number w format locale := by
  rw [number, sign_eq same, size_eq same, number]

theorem money_eq (code : String) (format : Option NumberStyle) (tag : Option String) :
    money v code format tag = money w code format tag := by
  simp only [money, sign_eq same, size_eq same]

theorem quantityWith_eq (showUnit : Bool) (unit : Option MeasureUnit) (o : QuantityStyle) :
    quantityWith showUnit ⟨v, unit⟩ o = quantityWith showUnit ⟨w, unit⟩ o := by
  simp only [quantityWith, money?, plain, Quantity.isZero, same.isZero_eq, number_eq same,
    money_eq same]

end Alike

/-! ### Ranges -/

/-- Comparing with a third decimal does not tell decimals of one value apart. -/
theorem sameValue_congr {v w x y : Decimal} (first : v.SameValue w) (last : x.SameValue y) :
    v.SameValue x ↔ w.SameValue y := by
  rw [Decimal.sameValue_iff] at first last ⊢
  rw [Decimal.sameValue_iff, first, last]

/-- Either end of a range may be another decimal of its value. -/
theorem range_eq {v w x y : Decimal} (first : v.SameValue w) (last : x.SameValue y)
    (unit lastUnit : Option MeasureUnit) (o : RangeStyle) :
    range ⟨v, unit⟩ ⟨x, lastUnit⟩ o = range ⟨w, unit⟩ ⟨y, lastUnit⟩ o := by
  simp only [range, sameValue_congr first last, quantityWith_eq first, quantityWith_eq last,
    unitLabel, Quantity.isCurrency]

/-- Quantities of one value and unit are shown once, if that is wanted. -/
theorem range_eq_quantity {v w : Decimal} (same : v.SameValue w) (unit : Option MeasureUnit)
    {o : RangeStyle} (wanted : o.summarizeEqual = true) :
    range ⟨v, unit⟩ ⟨w, unit⟩ o = .ok (quantity (some ⟨v, unit⟩) o.format) :=
  range_of_once rfl ⟨same, wanted⟩

/-- Quantities of different values are not shown once. -/
theorem range_ne_quantity {v w : Decimal} (different : ¬ v.SameValue w) (o : RangeStyle) :
    range ⟨v, none⟩ ⟨w, none⟩ o ≠ .ok (quantity (some ⟨v, none⟩) o.format) := by
  have both : range ⟨v, none⟩ ⟨w, none⟩ o = .ok (quantity (some ⟨v, none⟩) o.format ++ " - " ++
      quantity (some ⟨w, none⟩) o.format) :=
    range_of_not_once rfl fun once => different once.1
  rw [both]
  intro equal
  have length := congrArg String.length (Except.ok.inj equal)
  have dash : " - ".length = 3 := rfl
  rw [String.length_append, String.length_append, dash] at length
  omega

end Display

/-! ### Checks -/

theorem EmissionFactor.isEmpty_constant_eq {v w : Decimal} (same : v.SameValue w)
    (unit : Option MeasureUnit) : isEmpty (.constant (some ⟨v, unit⟩)) =
      isEmpty (.constant (some ⟨w, unit⟩)) := by
  simp only [isEmpty, Option.all_some, Quantity.isZero, same.isZero_eq]

/-- Of the factor of a rule only its being empty counts for that of the rule. -/
theorem Rule.isEmpty_chooseFactor_eq {f g : EmissionFactor} (same : f.isEmpty = g.isEmpty)
    (r : Rule) : (r.chooseFactor (some f)).isEmpty = (r.chooseFactor (some g)).isEmpty := by
  cases r with
  | event r =>
    simp only [isEmpty, factor_chooseFactor, Option.all_some, same]
    rfl
  | relation r =>
    simp only [isEmpty, factor_chooseFactor, Option.all_some, same]
    rfl

namespace Decimal

/-! ### Decimals that are alike -/

/-- Nothing that is shown of two decimals or checked of them tells them apart. -/
structure Alike (v w : Decimal) : Prop where
  number : ∀ format locale, Display.number v format locale = Display.number w format locale
  money : ∀ code format tag, Display.money v code format tag = Display.money w code format tag
  quantity : ∀ unit o, Display.quantity (some ⟨v, unit⟩) o = Display.quantity (some ⟨w, unit⟩) o
  factor : ∀ unit, EmissionFactor.isEmpty (.constant (some ⟨v, unit⟩)) =
    EmissionFactor.isEmpty (.constant (some ⟨w, unit⟩))
  rule : ∀ (r : Rule) unit, (r.chooseFactor (some (.constant (some ⟨v, unit⟩)))).isEmpty =
    (r.chooseFactor (some (.constant (some ⟨w, unit⟩)))).isEmpty
  rangeFirst : ∀ unit last o, Display.range ⟨v, unit⟩ last o = Display.range ⟨w, unit⟩ last o
  rangeLast : ∀ first unit o, Display.range first ⟨v, unit⟩ o = Display.range first ⟨w, unit⟩ o
  rangeBoth : ∀ unit lastUnit o,
    Display.range ⟨v, unit⟩ ⟨v, lastUnit⟩ o = Display.range ⟨w, unit⟩ ⟨w, lastUnit⟩ o
  /-- A range between them is shown as one quantity, if that is wanted. -/
  summarized : ∀ unit (o : RangeStyle), o.summarizeEqual = true →
    Display.range ⟨v, unit⟩ ⟨w, unit⟩ o = .ok (Display.quantity (some ⟨v, unit⟩) o.format) ∧
      Display.range ⟨w, unit⟩ ⟨v, unit⟩ o = .ok (Display.quantity (some ⟨v, unit⟩) o.format)

theorem alike_of_sameValue {v w : Decimal} (same : v.SameValue w) : Alike v w where
  number := Display.number_eq same
  money := Display.money_eq same
  quantity unit o := Display.quantityWith_eq same true unit o
  factor := EmissionFactor.isEmpty_constant_eq same
  rule r unit := r.isEmpty_chooseFactor_eq (EmissionFactor.isEmpty_constant_eq same unit)
  rangeFirst unit last o := Display.range_eq same rfl unit last.unit o
  rangeLast first unit o := Display.range_eq rfl same first.unit unit o
  rangeBoth := Display.range_eq same same
  summarized unit o wanted := by
    have shown := Display.quantityWith_eq same true unit o.format
    refine ⟨Display.range_eq_quantity same unit wanted, ?_⟩
    rw [Display.range_eq_quantity same.symm unit wanted]
    exact congrArg Except.ok shown.symm

/-- Decimals denote the same number exactly when they are shown and checked alike. -/
theorem sameValue_iff_alike {v w : Decimal} : v.SameValue w ↔ Alike v w := by
  constructor
  · exact alike_of_sameValue
  · intro alike
    by_contra different
    exact Display.range_ne_quantity different {} (alike.summarized none {} rfl).1

end Decimal

end Footprint
