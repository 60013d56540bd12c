import Footprint.Proofs.Display.Alike

/-!
The ends of a shown range.

A range does not show its quantities one by one: both are written by the function behind
`Display.quantity`, and the first one perhaps without its unit. What is written is nevertheless made
of the two quantities as they are shown alone. The last one stands there as it is, and so does the
first one unless its unit was taken off (`Display.StandsAsShown`).

* `Display.range_madeOf`: what every range is made of, or why there is none.
-/

namespace Footprint.Display

/-! ### The first quantity -/

/-- The first quantity of a range is written as it is shown alone: it has no unit that could be
left out, or the unit has to stay. -/
inductive StandsAsShown (q : Quantity) (o : RangeStyle) : Prop where
  | noUnit : q.unit = none → StandsAsShown q o
  /-- An amount of money keeps its unit, whether or not the currency is a known one. -/
  | money (u : MeasureUnit) : q.unit = some u → u.isCurrency = true → StandsAsShown q o
  | unitWanted : o.summarizeUnit = false → StandsAsShown q o
  /-- A zero that is not shown is a dash, with a unit or without. -/
  | dash : ¬ ShowsNumber q o.format → StandsAsShown q o

/-- The text of the first quantity of a range. -/
def firstText (q : Quantity) (o : RangeStyle) : String :=
  quantityWith (!(o.summarizeUnit && !q.isCurrency)) q o.format

theorem quantity_some (q : Quantity) (o : QuantityStyle) :
    quantity (some q) o = quantityWith true q o := rfl

section First

variable {q : Quantity} {o : RangeStyle}

theorem isCurrency_of_unit {u : MeasureUnit} (unit : q.unit = some u) :
    q.isCurrency = u.isCurrency := by
  rw [Quantity.isCurrency, unit, Option.any_some]

theorem quantityWith_of_noUnit (noUnit : q.unit = none) (showUnit : Bool) (o : QuantityStyle) :
    quantityWith showUnit q o = quantity (some q) o := by
  simp only [quantity_some, quantityWith, noUnit]

theorem firstText_of_standsAsShown (stands : StandsAsShown q o) :
    firstText q o = quantity (some q) o.format := by
  unfold firstText
  cases stands with
  | noUnit noUnit => exact quantityWith_of_noUnit noUnit _ _
  | money u unit money =>
    rw [isCurrency_of_unit unit, money, Bool.not_true, Bool.and_false, Bool.not_false,
      quantity_some]
  | unitWanted wanted => rw [wanted, Bool.false_and, Bool.not_false, quantity_some]
  | dash hidden =>
    rw [quantity_some, quantityWith_of_not_shows hidden, quantityWith_of_not_shows hidden]

/-- Otherwise just the unit and the space in front of it are missing. -/
theorem firstText_of_not_standsAsShown (shorter : ¬ StandsAsShown q o) :
    ∃ u, q.unit = some u ∧ firstText q o ++ " " ++ u.symbol = quantity (some q) o.format := by
  obtain ⟨u, unit⟩ := Option.ne_none_iff_exists'.mp fun noUnit => shorter (.noUnit noUnit)
  have notMoney : u.isCurrency = false :=
    Bool.of_not_eq_true fun money => shorter (.money u unit money)
  have leftOut : o.summarizeUnit = true :=
    Bool.of_not_eq_false fun wanted => shorter (.unitWanted wanted)
  have shows : ShowsNumber q o.format := by
    by_contra hidden
    exact shorter (.dash hidden)
  refine ⟨u, unit, ?_⟩
  rw [firstText, leftOut, isCurrency_of_unit unit, notMoney, quantity_some,
    quantityWith_of_shows unit notMoney shows, quantityWith_of_shows unit notMoney shows]
  rfl

end First

/-! ### Ranges -/

/-- The symbol by which an error names the unit of a quantity. -/
def symbolOf (q : Quantity) : String := (q.unit.map (·.symbol)).getD "(none)"

/-- What a range is made of. -/
structure MadeOf (first last : Quantity) (o : RangeStyle) : Prop where
  /-- There is none exactly if the units are not the same. -/
  fails : (∃ e, range first last o = .error e) ↔ first.unit ≠ last.unit
  /-- The error names the units in their order. -/
  error : ∀ e, range first last o = .error e →
    e = .incompatibleUnits (symbolOf first) (symbolOf last)
  /-- Equal numbers are shown once if that is wanted; it does not matter which of them is. -/
  once : first.unit = last.unit → first.value.value = last.value.value →
    o.summarizeEqual = true →
      range first last o = .ok (quantity (some first) o.format) ∧
        quantity (some first) o.format = quantity (some last) o.format
  /-- Otherwise both are shown, the first one perhaps without its unit. -/
  both : first.unit = last.unit →
    ¬ (first.value.value = last.value.value ∧ o.summarizeEqual = true) →
      ∃ text, range first last o = .ok (text ++ " - " ++ quantity (some last) o.format) ∧
        (StandsAsShown first o → text = quantity (some first) o.format) ∧
        (¬ StandsAsShown first o → ∃ u, first.unit = some u ∧
          text ++ " " ++ u.symbol = quantity (some first) o.format)

section Range

variable {first last : Quantity} {o : RangeStyle}

theorem unitLabel_eq (q : Quantity) : unitLabel q = symbolOf q := by
  unfold unitLabel symbolOf
  cases q.unit with
  | none => rfl
  | some u => rfl

theorem range_of_ne (different : first.unit ≠ last.unit) :
    range first last o = .error (.incompatibleUnits (symbolOf first) (symbolOf last)) := by
  rw [range, if_pos different, unitLabel_eq, unitLabel_eq]

theorem exists_range (sameUnit : first.unit = last.unit) :
    ∃ text, range first last o = .ok text := by
  by_cases once : first.value.SameValue last.value ∧ o.summarizeEqual = true
  · exact ⟨_, range_of_once sameUnit once⟩
  · exact ⟨_, range_of_not_once sameUnit once⟩

theorem range_fails_iff : (∃ e, range first last o = .error e) ↔ first.unit ≠ last.unit := by
  constructor
  · rintro ⟨e, fails⟩ sameUnit
    obtain ⟨text, shown⟩ := exists_range (o := o) sameUnit
    rw [shown] at fails
    cases fails
  · intro different
    exact ⟨_, range_of_ne different⟩

end Range

/-- Every range is made of its quantities as they are shown alone. -/
theorem range_madeOf (first last : Quantity) (o : RangeStyle) : MadeOf first last o where
  fails := range_fails_iff
  error := by
    intro e fails
    rw [range_of_ne (range_fails_iff.mp ⟨e, fails⟩)] at fails
    exact (Except.error.inj fails).symm
  once := by
    intro sameUnit sameValue wanted
    have same : first.value.SameValue last.value := Decimal.sameValue_iff.mpr sameValue
    have last_eq : (⟨last.value, first.unit⟩ : Quantity) = last := by rw [sameUnit]
    have shown := quantityWith_eq same true first.unit o.format
    rw [last_eq] at shown
    exact ⟨range_of_once sameUnit ⟨same, wanted⟩, shown⟩
  both := by
    intro sameUnit notOnce
    rw [← Decimal.sameValue_iff] at notOnce
    exact ⟨firstText first o, range_of_not_once sameUnit notOnce, firstText_of_standsAsShown,
      firstText_of_not_standsAsShown⟩

end Footprint.Display
