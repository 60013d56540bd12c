import Footprint.Display.Range
import Footprint.Proofs.Display.Number

/-!
The unit of a shown range.

Whether the first quantity goes without its unit is decided by the options, and whether a zero is
shown by the quantity alone. So the unit is lost where it is left out of the first quantity and the
last one, which should write it, is a zero that is not shown (`Display.LosesUnit`).

* `Display.range_writesUnit_iff`: of two quantities of one unit at least one of which is shown as a
  number, a number is followed by the unit in all other cases and only in those.
-/

namespace Footprint.Display

/-! ### One quantity -/

/-- The quantity is shown as a number, not as a dash. -/
def ShowsNumber (q : Quantity) (o : QuantityStyle) : Prop := q.isZero = false ∨ o.showZero = true

section Quantity

variable {q : Quantity} {o : QuantityStyle} {u : MeasureUnit} {showUnit : Bool}

theorem quantityWith_of_shows (unit : q.unit = some u) (notMoney : u.isCurrency = false)
    (shows : ShowsNumber q o) : quantityWith showUnit q o =
      if showUnit then plain q o ++ " " ++ u.symbol else plain q o := by
  have shown : ¬ (q.isZero ∧ ¬ o.showZero) := by
    rintro ⟨zero, hidden⟩
    rcases shows with notZero | shown
    · rw [notZero] at zero
      cases zero
    · exact hidden shown
  rw [quantityWith, if_neg shown]
  simp [money?, unit, notMoney]

theorem quantityWith_of_not_shows (hidden : ¬ ShowsNumber q o) :
    quantityWith showUnit q o = placeholder := by
  have zero : q.isZero ∧ ¬ o.showZero := by
    constructor
    · exact Bool.of_not_eq_false fun notZero => hidden (.inl notZero)
    · exact fun shown => hidden (.inr shown)
  rw [quantityWith, if_pos zero]

/-- A shown number has no space in it. -/
theorem space_not_mem_plain (q : Quantity) (o : QuantityStyle) : ' ' ∉ (plain q o).toList := by
  intro mem
  rw [plain, toList_number] at mem
  rcases Parts.mem_chars _ (isDigit_of_mem_partsOf _ _) mem with
    ⟨same, -⟩ | digit | ⟨same, -⟩ | ⟨same, -⟩
  · cases same
  · cases digit
  · generalize localeOrFallback o.locale = locale at same
    cases locale <;> cases same
  · generalize localeOrFallback o.locale = locale at same
    cases locale <;> cases same

end Quantity

/-! ### Ranges -/

/-- The number of one end of a range is followed by a space and the symbol. -/
inductive WritesUnit (first last : Quantity) (o : QuantityStyle) (symbol text : String) : Prop where
  | first (rest : String) : text = plain first o ++ " " ++ symbol ++ rest →
      WritesUnit first last o symbol text
  | last (before : String) : text = before ++ " - " ++ (plain last o ++ " " ++ symbol) →
      WritesUnit first last o symbol text

/-- The first quantity is shown without the unit, and the last one is a zero that is not shown. -/
structure LosesUnit (first last : Quantity) (o : RangeStyle) : Prop where
  leftOut : o.summarizeUnit = true
  shown : first.isZero = false
  zero : last.isZero = true
  hidden : o.format.showZero = false

section Range

variable {first last : Quantity} {u : MeasureUnit} {o : RangeStyle}

/-- Equal quantities are shown once if that is wanted. -/
theorem range_of_once (sameUnit : first.unit = last.unit)
    (once : first.value.SameValue last.value ∧ o.summarizeEqual = true) :
    range first last o = .ok (quantityWith true first o.format) := by
  rw [range, if_neg (not_not.mpr sameUnit), if_pos once]

/-- Otherwise both are shown, the first one perhaps without its unit. -/
theorem range_of_not_once (sameUnit : first.unit = last.unit)
    (notOnce : ¬ (first.value.SameValue last.value ∧ o.summarizeEqual = true)) :
    range first last o =
      .ok (quantityWith (!(o.summarizeUnit && !first.isCurrency)) first o.format ++ " - " ++
        quantityWith true last o.format) := by
  rw [range, if_neg (not_not.mpr sameUnit), if_neg notOnce]

section Text

variable (firstUnit : first.unit = some u) (lastUnit : last.unit = some u)
  (notMoney : u.isCurrency = false)
include firstUnit lastUnit notMoney

theorem range_of_both (both : ¬ (first.value.SameValue last.value ∧ o.summarizeEqual = true)) :
    range first last o = .ok (quantityWith (!o.summarizeUnit) first o.format ++ " - " ++
      quantityWith true last o.format) := by
  have notCurrency : first.isCurrency = false := by
    rw [Quantity.isCurrency, firstUnit, Option.any_some, notMoney]
  rw [range_of_not_once (firstUnit.trans lastUnit.symm) both, notCurrency, Bool.not_false,
    Bool.and_true]

theorem range_of_losesUnit (loses : LosesUnit first last o) :
    range first last o = .ok (plain first o.format ++ " - " ++ placeholder) := by
  have both : ¬ (first.value.SameValue last.value ∧ o.summarizeEqual = true) := by
    rintro ⟨same, -⟩
    have zero : first.isZero = last.isZero := same.isZero_eq
    rw [loses.shown, loses.zero] at zero
    cases zero
  have hidden : ¬ ShowsNumber last o.format := by
    simp [ShowsNumber, loses.zero, loses.hidden]
  rw [range_of_both firstUnit lastUnit notMoney both,
    quantityWith_of_shows firstUnit notMoney (.inl loses.shown), quantityWith_of_not_shows hidden,
    loses.leftOut]
  rfl

/-- Unless the unit is lost, it stands behind the last number, or behind the first one where the
last quantity is not shown as a number. -/
theorem exists_writesUnit (shows : ShowsNumber first o.format ∨ ShowsNumber last o.format)
    (kept : ¬ LosesUnit first last o) :
    ∃ text, range first last o = .ok text ∧ WritesUnit first last o.format u.symbol text := by
  by_cases once : first.value.SameValue last.value ∧ o.summarizeEqual = true
  · have zero : first.isZero = last.isZero := once.1.isZero_eq
    have firstShows : ShowsNumber first o.format := by
      rcases shows with shows | shows
      · exact shows
      · rwa [ShowsNumber, zero]
    refine ⟨_, range_of_once (firstUnit.trans lastUnit.symm) once, .first "" ?_⟩
    rw [quantityWith_of_shows firstUnit notMoney firstShows, if_pos rfl, String.append_empty]
  · refine ⟨_, range_of_both firstUnit lastUnit notMoney once, ?_⟩
    by_cases lastShows : ShowsNumber last o.format
    · rw [quantityWith_of_shows lastUnit notMoney lastShows, if_pos rfl]
      exact .last _ rfl
    · have firstShows := shows.resolve_right lastShows
      obtain ⟨zero, hidden⟩ : last.isZero = true ∧ o.format.showZero = false := by
        simpa [ShowsNumber] using lastShows
      have shown : first.isZero = false := by simpa [ShowsNumber, hidden] using firstShows
      have written : o.summarizeUnit = false :=
        Bool.of_not_eq_true fun leftOut => kept ⟨leftOut, shown, zero, hidden⟩
      rw [quantityWith_of_shows firstUnit notMoney firstShows, written]
      exact .first (" - " ++ quantityWith true last o.format) (String.append_assoc ..)

end Text

/-- Behind a lone number stand two dashes, so nothing else is a unit there. -/
theorem writesUnit_dashes_iff {o : QuantityStyle} {symbol : String} :
    WritesUnit first last o symbol (plain first o ++ " - " ++ placeholder) ↔
      symbol.toList <+: ['-', ' ', '-'] := by
  have spaces : ∀ q, (plain q o).toList.count ' ' = 0 :=
    fun q => List.count_eq_zero.mpr (space_not_mem_plain q o)
  constructor
  · rintro (⟨rest, text⟩ | ⟨before, text⟩)
    · have chars := congrArg String.toList text
      simp only [String.toList_append, List.append_assoc, List.append_cancel_left_eq] at chars
      exact ⟨rest.toList, (List.cons.inj chars).2.symm⟩
    · -- The text has two spaces, one in front of each dash.
      have counted := congrArg (fun text => text.toList.count ' ') text
      simp only [String.toList_append, List.count_append, spaces] at counted
      have dash : " - ".toList.count ' ' = 2 := rfl
      have last : placeholder.toList.count ' ' = 0 := rfl
      have space : " ".toList.count ' ' = 1 := rfl
      omega
  · rintro ⟨rest, dashes⟩
    refine .first (String.ofList rest) ?_
    apply String.toList_inj.mp
    simp only [String.toList_append, String.toList_ofList, List.append_assoc, dashes]
    rfl

/-- A number of a shown range is followed by the unit of both quantities, unless the unit is lost;
then only a symbol that the dashes begin with seems to stand there. -/
theorem range_writesUnit_iff (firstUnit : first.unit = some u) (lastUnit : last.unit = some u)
    (notMoney : u.isCurrency = false)
    (shows : ShowsNumber first o.format ∨ ShowsNumber last o.format) :
    ∃ text, range first last o = .ok text ∧
      (WritesUnit first last o.format u.symbol text ↔
        ¬ LosesUnit first last o ∨ u.symbol.toList <+: ['-', ' ', '-']) := by
  by_cases loses : LosesUnit first last o
  · refine ⟨_, range_of_losesUnit firstUnit lastUnit notMoney loses, ?_⟩
    rw [writesUnit_dashes_iff, or_iff_right (not_not.mpr loses)]
  · obtain ⟨text, shown, writes⟩ := exists_writesUnit firstUnit lastUnit notMoney shows loses
    exact ⟨text, shown, fun _ => .inl loses, fun _ => writes⟩

/-- The unit of mass in the examples. -/
def kilogram : MeasureUnit := ⟨"kg", "kilogram", .base Dimension.mass⟩

/-- Five kilograms. -/
def fiveKilograms : Quantity := ⟨.ofParts false 5 0 (by decide), some kilogram⟩

/-- No kilograms. -/
def noKilograms : Quantity := ⟨.zero, some kilogram⟩

/-- From nothing to five kilograms the unit is written, behind the last number. -/
theorem noneToFive_writesUnit : kilogram.isCurrency = false ∧ ShowsNumber fiveKilograms {} ∧
    ∃ text, range noKilograms fiveKilograms {} = .ok text ∧
      (WritesUnit noKilograms fiveKilograms {} "kg" text ↔
        ¬ LosesUnit noKilograms fiveKilograms {} ∨ "kg".toList <+: ['-', ' ', '-']) := by
  have notMoney : kilogram.isCurrency = false := by decide
  have shows : ShowsNumber fiveKilograms {} := .inl rfl
  exact ⟨notMoney, shows, range_writesUnit_iff rfl rfl notMoney (.inr shows)⟩

/-- From five kilograms to nothing the unit is lost: the range reads `5 - -`. -/
theorem fiveToNone_not_writesUnit : kilogram.isCurrency = false ∧ ShowsNumber fiveKilograms {} ∧
    range fiveKilograms noKilograms {} = .ok "5 - -" ∧
      ¬ WritesUnit fiveKilograms noKilograms {} "kg" "5 - -" := by
  refine ⟨by decide, .inl rfl, rfl, fun writes => ?_⟩
  have dashes := writesUnit_dashes_iff.mp writes
  exact absurd dashes (by decide)

end Range

end Footprint.Display
