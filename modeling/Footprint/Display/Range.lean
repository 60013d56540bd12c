import Footprint.Display.Quantity

/-!
Ranges for display.

Two quantities of the same unit are shown as a range. Equal values can be shown once, and the unit
can be left out of the first quantity; never a currency, as `€1 - 2` would read as one euro to two
of something else.
-/

namespace Footprint

/-- How a range is shown. -/
structure RangeStyle where
  summarizeEqual : Bool := true
  summarizeUnit : Bool := true
  format : QuantityStyle := {}
deriving DecidableEq, Repr, Inhabited

namespace RangeStyle

/-- Read range options: the members of the format options stand beside the others. -/
def ofJson? (j : Json) : Option RangeStyle := do
  match ← j.openFields? ["summarizeEqual", "summarizeUnit"] with
  | ([equal, unit], rest) =>
    return ⟨← Json.defaulted true Json.bool? equal, ← Json.defaulted true Json.bool? unit,
      ← QuantityStyle.ofJson? (.object rest)⟩
  | _ => none

/-- Write range options. -/
def toJson (o : RangeStyle) : Json :=
  .object ([("summarizeEqual", .bool o.summarizeEqual), ("summarizeUnit", .bool o.summarizeUnit)] ++
    o.format.members)

end RangeStyle

namespace Display

/-- The symbol of a quantity's unit in an error about it. -/
def unitLabel (q : Quantity) : String :=
  match q.unit with
  | some u => u.symbol
  | none => "(none)"

/-- A range between two quantities of the same unit, for display. -/
def range (first last : Quantity) (o : RangeStyle) : Except Error String :=
  if first.unit ≠ last.unit then .error (.incompatibleUnits (unitLabel first) (unitLabel last))
  else if first.value.SameValue last.value ∧ o.summarizeEqual then
    .ok (quantityWith true first o.format)
  else
    let leaveOut := o.summarizeUnit && !first.isCurrency
    .ok (quantityWith (!leaveOut) first o.format ++ " - " ++ quantityWith true last o.format)

end Display

end Footprint
