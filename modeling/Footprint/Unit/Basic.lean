import Footprint.Decimal.Double
import Footprint.Dimension.Document

/-!
Units, and quantities with a unit.

Units are values: two units are the same when symbol, name and dimension are. A quantity without a
unit is a pure number, or its unit is not chosen yet.
-/

namespace Footprint

/-- A unit of a dimension. -/
structure MeasureUnit where
  symbol : String
  name : String
  dim : Dimension
deriving DecidableEq, Repr, Inhabited

/-- A known unit with the other names it goes by. -/
structure UnitEntry where
  symbol : String
  name : String
  aliases : List String
  dim : Dimension
deriving DecidableEq, Repr

/-- The unit of an entry. -/
def UnitEntry.unit (e : UnitEntry) : MeasureUnit := ⟨e.symbol, e.name, e.dim⟩

/-- A number with a unit, if it has one. -/
structure Quantity where
  value : Decimal
  unit : Option MeasureUnit
deriving DecidableEq, Repr, Inhabited

namespace MeasureUnit

/-- Whether the unit measures money. -/
def isCurrency (u : MeasureUnit) : Bool := u.dim.isCurrency

/-! ### Documents -/

/-- Read a unit. -/
def ofJson? (j : Json) : Option MeasureUnit := do
  match ← j.fields? ["symbol", "name", "dim"] with
  | [symbol, name, dim] =>
    return ⟨← Json.required Json.string? symbol, ← Json.required Json.string? name,
      ← Json.required Dimension.ofJson? dim⟩
  | _ => none

/-- Write a unit. -/
def toJson (u : MeasureUnit) : Json :=
  .object [("symbol", .string u.symbol), ("name", .string u.name), ("dim", u.dim.toJson)]

end MeasureUnit

/-- Read a decimal from a number or a text. -/
def Decimal.ofJson? : Json → Option Decimal
  | .int i => Decimal.ofInt? i
  | .float x => Decimal.ofDouble? x
  | .string s => Decimal.ofChars? s.toList
  | _ => none

/-- Write a decimal as a number: whole numbers stay whole while 64 bits hold them. -/
def Decimal.toJson (d : Decimal) : Json :=
  match d.toInt64? with
  | some i => .int i
  | none => .float d.toDouble

namespace Quantity

/-- The dimension of a quantity; without a unit it is a pure number. -/
def dim (q : Quantity) : Dimension := (q.unit.map (·.dim)).getD Dimension.one

/-- Whether the value is zero. -/
def isZero (q : Quantity) : Bool := q.value.isZero

/-- Whether the quantity is an amount of money. -/
def isCurrency (q : Quantity) : Bool := q.unit.any (·.isCurrency)

/-- The value with all its places, and the symbol of the unit. -/
def display (q : Quantity) : String :=
  match q.unit with
  | some u => q.value.text ++ " " ++ u.symbol
  | none => q.value.text

/-! ### Documents -/

/-- Read a quantity. -/
def ofJson? (j : Json) : Option Quantity := do
  match ← j.fields? ["value", "unit"] with
  | [value, unit] =>
    return ⟨← Json.required Decimal.ofJson? value, ← Json.optional MeasureUnit.ofJson? unit⟩
  | _ => none

/-- Write a quantity; a missing unit is written as `null`. -/
def toJson (q : Quantity) : Json :=
  .object [("value", q.value.toJson), ("unit", Json.ofOption MeasureUnit.toJson q.unit)]

end Quantity

end Footprint
