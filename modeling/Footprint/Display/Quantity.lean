import Footprint.Display.Number
import Footprint.Unit.Basic

/-!
Quantities for display.

A quantity is a number followed by the symbol of its unit, or an amount of money where the unit is
a known currency. A missing quantity shows as a dash, and so does a zero unless zeros are wanted.
-/

namespace Footprint

/-- How a quantity is shown. -/
structure QuantityStyle where
  showZero : Bool := false
  numberFormat : Option NumberStyle := none
  locale : Option String := none
deriving DecidableEq, Repr, Inhabited

namespace QuantityStyle

/-- Read format options. -/
def ofJson? (j : Json) : Option QuantityStyle := do
  match ← j.fields? ["showZero", "numberFormat", "locale"] with
  | [showZero, numberFormat, locale] =>
    return ⟨← Json.defaulted false Json.bool? showZero,
      ← Json.optional NumberStyle.ofJson? numberFormat, ← Json.optional Json.string? locale⟩
  | _ => none

/-- The members that format options are written as. -/
def members (o : QuantityStyle) : List (String × Json) :=
  [("showZero", .bool o.showZero),
    ("numberFormat", Json.ofOption NumberStyle.toJson o.numberFormat),
    ("locale", Json.ofOption .string o.locale)]

/-- Write format options. -/
def toJson (o : QuantityStyle) : Json := .object o.members

end QuantityStyle

namespace Display

/-- What stands for a missing value and for a zero that is not shown. -/
def placeholder : String := "-"

/-- The locale that is asked for, or the fallback where it is not supported. -/
def localeOrFallback (tag : Option String) : Locale :=
  (Locale.ofOptionalTag? tag).toOption.getD .fallback

/-- The value of a quantity as a plain number. -/
def plain (q : Quantity) (o : QuantityStyle) : String :=
  number q.value (o.numberFormat.getD {}) (localeOrFallback o.locale)

/-- The quantity as an amount of money, if its unit is a supported currency in a supported locale.
-/
def money? (q : Quantity) (o : QuantityStyle) : Option String :=
  match q.unit with
  | some u =>
    if u.isCurrency then (money q.value u.symbol o.numberFormat o.locale).toOption else none
  | none => none

/-- A quantity for display. Without `showUnit` the symbol of the unit is left out, except of a
currency's amount. -/
def quantityWith (showUnit : Bool) (q : Quantity) (o : QuantityStyle) : String :=
  if q.isZero ∧ ¬ o.showZero then placeholder
  else
    match money? q o with
    | some amount => amount
    | none =>
      match q.unit with
      | some u => if showUnit then plain q o ++ " " ++ u.symbol else plain q o
      | none => plain q o

/-- A quantity for display, if there is one. -/
def quantity (q : Option Quantity) (o : QuantityStyle) : String :=
  match q with
  | some q => quantityWith true q o
  | none => placeholder

end Display

end Footprint
