import Footprint.Decimal.Basic
import Footprint.Display.Locale
import Footprint.Json.Record

/-!
Numbers and amounts of money for display.

A number is rounded half away from zero, loses the zeros at the end of its fraction down to the
least number of places, and gets its separators. A value that rounds to zero has no sign. An
amount of money is such a number with the symbol of its currency; the sign goes where the locale
wants it.
-/

namespace Footprint

/-- How many places a number is shown with, and whether its digits are grouped. -/
structure NumberStyle where
  minimumFractionDigits : UInt32 := 0
  maximumFractionDigits : UInt32 := 2
  useGrouping : Bool := true
deriving DecidableEq, Repr, Inhabited

namespace NumberStyle

/-- A fixed number of places. -/
def fixed (digits : UInt32) : NumberStyle := ⟨digits, digits, true⟩

/-- The places to which a number is rounded: the larger of the two bounds. -/
def places (f : NumberStyle) : Nat :=
  max f.maximumFractionDigits.toNat f.minimumFractionDigits.toNat

/-- Read a number format. -/
def ofJson? (j : Json) : Option NumberStyle := do
  match ← j.fields? ["minimumFractionDigits", "maximumFractionDigits", "useGrouping"] with
  | [least, most, grouping] =>
    return ⟨← Json.defaulted 0 Json.uint32? least, ← Json.defaulted 2 Json.uint32? most,
      ← Json.defaulted true Json.bool? grouping⟩
  | _ => none

/-- Write a number format. -/
def toJson (f : NumberStyle) : Json :=
  .object [("minimumFractionDigits", .int f.minimumFractionDigits.toNat),
    ("maximumFractionDigits", .int f.maximumFractionDigits.toNat),
    ("useGrouping", .bool f.useGrouping)]

end NumberStyle

namespace Display

/-- Put a separator in front of every third digit, counted from the end. -/
def group (separator : Char) : List Char → List Char
  | [] => []
  | c :: rest =>
    if rest ≠ [] ∧ rest.length % 3 = 0 then c :: separator :: group separator rest
    else c :: group separator rest

/-- The value that is shown. -/
def rounded (value : Decimal) (format : NumberStyle) : Decimal :=
  (value.round format.places).normalize

/-- The digits after the point, filled up with zeros to the least number of places. -/
def fraction (value : Decimal) (format : NumberStyle) : List Char :=
  let digits := (rounded value format).fractionDigits
  digits ++ List.replicate (format.minimumFractionDigits.toNat - digits.length) '0'

/-- The digits before the point, in groups if they are wanted. -/
def whole (value : Decimal) (format : NumberStyle) (locale : Locale) : List Char :=
  let digits := (rounded value format).wholeDigits
  if format.useGrouping then group locale.groupSeparator digits else digits

/-- A number without its sign. -/
def size (value : Decimal) (format : NumberStyle) (locale : Locale) : List Char :=
  match fraction value format with
  | [] => whole value format locale
  | digits => whole value format locale ++ locale.decimalPoint :: digits

/-- The sign of the value that is shown. -/
def sign (value : Decimal) (format : NumberStyle) : List Char :=
  if (rounded value format).negative then ['-'] else []

/-- A number for display. -/
def number (value : Decimal) (format : NumberStyle) (locale : Locale) : String :=
  String.ofList (sign value format ++ size value format locale)

/-- The space that does not break. -/
def fixedSpace : Char := '\u00a0'

/-- The symbol of a currency around a number. -/
def placeSymbol (locale : Locale) (currency : Currency) (sign size : List Char) : List Char :=
  let symbol := currency.symbol.toList
  match locale.placement with
  | .before =>
    if currency.isAlphabetic then sign ++ symbol ++ fixedSpace :: size else sign ++ symbol ++ size
  | .beforeSign => symbol ++ fixedSpace :: (sign ++ size)
  | .after => sign ++ size ++ fixedSpace :: symbol

/-- An amount of money for display, with the places of its currency unless a format is given. -/
def money (value : Decimal) (code : String) (format : Option NumberStyle) (tag : Option String) :
    Except Error String := do
  let locale ← Locale.ofOptionalTag? tag
  let currency ← Currency.ofCode? code
  let format := format.getD (.fixed currency.fractionDigits)
  return String.ofList
    (placeSymbol locale currency (sign value format) (size value format locale))

end Display

end Footprint
