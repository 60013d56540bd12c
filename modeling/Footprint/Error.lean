/-!
What can go wrong.

An incomplete rule or an unsupported combination of units is a value of its own and no error. The
errors are broken agreements with the caller and failures where documents are read.
`Error.message` is the wording of each.
-/

namespace Footprint

/-- Why an operation failed. -/
inductive Error where
  /-- A range between quantities of different units, given by their symbols. -/
  | incompatibleUnits (left right : String)
  /-- The attribute, as it is displayed, has no binding. -/
  | unknownAttribute (shown : String)
  /-- The name of a unit type describes a division. -/
  | quotientUnitType (name : String)
  /-- No atomic unit type of this name is declared. -/
  | unknownUnitType (name : String)
  /-- No unit is called so; perhaps a known symbol or name was meant. -/
  | unknownUnit (text : String) (meant : Option String)
  /-- Dimensions and weights differ in number. -/
  | weightCountMismatch (dims weights : Nat)
  /-- The exponent of a base left the range of 32 bits. -/
  | exponentOverflow (base : String)
  /-- The factor catalog failed. -/
  | catalog (text : String)
  /-- No currency has this code. -/
  | unsupportedCurrency (code : String)
  /-- No locale has this tag. -/
  | unsupportedLocale (tag : String)
  /-- A document is not well formed or does not have the expected form. -/
  | document
deriving DecidableEq, Repr

namespace Error

/-- What is added to the message about an unknown unit. -/
def suggestion : Option String → String
  | some name => s!"Did you mean '{name}'?"
  | none => "Check the unit name spelling"

/-- The wording of an error. -/
def message : Error → String
  | .incompatibleUnits left right =>
    s!"Incompatible units: cannot form a range from '{left}' to '{right}'"
  | .unknownAttribute shown => s!"No unit binding registered for attribute {shown}"
  | .quotientUnitType name =>
    s!"Unit type '{name}' describes a quotient; only two-factor products are supported"
  | .unknownUnitType name => s!"Unknown unit type '{name}'"
  | .unknownUnit text meant => s!"Unknown unit: '{text}'. " ++ suggestion meant
  | .weightCountMismatch dims weights => s!"Expected {dims} weights, got {weights}"
  | .exponentOverflow base => s!"Exponent of {base} out of range"
  | .catalog text => s!"Catalog error: {text}"
  | .unsupportedCurrency code => s!"Unsupported currency code '{code}'"
  | .unsupportedLocale tag => s!"Unsupported locale '{tag}'"
  | .document => "JSON error"

end Error

end Footprint
