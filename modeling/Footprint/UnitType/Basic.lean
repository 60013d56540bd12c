import Footprint.Dimension.Document
import Footprint.UnitType.Name

/-!
Unit types: the factor catalog's names for dimensions.

An atomic type is declared with its dimension and the unit symbols that the catalog accepts. A
composed type is the product of two others; name, label and symbols follow from theirs, and its
dimension is the sum of their exponents, which may be out of range.
-/

namespace Footprint

/-- A unit type of the factor catalog. -/
inductive UnitType where
  | atomic (name label : String) (dim : Dimension) (symbols : List String)
  | composed (dim : Dimension) (first second : UnitType)
deriving DecidableEq, Repr, Inhabited

namespace UnitType

/-- The catalog's name. -/
def name : UnitType → String
  | .atomic name _ _ _ => name
  | .composed _ first second => first.name ++ String.ofList separator ++ second.name

/-- The name shown to the user. -/
def label : UnitType → String
  | .atomic _ label _ _ => label
  | .composed _ first second => first.label ++ " × " ++ second.label

/-- The dimension of quantities of the type. -/
def dim : UnitType → Dimension
  | .atomic _ _ dim _ => dim
  | .composed dim _ _ => dim

/-- The unit symbols that the catalog accepts: of a product, each pair. -/
def symbols : UnitType → List String
  | .atomic _ _ _ symbols => symbols
  | .composed _ first second =>
    first.symbols.flatMap fun a => second.symbols.map fun b => a ++ "*" ++ b

/-- Whether the type is a product. -/
def isComposed : UnitType → Bool
  | .atomic .. => false
  | .composed .. => true

/-- The product of two unit types. -/
def compose (first second : UnitType) : Except Error UnitType := do
  return .composed (← first.dim.mul second.dim) first second

/-- Write a unit type; a product lists its factors. -/
def toJson : UnitType → Json
  | .atomic name label dim symbols =>
    .object [("externalName", .string name), ("label", .string label), ("dim", dim.toJson),
      ("units", Json.ofList .string symbols)]
  | .composed dim first second =>
    let whole := UnitType.composed dim first second
    .object [("externalName", .string whole.name), ("label", .string whole.label),
      ("dim", dim.toJson), ("units", Json.ofList .string whole.symbols),
      ("composedOf", .array [first.toJson, second.toJson])]

end UnitType

end Footprint
