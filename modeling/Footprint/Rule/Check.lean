import Footprint.Attribute.Bindings
import Footprint.Dimension.Display
import Footprint.Rule.Basic
import Footprint.Text.Blank
import Footprint.UnitType.Registry

/-!
Checking rules against bindings and the registry.

The product of a rule's attributes has a dimension, and the factor has to be given per quantity of
that dimension. `Rule.eligibility` names the unit types from which it may come, and `Rule.issues`
lists what the user still has to mend. Only a sum of exponents out of range is an error.
-/

namespace Footprint

/-- The unit types from which a factor may come, or the dimension that none of them has. -/
inductive Eligibility where
  | types (names : List String)
  | unsupported (dim : Dimension)
deriving DecidableEq, Repr

namespace Eligibility

/-- The names of the unit types, if the dimension is supported. -/
def names? : Eligibility → Option (List String)
  | .types names => some names
  | .unsupported _ => none

/-- Whether a factor can be searched for. -/
def isSupported (e : Eligibility) : Bool := e.names?.isSome

/-- Write which unit types are eligible. -/
def toJson : Eligibility → Json
  | .types names => .object [("status", .string "types"), ("unitTypes", Json.ofList .string names)]
  | .unsupported dim => .object [("status", .string "unsupported"), ("dim", dim.toJson)]

end Eligibility

/-- What the user has to mend before a rule can be used. -/
inductive Issue where
  /-- A choice is missing. -/
  | incomplete
  /-- No unit type has the dimension of the attributes. -/
  | unsupportedDimension (dim : Dimension)
  /-- The factor was chosen for attributes of another dimension. -/
  | factorDimensionMismatch (required factor : Dimension)
deriving DecidableEq, Repr

namespace Issue

/-- How an issue is shown to the user. -/
def message : Issue → String
  | .incomplete => "Rule is incomplete"
  | .unsupportedDimension dim =>
    "Invalid unit combination: no unit type has dimension " ++ dim.display
  | .factorDimensionMismatch required factor =>
    "Emission factor has dimension " ++ factor.display ++
      ", but the selected attributes require " ++ required.display

/-- Write an issue. -/
def toJson : Issue → Json
  | .incomplete => .object [("kind", .string "incomplete")]
  | .unsupportedDimension dim =>
    .object [("kind", .string "unsupportedDimension"), ("dim", dim.toJson)]
  | .factorDimensionMismatch required factor =>
    .object [("kind", .string "factorDimensionMismatch"), ("required", required.toJson),
      ("factor", factor.toJson)]

end Issue

/-- Whether a choice is missing or blank. -/
def isUnset (choice : Option String) : Bool := choice.all Text.isAllBlank

/-- Whether a factor still lacks its value or its catalog entry. A constant zero counts as
missing. -/
def EmissionFactor.isEmpty : EmissionFactor → Bool
  | .constant value => value.all (·.isZero)
  | .external catalogId _ => isUnset catalogId

namespace Rule

/-- Whether a rule still lacks a choice that it needs. -/
def isEmpty (r : Rule) : Bool :=
  let target := match r with
    | .event _ => false
    | .relation r => isUnset r.objectType
  isUnset r.activity || target || r.factor.all (·.isEmpty)

/-- The rules that lack nothing. -/
def complete (rules : List Rule) : List Rule := rules.filter fun r => !r.isEmpty

/-- The dimension that the factor of a rule must have. -/
def requiredDimension (r : Rule) (bs : Bindings) : Except Error Dimension :=
  (bs.select r.multipliers).requiredDimension

/-- The unit types of a dimension. A pure number is supported even where no unit type has it. -/
def eligibilityOf (registry : Registry) (dim : Dimension) : Eligibility :=
  let names := registry.matching dim
  if names.isEmpty ∧ ¬ dim.isOne then .unsupported dim else .types names

/-- The unit types from which the factor of a rule may come. -/
def eligibility (r : Rule) (bs : Bindings) (registry : Registry) : Except Error Eligibility :=
  (r.requiredDimension bs).map (eligibilityOf registry)

/-- The dimension for which the factor was chosen, if it comes from the catalog. -/
def factorDimension? (r : Rule) : Option Dimension :=
  match r.factor with
  | some (.external _ dim) => dim
  | _ => none

/-- What is wrong with the dimension of a rule. -/
def dimensionIssues (r : Rule) (registry : Registry) (required : Dimension) : List Issue :=
  match eligibilityOf registry required with
  | .unsupported dim => [.unsupportedDimension dim]
  | .types _ =>
    match r.factorDimension? with
    | some factor => if required = factor then [] else [.factorDimensionMismatch required factor]
    | none => []

/-- Everything the user has to mend. -/
def issues (r : Rule) (bs : Bindings) (registry : Registry) : Except Error (List Issue) := do
  let required ← r.requiredDimension bs
  return (if r.isEmpty then [.incomplete] else []) ++ r.dimensionIssues registry required

end Rule

end Footprint
