import Footprint.Attribute.Basic

/-!
Emission rules.

A rule attaches an emission factor to the events of an activity, or to the relations between an
activity and an object type; the factor is multiplied with the attributes the rule lists. A factor
is a constant that the user enters, or an entry of the factor catalog with the dimension it was
chosen for.

Editing a rule gives a new one. A choice that others depend on resets them when it changes:
another activity starts the rule afresh, another object type keeps the activity only.
-/

namespace Footprint

/-- Where the factor of a rule comes from. -/
inductive EmissionFactor where
  | constant (value : Option Quantity)
  | external (catalogId : Option String) (dim : Option Dimension)
deriving DecidableEq, Repr, Inhabited

/-- A rule for the events of an activity. -/
structure EventRule where
  activity : Option String := none
  factor : Option EmissionFactor := none
  multipliers : List Attribute := []
deriving DecidableEq, Repr, Inhabited

/-- A rule for the relations between the events of an activity and the objects of a type, perhaps
only those with one qualifier. -/
structure RelationRule where
  activity : Option String := none
  objectType : Option String := none
  qualifier : Option String := none
  factor : Option EmissionFactor := none
  multipliers : List Attribute := []
deriving DecidableEq, Repr, Inhabited

/-- An emission rule. -/
inductive Rule where
  | event (rule : EventRule)
  | relation (rule : RelationRule)
deriving DecidableEq, Repr, Inhabited

/-! ### Edits -/

namespace EventRule

/-- Choose the activity; another one than before starts the rule afresh. -/
def chooseActivity (r : EventRule) (activity : String) : EventRule :=
  if r.activity = some activity then r else { activity := some activity }

/-- Choose the factor, or none. -/
def chooseFactor (r : EventRule) (factor : Option EmissionFactor) : EventRule :=
  { r with factor := factor }

/-- Choose the attributes to multiply with. -/
def chooseMultipliers (r : EventRule) (multipliers : List Attribute) : EventRule :=
  { r with multipliers := multipliers }

end EventRule

namespace RelationRule

/-- Choose the activity; another one than before starts the rule afresh. -/
def chooseActivity (r : RelationRule) (activity : String) : RelationRule :=
  if r.activity = some activity then r else { activity := some activity }

/-- Choose the object type; another one than before keeps the activity only. -/
def chooseObjectType (r : RelationRule) (objectType : String) : RelationRule :=
  if r.objectType = some objectType then r
  else { activity := r.activity, objectType := some objectType }

/-- Choose the qualifier, or none. -/
def chooseQualifier (r : RelationRule) (qualifier : Option String) : RelationRule :=
  { r with qualifier := qualifier }

/-- Choose the factor, or none. -/
def chooseFactor (r : RelationRule) (factor : Option EmissionFactor) : RelationRule :=
  { r with factor := factor }

/-- Choose the attributes to multiply with. -/
def chooseMultipliers (r : RelationRule) (multipliers : List Attribute) : RelationRule :=
  { r with multipliers := multipliers }

end RelationRule

/-! ### Parts -/

namespace Rule

/-- The chosen activity. -/
def activity : Rule → Option String
  | .event r => r.activity
  | .relation r => r.activity

/-- The chosen factor. -/
def factor : Rule → Option EmissionFactor
  | .event r => r.factor
  | .relation r => r.factor

/-- The attributes that the factor is multiplied with. -/
def multipliers : Rule → List Attribute
  | .event r => r.multipliers
  | .relation r => r.multipliers

/-- The kind of a rule in documents. -/
def kindName : Rule → String
  | .event _ => "EventEmissionRule"
  | .relation _ => "E2OEmissionRule"

end Rule

/-! ### Documents -/

/-- A member that is left out when it is missing. -/
def Json.optionalMember {α : Type} (name : String) (toJson : α → Json) (value : Option α) :
    List (String × Json) :=
  (value.map fun a => (name, toJson a)).toList

namespace EmissionFactor

/-- Read a factor; `held` says that it is part of a value that is held back. -/
def ofJson? (held : Bool) (j : Json) : Option EmissionFactor := do
  let (kind, rest) ← j.tagged? held "type" ["local", "external"]
  if kind = "local" then
    match ← rest.fields? ["value"] with
    | [value] => return .constant (← Json.optional Quantity.ofJson? value)
    | _ => none
  else
    match ← rest.fields? ["catalogId", "dim"] with
    | [catalogId, dim] =>
      return .external (← Json.optional Json.string? catalogId)
        (← Json.optional Dimension.ofJson? dim)
    | _ => none

/-- Write a factor. -/
def toJson : EmissionFactor → Json
  | .constant value =>
    .object (("type", .string "local") :: Json.optionalMember "value" Quantity.toJson value)
  | .external catalogId dim =>
    .object (("type", .string "external") ::
      (Json.optionalMember "catalogId" .string catalogId ++
        Json.optionalMember "dim" Dimension.toJson dim))

end EmissionFactor

namespace Rule

/-- Read a rule. Its parts are held back until its kind is known. -/
def ofJson? (j : Json) : Option Rule := do
  let (kind, rest) ← j.tagged? false "type" ["EventEmissionRule", "E2OEmissionRule"]
  if kind = "EventEmissionRule" then
    match ← rest.fields? ["activity", "factor", "multiplierAttributes"] with
    | [activity, factor, multipliers] =>
      return .event {
        activity := ← Json.optional Json.string? activity
        factor := ← Json.optional (EmissionFactor.ofJson? true) factor
        multipliers := ← Json.defaulted [] (Json.list? (Attribute.ofJson? true)) multipliers }
    | _ => none
  else
    match ← rest.fields?
        ["activity", "objectType", "qualifier", "factor", "multiplierAttributes"] with
    | [activity, objectType, qualifier, factor, multipliers] =>
      return .relation {
        activity := ← Json.optional Json.string? activity
        objectType := ← Json.optional Json.string? objectType
        qualifier := ← Json.optional Json.string? qualifier
        factor := ← Json.optional (EmissionFactor.ofJson? true) factor
        multipliers := ← Json.defaulted [] (Json.list? (Attribute.ofJson? true)) multipliers }
    | _ => none

/-- Write a rule. -/
def toJson (r : Rule) : Json :=
  let target := match r with
    | .event _ => []
    | .relation r => Json.optionalMember "objectType" .string r.objectType ++
        Json.optionalMember "qualifier" .string r.qualifier
  .object (("type", .string r.kindName) ::
    (Json.optionalMember "activity" .string r.activity ++ target ++
      Json.optionalMember "factor" EmissionFactor.toJson r.factor ++
      [("multiplierAttributes", Json.ofList Attribute.toJson r.multipliers)]))

end Rule

end Footprint
