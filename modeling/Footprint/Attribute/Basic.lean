import Footprint.Unit.Basic

/-!
Attributes of an event log, and what is recorded about them.

An attribute belongs to the events of one activity or to the objects of one type. A binding gives
it a unit, or none yet; a descriptor says whether it is numeric.
-/

namespace Footprint

/-- An attribute of events or of objects. A dynamic one changes over the life of its object. -/
inductive Attribute where
  | event (activity name : String)
  | object (objectType : String) (dynamic : Bool) (name : String)
deriving DecidableEq, Repr, Inhabited

/-- An attribute with its unit, if it has one. -/
structure Binding where
  subject : Attribute
  unit : Option MeasureUnit
deriving DecidableEq, Repr, Inhabited

/-- An attribute as the event log lists it. -/
structure Descriptor where
  subject : Attribute
  numeric : Bool
deriving DecidableEq, Repr

namespace Attribute

/-- The name of an attribute within its activity or object type. -/
def name : Attribute → String
  | .event _ name => name
  | .object _ _ name => name

/-- How an attribute is shown to the user. -/
def display : Attribute → String
  | .event activity name => s!"event '{activity}'.{name}"
  | .object objectType true name => s!"dynamic object '{objectType}'.{name}"
  | .object objectType false name => s!"object '{objectType}'.{name}"

/-! ### Documents -/

/-- Read an attribute; `held` says that it is part of a value that is held back. -/
def ofJson? (held : Bool) (j : Json) : Option Attribute := do
  let (kind, rest) ← j.tagged? held "target" ["event", "object"]
  if kind = "event" then
    match ← rest.fields? ["activity", "name"] with
    | [activity, name] =>
      return .event (← Json.required Json.string? activity) (← Json.required Json.string? name)
    | _ => none
  else
    match ← rest.fields? ["objectType", "dynamic", "name"] with
    | [objectType, dynamic, name] =>
      return .object (← Json.required Json.string? objectType)
        (← Json.defaulted false Json.bool? dynamic) (← Json.required Json.string? name)
    | _ => none

/-- The members that an attribute is written as. -/
def members : Attribute → List (String × Json)
  | .event activity name =>
    [("target", .string "event"), ("activity", .string activity), ("name", .string name)]
  | .object objectType dynamic name =>
    [("target", .string "object"), ("objectType", .string objectType), ("dynamic", .bool dynamic),
      ("name", .string name)]

/-- Write an attribute. -/
def toJson (a : Attribute) : Json := .object a.members

end Attribute

namespace Binding

/-- An attribute without a unit. -/
def unbound (a : Attribute) : Binding := ⟨a, none⟩

/-- Read a binding: the members of the attribute, and the unit. -/
def ofJson? (j : Json) : Option Binding := do
  match ← j.openFields? ["unit"] with
  | ([unit], rest) =>
    return ⟨← Attribute.ofJson? true (.object rest), ← Json.optional MeasureUnit.ofJson? unit⟩
  | _ => none

/-- Write a binding; a missing unit is left out. -/
def toJson (b : Binding) : Json :=
  .object (b.subject.members ++ (b.unit.map fun u => ("unit", u.toJson)).toList)

end Binding

namespace Descriptor

/-- Read a descriptor: the members of the attribute, and whether it is numeric. -/
def ofJson? (j : Json) : Option Descriptor := do
  match ← j.openFields? ["numeric"] with
  | ([numeric], rest) =>
    return ⟨← Attribute.ofJson? true (.object rest), ← Json.required Json.bool? numeric⟩
  | _ => none

/-- Write a descriptor. -/
def toJson (d : Descriptor) : Json := .object (d.subject.members ++ [("numeric", .bool d.numeric)])

end Descriptor

end Footprint
