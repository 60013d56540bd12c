import Footprint.Display.Range
import Footprint.Session

/-!
The boundary to a browser host.

Arguments and answers are document texts. An answer is an object with `success`, `value` and
`error`: the value of a call that succeeds, or the message of the first failure. An optional
argument may be blank or `null`. The registry is the default one.
-/

namespace Footprint.Boundary

/-- The value that an argument holds. -/
def argument {α : Type} (value? : Json → Option α) (text : String) : Except Error α :=
  match (Json.read? text).bind value? with
  | some a => .ok a
  | none => .error .document

/-- The value that an optional argument holds, if it is neither blank nor `null`. -/
def optionalArgument {α : Type} (value? : Json → Option α) (text : String) :
    Except Error (Option α) :=
  if Text.isAllBlank text ∨ Text.trim text = "null" then .ok none
  else (argument value? text).map some

/-- The document that answers a call. -/
def answer (result : Except Error Json) : Json :=
  match result with
  | .ok value => .object [("error", .null), ("success", .bool true), ("value", value.sorted)]
  | .error e => .object [("error", .string e.message), ("success", .bool false), ("value", .null)]

/-- The text that answers a call. -/
def respond (result : Except Error Json) : String := (answer result).compact

/-- Show a quantity; both arguments are optional. -/
def showQuantity (quantity options : String) : String :=
  respond do
    let quantity ← optionalArgument Quantity.ofJson? quantity
    let options ← optionalArgument QuantityStyle.ofJson? options
    return .string (Display.quantity quantity (options.getD {}))

/-- Show a range; the options are optional. -/
def showRange (first last options : String) : String :=
  respond do
    let first ← argument Quantity.ofJson? first
    let last ← argument Quantity.ofJson? last
    let options ← optionalArgument RangeStyle.ofJson? options
    return .string (← Display.range first last (options.getD {}))

/-- The unit types of a dimension. -/
def matchingUnitTypes (dim : String) : String :=
  respond do
    let dim ← argument Dimension.ofJson? dim
    return Json.ofList .string (Registry.default.matching dim)

/-- The unit types from which the factor of a rule may come. -/
def eligibleUnitTypes (rule bindings : String) : String :=
  respond do
    let rule ← argument Rule.ofJson? rule
    let bindings ← argument (Json.list? Binding.ofJson?) bindings
    return (← rule.eligibility bindings Registry.default).toJson

/-- Whether a rule still lacks a choice. -/
def ruleIsEmpty (rule : String) : String :=
  respond do
    let rule ← argument Rule.ofJson? rule
    return .bool rule.isEmpty

/-- The session to save; the allocation is optional. -/
def sessionToSave (bindings rules allocation : String) : String :=
  respond do
    let bindings ← argument (Json.list? Binding.ofJson?) bindings
    let rules ← argument (Json.list? Rule.ofJson?) rules
    let allocation ← optionalArgument Json.Value.ofJson? allocation
    return (Session.snapshot bindings rules (allocation.getD .null)).toJson

end Footprint.Boundary
