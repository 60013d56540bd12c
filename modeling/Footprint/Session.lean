import Footprint.Json.Reader
import Footprint.Json.Writer
import Footprint.Rule.Check

/-!
Saved sessions.

A session is one document with the bindings, the rules and the host's own allocation settings,
which are carried through as they are. Only complete rules are saved (`Session.snapshot`); loading
brings the bindings in line with the attributes of the log (`Session.load`).
-/

namespace Footprint

/-- What is saved of a user's work. -/
structure Session where
  bindings : Bindings
  rules : List Rule
  allocation : Json.Value

namespace Session

/-! ### Documents -/

/-- Read a session. -/
def ofJson? (j : Json) : Option Session := do
  match ← j.fields? ["attributeUnits", "emissionRules", "objectAllocationConfig"] with
  | [bindings, rules, allocation] =>
    return ⟨← Json.defaulted [] (Json.list? Binding.ofJson?) bindings,
      ← Json.defaulted [] (Json.list? Rule.ofJson?) rules,
      ← Json.defaulted .null Json.Value.ofJson? allocation⟩
  | _ => none

/-- Write a session. -/
def toJson (s : Session) : Json :=
  .object [("attributeUnits", Json.ofList Binding.toJson s.bindings),
    ("emissionRules", Json.ofList Rule.toJson s.rules),
    ("objectAllocationConfig", s.allocation.tree)]

/-- The session that a text holds. -/
def parse (text : String) : Except Error Session :=
  match (Json.read? text).bind ofJson? with
  | some s => .ok s
  | none => .error .document

/-- The text of a session, without blanks. -/
def text (s : Session) : String := s.toJson.compact

/-- The text of a session, one item a line. -/
def prettyText (s : Session) : String := s.toJson.pretty

/-! ### Saving and loading -/

/-- The session to save: rules that still lack a choice are left out. -/
def snapshot (bindings : Bindings) (rules : List Rule) (allocation : Json.Value) : Session :=
  ⟨bindings, Rule.complete rules, allocation⟩

/-- The session that a text holds, with bindings in line with the log. -/
def load (text : String) (log : List Descriptor) : Except Error Session := do
  let s ← parse text
  return { s with bindings := s.bindings.reconcile log }

end Session

end Footprint
