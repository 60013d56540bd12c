import Footprint.Rule.Edit
import Footprint.Session

/-!
The state that a host keeps: bindings, rules and the text saved last.

Each operation gives the next state; one that fails leaves the state as it was, because there is
no next one.
-/

namespace Footprint

/-- The bindings and rules at hand, and the text saved last. -/
structure Workspace where
  bindings : Bindings := []
  rules : List Rule := []
  saved : String := ""

namespace Workspace

/-- Give an attribute another unit. -/
def assign (w : Workspace) (a : Attribute) (unit : Option MeasureUnit) :
    Except Error Workspace := do
  return { w with bindings := ← w.bindings.assign a unit }

/-- Append a rule. -/
def addRule (w : Workspace) (r : Rule) : Workspace := { w with rules := w.rules ++ [r] }

/-- Edit the rule at a place, if there is one and it has what the edit changes. -/
def editRule? (w : Workspace) (place : Nat) (e : RuleEdit) : Option Workspace := do
  let r ← (← w.rules[place]?).edit? e
  return { w with rules := w.rules.set place r }

/-- Save the bindings and the complete rules. -/
def save (w : Workspace) (allocation : Json.Value) : Workspace :=
  { w with saved := (Session.snapshot w.bindings w.rules allocation).text }

/-- Replace bindings and rules by those of a saved text; also gives the session that was read. -/
def load (w : Workspace) (text : String) (log : List Descriptor) :
    Except Error (Workspace × Session) := do
  let s ← Session.load text log
  return ({ w with bindings := s.bindings, rules := s.rules }, s)

end Workspace

end Footprint
