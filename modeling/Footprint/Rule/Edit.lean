import Footprint.Rule.Basic

/-!
Edits of rules as values, so that a history of edits can be applied and reasoned about.

Choosing an object type or a qualifier is meant for relation rules only; `Rule.edit?` refuses it
for event rules.
-/

namespace Footprint

/-- An edit of a rule. -/
inductive RuleEdit where
  | activity (name : String)
  | objectType (name : String)
  | qualifier (name : Option String)
  | factor (factor : Option EmissionFactor)
  | multipliers (attributes : List Attribute)
deriving DecidableEq, Repr

/-- Apply an edit to a relation rule. -/
def RelationRule.edit (r : RelationRule) : RuleEdit → RelationRule
  | .activity name => r.chooseActivity name
  | .objectType name => r.chooseObjectType name
  | .qualifier name => r.chooseQualifier name
  | .factor factor => r.chooseFactor factor
  | .multipliers attributes => r.chooseMultipliers attributes

/-- Apply an edit to an event rule, if such rules have what it changes. -/
def EventRule.edit? (r : EventRule) : RuleEdit → Option EventRule
  | .activity name => some (r.chooseActivity name)
  | .factor factor => some (r.chooseFactor factor)
  | .multipliers attributes => some (r.chooseMultipliers attributes)
  | .objectType _ | .qualifier _ => none

namespace Rule

/-- Apply an edit to a rule. -/
def edit? (r : Rule) (e : RuleEdit) : Option Rule :=
  match r with
  | .event r => (r.edit? e).map .event
  | .relation r => some (.relation (r.edit e))

/-! ### Edits that every rule has -/

/-- Choose the factor, or none. -/
def chooseFactor (r : Rule) (factor : Option EmissionFactor) : Rule :=
  match r with
  | .event r => .event (r.chooseFactor factor)
  | .relation r => .relation (r.chooseFactor factor)

/-- Choose the attributes to multiply with. -/
def chooseMultipliers (r : Rule) (multipliers : List Attribute) : Rule :=
  match r with
  | .event r => .event (r.chooseMultipliers multipliers)
  | .relation r => .relation (r.chooseMultipliers multipliers)

theorem edit?_factor (r : Rule) (factor : Option EmissionFactor) :
    r.edit? (.factor factor) = some (r.chooseFactor factor) := by
  cases r <;> rfl

theorem edit?_multipliers (r : Rule) (multipliers : List Attribute) :
    r.edit? (.multipliers multipliers) = some (r.chooseMultipliers multipliers) := by
  cases r <;> rfl

@[simp] theorem factor_chooseFactor (r : Rule) (factor : Option EmissionFactor) :
    (r.chooseFactor factor).factor = factor := by
  cases r <;> rfl

@[simp] theorem factor_chooseMultipliers (r : Rule) (multipliers : List Attribute) :
    (r.chooseMultipliers multipliers).factor = r.factor := by
  cases r <;> rfl

end Rule

end Footprint
