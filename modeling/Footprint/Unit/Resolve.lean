import Footprint.Text.Blank
import Footprint.Text.EditDistance
import Footprint.Text.Lowercase
import Footprint.Unit.Table

/-!
Finding the unit that a text means.

A symbol as it stands comes first, so that `MJ` is not `mJ`. Then names and aliases count, in
either case and in the plural; then a symbol in either case, if only one unit has it. Where
nothing fits, the nearest name or symbol is suggested.
-/

namespace Footprint

namespace UnitEntry

/-- Whether a text in lower case is the name or an alias, or a plural of one. -/
def isCalled (e : UnitEntry) (text : String) : Bool :=
  (e.name :: e.aliases).any fun name =>
    let name := Text.lower name
    text = name ∨ text = name ++ "s" ∨ text = name ++ "es"

/-- The entry with this symbol when case does not count, if there is just one. -/
def onlyFolded? (text : String) : Option UnitEntry :=
  match table.filter fun e => Text.lower e.symbol = text with
  | [e] => some e
  | _ => none

end UnitEntry

namespace MeasureUnit

/-- The names and symbols that can be suggested, in order. -/
def suggestions : List String := UnitEntry.table.flatMap fun e => [e.name, e.symbol]

/-- The first element with the least measure, with that measure. -/
def leastBy? {α : Type} (measure : α → Nat) : List α → Option (Nat × α)
  | [] => none
  | a :: rest =>
    match leastBy? measure rest with
    | some (n, b) => if n < measure a then some (n, b) else some (measure a, a)
    | none => some (measure a, a)

/-- The name or symbol that may have been meant by a text in lower case: the nearest one, at a
distance of at most two. -/
def meant? (text : String) : Option String :=
  match leastBy? (fun s => Text.editDistance text.toList (Text.lower s).toList) suggestions with
  | some (distance, name) => if distance ≤ 2 ∧ text ≠ "" then some name else none
  | none => none

/-- The unit that a text means. -/
def resolve (text : String) : Except Error MeasureUnit :=
  let trimmed := Text.trim text
  let folded := Text.lower trimmed
  let entry := (UnitEntry.table.find? fun e => e.symbol = trimmed)
    |>.or (UnitEntry.table.find? fun e => e.isCalled folded)
    |>.or (UnitEntry.onlyFolded? folded)
  match entry with
  | some e => .ok e.unit
  | none => .error (.unknownUnit trimmed (meant? folded))

end MeasureUnit

end Footprint
