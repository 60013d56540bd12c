import Footprint.Text.Uppercase

/-!
Names of unit types.

The name of a product puts `Over` between the names of its factors. A name with two `Over`, or
with the word `Per`, describes a quotient and is not allowed; words start at capitals, so
`Percentage` is allowed.
-/

namespace Footprint.UnitType

/-- What stands between the names of two factors. -/
def separator : List Char := ['O', 'v', 'e', 'r']

/-- The parts before and after the first separator. -/
def splitName? : List Char → Option (List Char × List Char)
  | 'O' :: 'v' :: 'e' :: 'r' :: rest => some ([], rest)
  | c :: rest => (splitName? rest).map fun (first, second) => (c :: first, second)
  | [] => none

/-- The words of a name: a new one starts at each capital. -/
def words : List Char → List (List Char)
  | [] => []
  | [c] => [[c]]
  | c :: d :: rest =>
    if Text.isUppercase d then [c] :: words (d :: rest)
    else
      match words (d :: rest) with
      | [] => [[c]]
      | word :: words => (c :: word) :: words

/-- Whether the separator stands at two places or more. -/
def hasTwoSeparators (name : List Char) : Bool :=
  ((splitName? name).bind fun (_, rest) => splitName? rest).isSome

/-- Whether a name describes a quotient. -/
def describesQuotient (name : String) : Bool :=
  hasTwoSeparators name.toList || (words name.toList).contains ['P', 'e', 'r']

end Footprint.UnitType
