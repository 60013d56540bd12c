/-!
Edit distance: the fewest insertions, deletions and substitutions of single characters that turn
one text into another.

It is computed row by row over the first text. A row holds the distances from what has been read
of the first text to each initial part of the second one.
-/

namespace Footprint.Text

/-- The rest of a row: `left` is the distance just computed, `corner :: above` are those of the
row before from the same place on. -/
def rowFrom (a : Char) : (left : Nat) → (second : List Char) → (row : List Nat) → List Nat
  | left, b :: second, corner :: above :: row =>
    let here := min (min (corner + if a = b then 0 else 1) (above + 1)) (left + 1)
    here :: rowFrom a here second (above :: row)
  | _, _, _ => []

/-- The row after reading one more character of the first text. -/
def nextRow (second : List Char) (row : List Nat) (a : Char) : List Nat :=
  let first := row.headD 0 + 1
  first :: rowFrom a first second row

/-- The edit distance of two texts. -/
def editDistance (first second : List Char) : Nat :=
  (first.foldl (nextRow second) (List.range (second.length + 1))).getLastD 0

end Footprint.Text
