import Footprint.Dimension.Basic

/-!
The text of a dimension.

Bases with positive exponents stand before a slash and the others after it, each with the size of
its exponent unless that is one: `[length]^2*[mass]/[time]^2`. Where no base stands, `1` does.
-/

namespace Footprint.Dimension

/-- A base with the size of its exponent. -/
def termText (base : String) (size : Nat) : List Char :=
  if size = 1 then base.toList else base.toList ++ '^' :: Nat.toDigits 10 size

/-- Terms with a star between them; `1` for none. -/
def productText : List (String × Int32) → List Char
  | [] => ['1']
  | [e] => termText e.1 e.2.toInt.natAbs
  | e :: rest => termText e.1 e.2.toInt.natAbs ++ '*' :: productText rest

/-- The characters of the text. -/
def displayChars (d : Dimension) : List Char :=
  let above := d.entries.filter fun e => 0 < e.2.toInt
  match d.entries.filter fun e => ¬ 0 < e.2.toInt with
  | [] => productText above
  | below => productText above ++ '/' :: productText below

/-- The text of a dimension. -/
def display (d : Dimension) : String := String.ofList d.displayChars

end Footprint.Dimension
