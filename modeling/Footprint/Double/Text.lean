import Footprint.Double.Basic

/-!
The text of a double.

`Double.shortest` finds the fewest decimal digits that still round to the number, and among those
the nearest. It tries the grids of 1, 2, … 17 digits and takes the first that has a point in the
interval of reals that round to the number; if any point of a grid lies there, so does one of the
number's two neighbours on that grid. `Layout` says which of two equally near ones is taken, and
how the digits are written out.
-/

namespace Footprint.Double

-- Powers are those of the core library, whichever instances a reader of the module has in scope.
attribute [local instance (high)] instPowNat

/-! ### Shortest digits -/

/-- Which of two equally near decimals is taken. -/
inductive Tie where
  /-- The one whose last digit is even. -/
  | toEven
  /-- The one of larger size. -/
  | awayFromZero
deriving DecidableEq, Repr

/-- Whether the upper one of two neighbouring points of a grid is taken, `below` being the lower
one. -/
def Tie.takesUpper (tie : Tie) (below : Nat) : Bool :=
  match tie with
  | .toEven => below % 2 = 1
  | .awayFromZero => true

/-- The exponent of the first decimal digit of a number that is not zero. -/
def leadingExponent (x : Double) : Int :=
  ((Nat.toDigits 10 (x.units * 10 ^ (400 : Nat) / unitsPerOne)).length : Int) - 401

/-- The point of the grid of multiples of `10 ^ p` that reads back as `x` and is nearest to it. -/
def gridPoint? (tie : Tie) (x : Double) (p : Int) : Option Nat :=
  let up := 10 ^ p.toNat
  let down := 10 ^ (-p).toNat
  let step := up * (4 * unitsPerOne)
  let value := 4 * x.units * down
  let gap := 2 ^ x.exponent * down
  let low :=
    if x.significand = 2 ^ (52 : Nat) ∧ 0 < x.exponent then value - gap else value - 2 * gap
  let high := value + 2 * gap
  let inside (c : Nat) : Bool :=
    if x.significand % 2 = 0 then low ≤ c * step ∧ c * step ≤ high
    else low < c * step ∧ c * step < high
  let below := value / step
  let above := below + 1
  match inside below, inside above with
  | false, false => none
  | true, false => some below
  | false, true => some above
  | true, true =>
    let fromBelow := value - below * step
    let fromAbove := above * step - value
    if fromAbove < fromBelow ∨ (fromAbove = fromBelow ∧ tie.takesUpper below) then some above
    else some below

/-- The shortest decimal `c * 10 ^ p` that reads back as the size of `x`, as the pair of `c` and
`p`. -/
def shortest (tie : Tie) (x : Double) : Nat × Int :=
  if x.isZero then (0, 0)
  else
    let lead := x.leadingExponent
    ((List.range 17).findSome? fun (n : Nat) =>
      (x.gridPoint? tie (lead - n)).map fun c => (c, lead - n)).getD (x.units, 0)

/-! ### Layout -/

/-- How the digits of a number are written. -/
structure Layout where
  /-- Which of two equally near decimals is written. -/
  tie : Tie
  /-- Exponents of the first digit that are written without `e`; every exponent when absent. -/
  positional : Option (Int × Int)
  /-- Whether a whole number ends in `.0`. -/
  pointZero : Bool

/-- Number texts in documents: positional from `0.00001` to below `10 ^ 16`, always with a point.
A tie goes to the even digit. -/
def Layout.document : Layout := ⟨.toEven, some (-5, 15), true⟩

/-- All digits, no exponent, no needless point. A tie goes away from zero. -/
def Layout.expanded : Layout := ⟨.awayFromZero, none, false⟩

/-- Digits without the zeros at their end. -/
def dropTrailingZeros (digits : List Char) : List Char :=
  (digits.reverse.dropWhile (· = '0')).reverse

/-- The digits `digits` with the first at the place of `10 ^ lead`, without exponent. -/
def Layout.writePositional (layout : Layout) (digits : List Char) (lead : Int) : List Char :=
  if lead < 0 then
    '0' :: '.' :: (List.replicate (-lead - 1).toNat '0' ++ digits)
  else
    let places := lead.toNat + 1
    let whole := digits.take places ++ List.replicate (places - digits.length) '0'
    match digits.drop places with
    | [] => if layout.pointZero then whole ++ ['.', '0'] else whole
    | fraction => whole ++ '.' :: fraction

/-- One digit, the others after a point, and the exponent with its sign. -/
def writeScientific (digits : List Char) (lead : Int) : List Char :=
  let mantissa := match digits with
    | first :: second :: rest => first :: '.' :: second :: rest
    | short => short
  mantissa ++ 'e' :: (if lead < 0 then '-' else '+') :: Nat.toDigits 10 lead.natAbs

/-- The text of a number in a layout. -/
def chars (layout : Layout) (x : Double) : List Char :=
  let (c, p) := x.shortest layout.tie
  let all := Nat.toDigits 10 c
  let lead : Int := if c = 0 then 0 else (all.length : Int) - 1 + p
  let digits := if c = 0 then ['0'] else dropTrailingZeros all
  let positional := match layout.positional with
    | none => true
    | some (low, high) => decide (low ≤ lead ∧ lead ≤ high)
  let size := if positional then layout.writePositional digits lead else writeScientific digits lead
  if x.negative then '-' :: size else size

end Footprint.Double
