import Footprint.Decimal.Basic

/-!
Reading a decimal from text.

Two forms are read: plain digits with at most one point (`Decimal.ofPlain?`), and failing that a
plain number followed by `e` and a power of ten (`Decimal.ofScientific?`). In the plain form

* a sign may stand first, and `_` anywhere after the first digit;
* once the fraction is full, because it has 28 places or the next digit would not fit the
  mantissa, the rest is cut: its first character rounds up if it is a digit of five or more, and
  all of it still has to be digits and `_`;
* a `_` behind the 28th place is not cut but skipped when the mantissa is wide (`isWide`). The
  digit behind it then still counts: it is taken if the mantissa has room for it, and the places
  are counted from zero again behind the 28th; else it is the first that is cut;
* a whole part that does not fit is refused.
-/

namespace Footprint.Decimal

-- Powers are those of the core library, whichever instances a reader of the module has in scope.
attribute [local instance (high)] instPowNat

/-- The value of a decimal digit. -/
def digit? (c : Char) : Option Nat :=
  if '0' ≤ c ∧ c ≤ '9' then some (c.toNat - '0'.toNat) else none

/-- The decimal of a mantissa with `places` digits after the point, counted modulo 29. -/
def withPlaces? (negative : Bool) (mantissa places : Nat) : Option Decimal :=
  ofParts? negative mantissa (places % (maxScale + 1))

/-- What a character counts in the part that is cut: a digit its value, and `_` zero. -/
def cutDigit? (c : Char) : Option Nat := if c = '_' then some 0 else digit? c

/-- Finish a number whose fraction is full, `rest` being the part that is cut. -/
def cutAt (negative : Bool) (mantissa places : Nat) (rest : List Char) : Option Decimal :=
  (rest.mapM cutDigit?).bind fun digits =>
    if digits.headD 0 < 5 then withPlaces? negative mantissa places
    else if mantissa < maxMantissa then withPlaces? negative (mantissa + 1) places
    else if places = 0 then none
    else withPlaces? negative ((mantissa + 5) / 10) (places - 1)

/-- The mantissa up to which one more digit is sure to fit 64 bits. -/
def narrowLimit : Nat := 2 ^ (64 : Nat) / 10 - 255

/-- Whether a mantissa is wide: without its last digit it has reached `narrowLimit`. -/
def isWide (mantissa : Nat) : Bool := narrowLimit ≤ mantissa / 10

/-- Whether the fraction is full in front of `c`. Behind a skipped `_` it is not. -/
def isFull (skipped : Bool) (mantissa places : Nat) (c : Char) : Bool :=
  maxScale ≤ places && !skipped && !(c == '_' && isWide mantissa)

/-- Read on after `mantissa`: `point` says that the point has been read, `seen` that a digit has,
and `skipped` that a `_` stands just before. -/
def readOn (negative : Bool) :
    (point seen skipped : Bool) → (mantissa places : Nat) → List Char → Option Decimal
  | _, seen, _, mantissa, places, [] =>
    if seen then withPlaces? negative mantissa places else none
  | point, seen, skipped, mantissa, places, c :: rest =>
    if point ∧ isFull skipped mantissa places c then cutAt negative mantissa places (c :: rest)
    else match digit? c with
      | some digit =>
        if mantissa * 10 + digit ≤ maxMantissa then
          let places := if point then places + 1 else places
          readOn negative point true false (mantissa * 10 + digit) places rest
        else if point then cutAt negative mantissa places (c :: rest)
        else none
      | none =>
        if c = '.' ∧ point = false then readOn negative true seen false mantissa places rest
        else if c = '_' ∧ seen then readOn negative point seen true mantissa places rest
        else none

/-- A number in plain digits. -/
def ofPlain? : List Char → Option Decimal
  | '-' :: rest => readOn true false false false 0 0 rest
  | '+' :: rest => readOn false false false false 0 0 rest
  | text => readOn false false false false 0 0 text

/-- The number written by ASCII digits alone. -/
def count? : List Char → Option Nat
  | [] => none
  | digits => digits.foldl (fun n c => n.bind fun n => (digit? c).map (n * 10 + ·)) (some 0)

/-- A count with an optional plus sign. -/
def signedCount? : List Char → Option Nat
  | '+' :: digits => count? digits
  | digits => count? digits

/-- `d` divided by `10 ^ power`, rounded where 28 places do not hold it. -/
def shiftDown? (d : Decimal) (power : Nat) : Option Decimal :=
  if maxScale < power then none
  else if d.scale + power ≤ maxScale then ofParts? d.negative d.mantissa (d.scale + power)
  else ofParts? d.negative (d.round (maxScale - power)).mantissa maxScale

/-- `d` multiplied by `10 ^ power`, while the mantissa holds it. -/
def shiftUp? (d : Decimal) (power : Nat) : Option Decimal :=
  if maxScale < power then none
  else if power ≤ d.scale then ofParts? d.negative d.mantissa (d.scale - power)
  else ofParts? d.negative (d.mantissa * 10 ^ (power - d.scale)) 0

/-- Whether the character starts the power of ten. -/
def isExponentMark (c : Char) : Bool := c = 'e' || c = 'E'

/-- A plain number and a power of ten. -/
def ofScientific? (text : List Char) : Option Decimal :=
  match text.dropWhile (fun c => !isExponentMark c) with
  | [] => none
  | _ :: power =>
    (ofPlain? (text.takeWhile fun c => !isExponentMark c)).bind fun base =>
      match power with
      | '-' :: size => (signedCount? size).bind base.shiftDown?
      | size => (signedCount? size).bind base.shiftUp?

/-- A decimal in either form. -/
def ofChars? (text : List Char) : Option Decimal :=
  (ofPlain? text).or (ofScientific? text)

end Footprint.Decimal
