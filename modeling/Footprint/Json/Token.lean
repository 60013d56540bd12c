import Footprint.Json.Basic

/-!
The tokens of a document text.

`Token.scan` cuts a text into tokens and drops the blanks between them, so two texts that differ
in blanks only have the same tokens. A number stays a `Numeral`, the digits as written;
`Numeral.toJson` gives its value. A text is read piece by piece, so that two escapes can make up
one character.
-/

namespace Footprint.Json

-- Powers are those of the core library, whichever instances a reader of the module has in scope.
attribute [local instance (high)] instPowNat

/-! ### Numbers -/

/-- A number as written: digits, digits after the point (none without a point) and the power of
ten. -/
structure Numeral where
  negative : Bool
  whole : List Char
  fraction : List Char
  exponent : Option Int
deriving DecidableEq, Repr

namespace Numeral

/-- The value of a digit. -/
def digitValue (c : Char) : Nat := c.toNat - '0'.toNat

/-- The number that digits write. -/
def digitsValue (digits : List Char) : Nat := digits.foldl (fun n c => n * 10 + digitValue c) 0

/-- Append digits to a significand while it stays below `2 ^ 64`: the significand, and how many
digits are left over. -/
def gather : Nat → List Char → Nat × Nat
  | significand, [] => (significand, 0)
  | significand, c :: rest =>
    let next := significand * 10 + digitValue c
    if next < 2 ^ (64 : Nat) then gather next rest else (significand, rest.length + 1)

/-- The double that is read from the number: its first digits, as many as fit 64 bits, scaled by
the power of ten. -/
def toDouble? (n : Numeral) : Option Double :=
  let (head, dropped) := gather 0 n.whole
  let (significand, left) := gather head n.fraction
  Double.ofScientific? n.negative significand
    (n.exponent.getD 0 + dropped - (n.fraction.length - left : Nat))

/-- The whole number, when it is written without point and exponent and fits 64 bits. Minus zero
is not a whole number. -/
def toInt? (n : Numeral) : Option Int :=
  if n.fraction ≠ [] ∨ n.exponent.isSome then none
  else
    let size := digitsValue n.whole
    if n.negative then (if size = 0 ∨ 2 ^ (63 : Nat) < size then none else some (-size))
    else if size < 2 ^ (64 : Nat) then some size else none

/-- What the number says. -/
def toJson (n : Numeral) : Json :=
  match n.toInt? with
  | some i => .int i
  | none =>
    match n.toDouble? with
    | some x => .float x
    | none => .unreadable

/-- The longest run of digits at the front, and the rest. -/
def spanDigits (text : List Char) : List Char × List Char :=
  (text.takeWhile Char.isDigit, text.dropWhile Char.isDigit)

/-- Read a whole part: one zero, or digits that do not start with one. -/
def scanWhole? (text : List Char) : Option (List Char × List Char) :=
  match spanDigits text with
  | ([], _) => none
  | ('0' :: _ :: _, _) => none
  | (digits, rest) => some (digits, rest)

/-- Read a point and the digits after it, if there is a point. -/
def scanFraction? : List Char → Option (List Char × List Char)
  | '.' :: rest =>
    match spanDigits rest with
    | ([], _) => none
    | (digits, rest) => some (digits, rest)
  | text => some ([], text)

/-- Read the digits of an exponent. -/
def scanPower? (negative : Bool) (text : List Char) : Option (Option Int × List Char) :=
  match spanDigits text with
  | ([], _) => none
  | (digits, rest) =>
    let size : Int := digitsValue digits
    some (some (if negative then -size else size), rest)

/-- Read an exponent, if there is one. -/
def scanExponent? : List Char → Option (Option Int × List Char)
  | c :: rest =>
    if c = 'e' ∨ c = 'E' then
      match rest with
      | '-' :: rest => scanPower? true rest
      | '+' :: rest => scanPower? false rest
      | rest => scanPower? false rest
    else some (none, c :: rest)
  | [] => some (none, [])

/-- Read a number without its sign. -/
def scanSize? (negative : Bool) (text : List Char) : Option (Numeral × List Char) := do
  let (whole, rest) ← scanWhole? text
  let (fraction, rest) ← scanFraction? rest
  let (exponent, rest) ← scanExponent? rest
  return (⟨negative, whole, fraction, exponent⟩, rest)

/-- Read a number from the front of a text. -/
def scan? : List Char → Option (Numeral × List Char)
  | '-' :: rest => scanSize? true rest
  | text => scanSize? false text

end Numeral

/-! ### Texts -/

/-- A piece of a text: a character, or an escaped half of a surrogate pair. -/
inductive Piece where
  | char (c : Char)
  | half (unit : Nat)
deriving DecidableEq, Repr

namespace Piece

/-- The value of a hexadecimal digit. -/
def hexDigit? (c : Char) : Option Nat :=
  if '0' ≤ c ∧ c ≤ '9' then some (c.toNat - '0'.toNat)
  else if 'a' ≤ c ∧ c ≤ 'f' then some (c.toNat - 'a'.toNat + 10)
  else if 'A' ≤ c ∧ c ≤ 'F' then some (c.toNat - 'A'.toNat + 10)
  else none

/-- The number that four hexadecimal digits write. -/
def hexUnit? (a b c d : Char) : Option Nat := do
  return (((← hexDigit? a) * 16 + (← hexDigit? b)) * 16 + (← hexDigit? c)) * 16 + (← hexDigit? d)

/-- The piece that an escape with four digits stands for. -/
def ofUnit (unit : Nat) : Piece :=
  if 0xD800 ≤ unit ∧ unit < 0xE000 then .half unit else .char (Char.ofNat unit)

/-- What a character after a backslash stands for. -/
def escaped? : Char → Option Char
  | '"' => some '"'
  | '\\' => some '\\'
  | '/' => some '/'
  | 'b' => some '\x08'
  | 'f' => some '\x0c'
  | 'n' => some '\n'
  | 'r' => some '\r'
  | 't' => some '\t'
  | _ => none

/-- Read the pieces up to the closing quote. Control characters have to be escaped. -/
def scan? : List Char → Option (List Piece × List Char)
  | [] => none
  | '"' :: rest => some ([], rest)
  | '\\' :: 'u' :: a :: b :: c :: d :: rest => do
    let unit ← hexUnit? a b c d
    let (pieces, rest) ← scan? rest
    return (ofUnit unit :: pieces, rest)
  | '\\' :: c :: rest => do
    let plain ← escaped? c
    let (pieces, rest) ← scan? rest
    return (.char plain :: pieces, rest)
  | c :: rest =>
    if c = '\\' ∨ c.toNat < 0x20 then none
    else do
      let (pieces, rest) ← scan? rest
      return (.char c :: pieces, rest)

/-- The character of a pair of halves. -/
def ofPair? (high low : Nat) : Option Char :=
  if high < 0xDC00 ∧ 0xDC00 ≤ low then
    some (Char.ofNat (0x10000 + (high - 0xD800) * 0x400 + (low - 0xDC00)))
  else none

/-- The characters that pieces make up; `none` for a half without its partner. -/
def join? : List Piece → Option (List Char)
  | [] => some []
  | .char c :: rest => (join? rest).map (c :: ·)
  | .half high :: .half low :: rest => (ofPair? high low).bind fun c => (join? rest).map (c :: ·)
  | .half _ :: _ => none

end Piece

/-! ### Tokens -/

/-- A token. A text without a value is `none`. -/
inductive Token where
  | openArray
  | closeArray
  | openObject
  | closeObject
  | comma
  | colon
  | null
  | bool (b : Bool)
  | number (n : Numeral)
  | string (s : Option String)
deriving DecidableEq, Repr

namespace Token

/-- The characters that may stand between tokens. -/
def isBlank (c : Char) : Bool := c = ' ' || c = '\t' || c = '\n' || c = '\r'

/-- Read one token from a text that starts with it. -/
def next? : List Char → Option (Token × List Char)
  | '[' :: rest => some (.openArray, rest)
  | ']' :: rest => some (.closeArray, rest)
  | '{' :: rest => some (.openObject, rest)
  | '}' :: rest => some (.closeObject, rest)
  | ',' :: rest => some (.comma, rest)
  | ':' :: rest => some (.colon, rest)
  | 'n' :: 'u' :: 'l' :: 'l' :: rest => some (.null, rest)
  | 't' :: 'r' :: 'u' :: 'e' :: rest => some (.bool true, rest)
  | 'f' :: 'a' :: 'l' :: 's' :: 'e' :: rest => some (.bool false, rest)
  | '"' :: rest =>
    (Piece.scan? rest).map fun (pieces, rest) =>
      (.string ((Piece.join? pieces).map String.ofList), rest)
  | text => (Numeral.scan? text).map fun (n, rest) => (.number n, rest)

/-- The tokens of a text, `fuel` being more than its length. -/
def scanWith : (fuel : Nat) → List Char → Option (List Token)
  | 0, _ => none
  | _ + 1, [] => some []
  | fuel + 1, c :: rest =>
    if isBlank c then scanWith fuel rest
    else (next? (c :: rest)).bind fun (token, rest) => (scanWith fuel rest).map (token :: ·)

/-- The tokens of a text; `none` where no token can be read. -/
def scan? (text : List Char) : Option (List Token) := scanWith (text.length + 1) text

end Token

end Footprint.Json
