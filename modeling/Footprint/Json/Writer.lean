import Footprint.Double.Text
import Footprint.Json.Basic

/-!
Writing documents.

`Json.compact` writes a tree without blanks, `Json.pretty` with one item a line, two blanks deeper
for each container. Only quotes, backslashes and control characters are escaped. An unreadable
part, which no value contains, would be written as `null`.
-/

namespace Footprint.Json

/-- A hexadecimal digit. -/
def hexChar (n : Nat) : Char := if n < 10 then Char.ofNat (48 + n) else Char.ofNat (87 + n)

/-- A character as it stands in a text. -/
def writeChar (c : Char) : List Char :=
  if c = '"' then ['\\', '"']
  else if c = '\\' then ['\\', '\\']
  else if c = '\x08' then ['\\', 'b']
  else if c = '\t' then ['\\', 't']
  else if c = '\n' then ['\\', 'n']
  else if c = '\x0c' then ['\\', 'f']
  else if c = '\r' then ['\\', 'r']
  else if c.toNat < 0x20 then ['\\', 'u', '0', '0', hexChar (c.toNat / 16), hexChar (c.toNat % 16)]
  else [c]

/-- A text in quotes. -/
def writeString (s : String) : List Char := '"' :: (s.toList.flatMap writeChar ++ ['"'])

/-- A whole number. -/
def writeInt (i : Int) : List Char :=
  if i < 0 then '-' :: Nat.toDigits 10 i.natAbs else Nat.toDigits 10 i.natAbs

/-- A value that is not a container. -/
def writeScalar : Json → List Char
  | .bool true => ['t', 'r', 'u', 'e']
  | .bool false => ['f', 'a', 'l', 's', 'e']
  | .int i => writeInt i
  | .float x => x.chars .document
  | .string s => writeString s
  | _ => ['n', 'u', 'l', 'l']

/-! ### Without blanks -/

mutual

/-- A tree without blanks. -/
def compactChars : Json → List Char
  | .array items => '[' :: (compactItems items ++ [']'])
  | .object members => '{' :: (compactMembers members ++ ['}'])
  | scalar => scalar.writeScalar

/-- The items of an array with commas between them. -/
def compactItems : List Json → List Char
  | [] => []
  | [item] => item.compactChars
  | item :: rest => item.compactChars ++ ',' :: compactItems rest

/-- The members of an object with commas between them. -/
def compactMembers : List (String × Json) → List Char
  | [] => []
  | [(name, value)] => writeString name ++ ':' :: value.compactChars
  | (name, value) :: rest =>
    writeString name ++ ':' :: (value.compactChars ++ ',' :: compactMembers rest)

end

/-- The text of a tree without blanks. -/
def compact (j : Json) : String := String.ofList j.compactChars

/-! ### One item a line -/

/-- A new line, indented for `depth` containers. -/
def newLine (depth : Nat) : List Char := '\n' :: List.replicate (2 * depth) ' '

mutual

/-- A tree with one item a line, inside `depth` containers. -/
def prettyChars (depth : Nat) : Json → List Char
  | .array [] => ['[', ']']
  | .array items => '[' :: (prettyItems (depth + 1) items ++ newLine depth ++ [']'])
  | .object [] => ['{', '}']
  | .object members => '{' :: (prettyMembers (depth + 1) members ++ newLine depth ++ ['}'])
  | scalar => scalar.writeScalar

/-- The items of an array, each on its own line. -/
def prettyItems (depth : Nat) : List Json → List Char
  | [] => []
  | [item] => newLine depth ++ item.prettyChars depth
  | item :: rest => newLine depth ++ (item.prettyChars depth ++ ',' :: prettyItems depth rest)

/-- The members of an object, each on its own line. -/
def prettyMembers (depth : Nat) : List (String × Json) → List Char
  | [] => []
  | [(name, value)] => newLine depth ++ (writeString name ++ ':' :: ' ' :: value.prettyChars depth)
  | (name, value) :: rest =>
    newLine depth ++
      (writeString name ++
        ':' :: ' ' :: (value.prettyChars depth ++ ',' :: prettyMembers depth rest))

end

/-- The text of a tree with one item a line. -/
def pretty (j : Json) : String := String.ofList (j.prettyChars 0)

end Footprint.Json
