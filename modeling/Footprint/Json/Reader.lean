import Footprint.Json.Token

/-!
Reading documents.

`Json.ofTokens?` reads a tree from tokens and refuses what is not one value and nothing else;
`Json.read?` does so for a text. Containers may stand in 127 levels; a deeper one is read as
`unreadable`.
-/

namespace Footprint.Json

/-- How many levels of containers have a value. -/
def maxLevels : Nat := 127

/-- The container of the `levels`-th level from below: `unreadable` where no level is left. -/
def atLevel (levels : Nat) (container : Json) : Json :=
  if levels = 0 then .unreadable else container

mutual

/-- Read one value; `levels` containers may be nested in it. -/
def readValue : (fuel levels : Nat) → List Token → Option (Json × List Token)
  | 0, _, _ => none
  | fuel + 1, levels, tokens =>
    match tokens with
    | .null :: rest => some (.null, rest)
    | .bool b :: rest => some (.bool b, rest)
    | .number n :: rest => some (n.toJson, rest)
    | .string (some s) :: rest => some (.string s, rest)
    | .string none :: rest => some (.unreadable, rest)
    | .openArray :: .closeArray :: rest => some (atLevel levels (.array []), rest)
    | .openArray :: rest =>
      (readItems fuel (levels - 1) rest).map fun (items, rest) =>
        (atLevel levels (.array items), rest)
    | .openObject :: .closeObject :: rest => some (atLevel levels (.object []), rest)
    | .openObject :: rest =>
      (readMembers fuel (levels - 1) rest).map fun (members, rest) =>
        (atLevel levels (members.elim .unreadable .object), rest)
    | _ => none

/-- Read the items of an array that has some, and its end. -/
def readItems : (fuel levels : Nat) → List Token → Option (List Json × List Token)
  | 0, _, _ => none
  | fuel + 1, levels, tokens =>
    (readValue fuel levels tokens).bind fun (item, rest) =>
      match rest with
      | .closeArray :: rest => some ([item], rest)
      | .comma :: rest =>
        (readItems fuel levels rest).map fun (items, rest) => (item :: items, rest)
      | _ => none

/-- Read the members of an object that has some, and its end. The members are `none` when one of
the names has no value. -/
def readMembers : (fuel levels : Nat) → List Token →
    Option (Option (List (String × Json)) × List Token)
  | 0, _, _ => none
  | fuel + 1, levels, tokens =>
    match tokens with
    | .string name :: .colon :: rest =>
      (readValue fuel levels rest).bind fun (value, rest) =>
        let first := name.map fun name => (name, value)
        match rest with
        | .closeObject :: rest => some (first.map ([·]), rest)
        | .comma :: rest =>
          (readMembers fuel levels rest).map fun (members, rest) =>
            (first.bind fun first => members.map (first :: ·), rest)
        | _ => none
    | _ => none

end

/-- The tree that the tokens write, if they write one value. -/
def ofTokens? (tokens : List Token) : Option Json :=
  match readValue (2 * tokens.length + 1) maxLevels tokens with
  | some (j, []) => some j
  | _ => none

/-- The tree of a text, if the text is one document. -/
def read? (text : String) : Option Json := (Token.scan? text.toList).bind ofTokens?

end Footprint.Json
