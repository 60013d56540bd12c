import Footprint.Json.Basic

/-!
Reading typed values from document trees.

A record with declared fields is read from an object or from an array in the order of declaration
(`fields?`). A declared field may stand once; members that are not declared are skipped, readable
or not.

A value of one of several kinds names its kind in a member of its own (`tagged?`). The other
members are held back until the kind is known, and have to be readable. Inside a part that is held
back itself, the kind may be given by its position.

A record with an open rest (`openFields?`) is read from an object only; the members it does not
declare are held back as well.
-/

namespace Footprint.Json

-- Powers are those of the core library, whichever instances a reader of the module has in scope.
attribute [local instance (high)] instPowNat

/-! ### Single values -/

/-- A text. -/
def string? : Json → Option String
  | .string s => some s
  | _ => none

/-- A truth value. -/
def bool? : Json → Option Bool
  | .bool b => some b
  | _ => none

/-- A whole number. -/
def int? : Json → Option Int
  | .int i => some i
  | _ => none

/-- A whole number of 32 bits without sign. -/
def uint32? (j : Json) : Option UInt32 :=
  j.int?.bind fun i => if 0 ≤ i ∧ i < 2 ^ (32 : Nat) then some (UInt32.ofNat i.toNat) else none

/-- The items of an array, each read by `item?`. -/
def list? {α : Type} (item? : Json → Option α) : Json → Option (List α)
  | .array items => items.mapM item?
  | _ => none

/-- The members of an object, each value read by `value?`. -/
def members? {α : Type} (value? : Json → Option α) : Json → Option (List (String × α))
  | .object members => members.mapM fun e => (value? e.2).map fun a => (e.1, a)
  | _ => none

/-- An object as a map; of members with equal names the last one counts. -/
def map? {α : Type} (value? : Json → Option α) (j : Json) : Option (NameMap α) :=
  (j.members? value?).map NameMap.ofList

/-- A value, or `null` for nothing. -/
def nullable? {α : Type} (value? : Json → Option α) : Json → Option (Option α)
  | .null => some none
  | j => (value? j).map some

/-! ### Fields -/

/-- A field that has to stand. -/
def required {α : Type} (value? : Json → Option α) : Option Json → Option α
  | none => none
  | some j => value? j

/-- A field that may be missing or `null`. -/
def optional {α : Type} (value? : Json → Option α) : Option Json → Option (Option α)
  | none => some none
  | some j => j.nullable? value?

/-- A field that has the value `default` when it is missing. -/
def defaulted {α : Type} (default : α) (value? : Json → Option α) : Option Json → Option α
  | none => some default
  | some j => value? j

/-- The value of the member `name`: missing, or standing once. -/
def memberOnce? (name : String) (members : List (String × Json)) : Option (Option Json) :=
  match members.filter fun e => e.1 = name with
  | [] => some none
  | [e] => some (some e.2)
  | _ => none

/-- The values of the declared fields, in the order of declaration. -/
def fields? (names : List String) : Json → Option (List (Option Json))
  | .object members => names.mapM fun name => memberOnce? name members
  | .array items =>
    if items.length ≤ names.length then
      some (items.map some ++ List.replicate (names.length - items.length) none)
    else none
  | _ => none

/-- The values of the declared fields of a record with an open rest, and that rest. -/
def openFields? (names : List String) :
    Json → Option (List (Option Json) × List (String × Json))
  | .object members => do
    let values ← names.mapM fun name => memberOnce? name members
    let rest := members.filter fun e => e.1 ∉ names
    if readableMembers rest then some (values, rest) else none
  | _ => none

/-! ### Kinds -/

/-- The kind that `j` names, among `kinds`: by its name, or by its position when `held` says that
the value is part of one that is held back. -/
def kind? (held : Bool) (kinds : List String) : Json → Option String
  | .string name => if name ∈ kinds then some name else none
  | .int position => if held ∧ 0 ≤ position then kinds[position.toNat]? else none
  | _ => none

/-- The kind of a value and its other members, which have to be readable. In an array the kind
stands first. -/
def tagged? (held : Bool) (tag : String) (kinds : List String) : Json → Option (String × Json)
  | .object members => do
    let kind ← (← memberOnce? tag members).bind (kind? held kinds)
    let rest := members.filter fun e => e.1 ≠ tag
    if readableMembers rest then some (kind, .object rest) else none
  | .array (first :: rest) => do
    let kind ← kind? held kinds first
    if readableItems rest then some (kind, .array rest) else none
  | _ => none

end Footprint.Json
