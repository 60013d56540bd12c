import Footprint.Json.Reader
import Footprint.Proofs.Json.Scan

/-!
Reading written documents.

A tree within the levels of the reader is read from either layout, whatever texts it contains, and
member by member in the order in which it was written. What is read is the tree with its numbers
read from their texts (`Json.reread`):

* `ofTokens?_tokens`, and with it `read?_compact_eq`.
* `read?_compact`, `read?_pretty`: a plain tree is read back unchanged.

The reader's fuel is measured against the tokens: two units for each are enough.
-/

namespace Footprint.Json

/-! ### What is read -/

mutual

/-- How many levels of containers a tree has. -/
def levels : Json → Nat
  | .array items => levelsItems items + 1
  | .object members => levelsMembers members + 1
  | _ => 0

/-- The most levels of an item. -/
def levelsItems : List Json → Nat
  | [] => 0
  | item :: rest => max item.levels (levelsItems rest)

/-- The most levels of a member. -/
def levelsMembers : List (String × Json) → Nat
  | [] => 0
  | (_, value) :: rest => max value.levels (levelsMembers rest)

end

theorem levelsItems_le_iff {items : List Json} {n : Nat} :
    levelsItems items ≤ n ↔ ∀ item ∈ items, item.levels ≤ n := by
  induction items with
  | nil => simp [levelsItems]
  | cons item rest ih => simp [levelsItems, ih]

theorem levelsMembers_le_iff {members : List (String × Json)} {n : Nat} :
    levelsMembers members ≤ n ↔ ∀ e ∈ members, e.2.levels ≤ n := by
  induction members with
  | nil => simp [levelsMembers]
  | cons e rest ih =>
    obtain ⟨name, value⟩ := e
    simp [levelsMembers, ih]

mutual

/-- The tree with each number as it is read from its text. -/
def reread : Json → Json
  | .null | .unreadable => .null
  | .bool b => .bool b
  | .int i => (Numeral.ofInt i).toJson
  | .float x => x.numeral.toJson
  | .string s => .string s
  | .array items => .array (rereadItems items)
  | .object members => .object (rereadMembers members)

/-- Each item as it is read. -/
def rereadItems : List Json → List Json
  | [] => []
  | item :: rest => item.reread :: rereadItems rest

/-- Each member as it is read. -/
def rereadMembers : List (String × Json) → List (String × Json)
  | [] => []
  | (name, value) :: rest => (name, value.reread) :: rereadMembers rest

end

theorem rereadItems_eq_map (items : List Json) : rereadItems items = items.map reread := by
  induction items with
  | nil => rfl
  | cons item rest ih => rw [rereadItems, ih, List.map_cons]

theorem rereadMembers_eq_map (members : List (String × Json)) :
    rereadMembers members = members.map fun e => (e.1, e.2.reread) := by
  induction members with
  | nil => rfl
  | cons e rest ih => rw [rereadMembers, ih, List.map_cons]

theorem Written.levels_le {fractions : Prop} {levels : Nat} {j : Json}
    (written : Written fractions levels j) : j.levels ≤ levels := by
  induction written with
  | null | bool | int | float | string => exact Nat.zero_le _
  | array _ ih => exact Nat.succ_le_succ (levelsItems_le_iff.mpr ih)
  | object _ ih => exact Nat.succ_le_succ (levelsMembers_le_iff.mpr ih)

/-- Every readable tree is written within its levels. -/
theorem written_of_readable {levels : Nat} {j : Json} (legible : j.readable = true)
    (room : j.levels ≤ levels) : Written True levels j := by
  induction j using tree_induction generalizing levels with
  | null => exact .null
  | unreadable => exact absurd legible Bool.false_ne_true
  | bool => exact .bool
  | string => exact .string
  | int => exact .int (of_decide_eq_true legible)
  | float => exact .float trivial
  | array items ih =>
    obtain ⟨levels, rfl⟩ := Nat.exists_eq_add_of_lt (Nat.lt_of_succ_le room)
    have each := levelsItems_le_iff.mp (Nat.le_of_succ_le_succ room)
    exact .array fun item mem =>
      ih item mem (readableItems_iff.mp legible item mem) (each item mem)
  | object members ih =>
    obtain ⟨levels, rfl⟩ := Nat.exists_eq_add_of_lt (Nat.lt_of_succ_le room)
    have each := levelsMembers_le_iff.mp (Nat.le_of_succ_le_succ room)
    exact .object fun e mem => ih e mem (readableMembers_iff.mp legible e mem) (each e mem)

theorem Plain.levels_le {levels : Nat} {j : Json} (plain : Plain levels j) : j.levels ≤ levels :=
  (plain_iff_written.mp plain).levels_le

/-- A plain tree is read back unchanged. -/
theorem Plain.reread_eq {levels : Nat} {j : Json} (plain : Plain levels j) : j.reread = j := by
  induction plain with
  | null | bool | string => rfl
  | int inRange => exact Numeral.toJson_ofInt inRange
  | array _ ih =>
    rw [reread, rereadItems_eq_map, List.map_congr_left ih, List.map_id']
  | @object _ members _ ih =>
    have same : ∀ e ∈ members, (e.1, e.2.reread) = e := fun e mem => Prod.ext rfl (ih e mem)
    rw [reread, rereadMembers_eq_map, List.map_congr_left same, List.map_id']

/-! ### Reading from tokens -/

/-- A tree does not start like the end of an array. -/
theorem head_tokens (j : Json) : ∃ t ts, j.tokens = t :: ts ∧ t ≠ .closeArray := by
  cases j <;> exact ⟨_, _, rfl, by nofun⟩

/-- A tree is read from its tokens, whatever stands behind them. -/
def ReadsBack (levels : Nat) (j : Json) : Prop :=
  ∀ fuel rest, 2 * j.tokens.length ≤ fuel →
    readValue fuel levels (j.tokens ++ rest) = some (j.reread, rest)

theorem exists_fuel {least fuel : Nat} (some : 0 < least) (enough : least ≤ fuel) :
    ∃ less, fuel = less + 1 := by
  exact ⟨fuel - 1, by omega⟩

theorem readItems_separated {levels : Nat} {items : List Json} (some? : items ≠ [])
    (each : ∀ item ∈ items, ReadsBack levels item) (fuel : Nat) (rest : List Token)
    (enough : 2 * (separated (items.map tokens)).length + 1 ≤ fuel) :
    readItems fuel levels (separated (items.map tokens) ++ .closeArray :: rest) =
      some (rereadItems items, rest) := by
  induction items generalizing fuel with
  | nil => exact absurd rfl some?
  | cons item tail ih =>
    obtain ⟨fuel, rfl⟩ := exists_fuel (Nat.succ_pos _) enough
    have first := each item List.mem_cons_self
    cases tail with
    | nil =>
      simp only [List.map_cons, List.map_nil, separated] at enough ⊢
      rw [readItems, first fuel _ (by omega)]
      rfl
    | cons next tail =>
      simp only [List.map_cons, separated, List.length_append, List.length_cons] at enough
      simp only [List.map_cons, separated, List.append_assoc, List.cons_append]
      have others := ih (by simp) (fun other mem => each other (List.mem_cons_of_mem _ mem)) fuel
        (by simp only [List.map_cons]; omega)
      simp only [List.map_cons] at others
      rw [readItems, first fuel _ (by omega)]
      simp only [Option.bind_some, others, Option.map_some, rereadItems]

theorem readMembers_separated {levels : Nat} {members : List (String × Json)}
    (some? : members ≠ []) (each : ∀ e ∈ members, ReadsBack levels e.2) (fuel : Nat)
    (rest : List Token) (enough : 2 * (separated (memberTokens members)).length + 1 ≤ fuel) :
    readMembers fuel levels (separated (memberTokens members) ++ .closeObject :: rest) =
      some (some (rereadMembers members), rest) := by
  induction members generalizing fuel with
  | nil => exact absurd rfl some?
  | cons e tail ih =>
    obtain ⟨name, value⟩ := e
    obtain ⟨fuel, rfl⟩ := exists_fuel (Nat.succ_pos _) enough
    have first : ReadsBack levels value := each (name, value) List.mem_cons_self
    cases tail with
    | nil =>
      simp only [memberTokens, separated, List.length_cons] at enough
      simp only [memberTokens, separated, List.cons_append]
      rw [readMembers, first fuel _ (by omega)]
      rfl
    | cons next tail =>
      have others := ih (by simp) (fun other mem => each other (List.mem_cons_of_mem _ mem)) fuel
      simp only [memberTokens, separated, List.length_append, List.length_cons] at enough others
      simp only [memberTokens, separated, List.append_assoc, List.cons_append] at others ⊢
      rw [readMembers, first fuel _ (by omega)]
      simp only [Option.bind_some, others (by omega), Option.map_some, rereadMembers]

theorem head_separated {items : List Json} (some? : items ≠ []) :
    ∃ t ts, separated (items.map tokens) = t :: ts ∧ t ≠ .closeArray := by
  cases items with
  | nil => exact absurd rfl some?
  | cons item tail =>
    obtain ⟨t, ts, starts, notClosed⟩ := item.head_tokens
    cases tail with
    | nil => exact ⟨t, ts, starts, notClosed⟩
    | cons next tail =>
      simp only [List.map_cons, separated, starts, List.cons_append]
      exact ⟨t, _, rfl, notClosed⟩

theorem head_memberTokens (e : String × Json) (tail : List (String × Json)) :
    ∃ name ts, separated (memberTokens (e :: tail)) = .string name :: ts := by
  cases tail <;> exact ⟨some e.1, _, rfl⟩

theorem readValue_openArray {fuel levels : Nat} {t : Token} {ts : List Token}
    (notClosed : t ≠ .closeArray) : readValue (fuel + 1) levels (.openArray :: t :: ts) =
      (readItems fuel (levels - 1) (t :: ts)).map fun p =>
        (atLevel levels (.array p.1), p.2) := by
  cases t <;> first
    | rfl
    | exact absurd rfl notClosed

theorem readValue_openObject {fuel levels : Nat} {name : Option String} {ts : List Token} :
    readValue (fuel + 1) levels (.openObject :: .string name :: ts) =
      (readMembers fuel (levels - 1) (.string name :: ts)).map fun p =>
        (atLevel levels (p.1.elim .unreadable .object), p.2) := rfl

theorem readsBack (j : Json) {levels : Nat} (room : j.levels ≤ levels) : ReadsBack levels j := by
  induction j using tree_induction generalizing levels with
  | null | unreadable | bool | string | int | float =>
    intro fuel rest enough
    obtain ⟨fuel, rfl⟩ := exists_fuel (Nat.succ_pos 1) enough
    rfl
  | array items ih =>
    obtain ⟨less, rfl⟩ := exists_fuel (Nat.succ_pos _) room
    have each := levelsItems_le_iff.mp (Nat.le_of_succ_le_succ room)
    intro fuel rest enough
    obtain ⟨fuel, rfl⟩ := exists_fuel (Nat.succ_pos _) enough
    cases items with
    | nil => rfl
    | cons item tail =>
      have some? : item :: tail ≠ [] := by simp
      simp only [tokens, itemTokens_eq_map, List.length_cons, List.length_append] at enough
      simp only [tokens, itemTokens_eq_map, List.cons_append, List.append_assoc, List.nil_append]
      obtain ⟨t, ts, starts, notClosed⟩ := head_separated some?
      rw [starts, List.cons_append, readValue_openArray notClosed,
        ← List.cons_append, ← starts, Nat.add_sub_cancel,
        readItems_separated some? (fun item mem => ih item mem (each item mem)) fuel rest
          (by omega)]
      rfl
  | object members ih =>
    obtain ⟨less, rfl⟩ := exists_fuel (Nat.succ_pos _) room
    have each := levelsMembers_le_iff.mp (Nat.le_of_succ_le_succ room)
    intro fuel rest enough
    obtain ⟨fuel, rfl⟩ := exists_fuel (Nat.succ_pos _) enough
    cases members with
    | nil => rfl
    | cons e tail =>
      have some? : e :: tail ≠ [] := by simp
      simp only [tokens, List.length_cons, List.length_append] at enough
      simp only [tokens, List.cons_append, List.append_assoc, List.nil_append]
      have read := readMembers_separated some? (fun e mem => ih e mem (each e mem)) fuel rest
        (by omega)
      obtain ⟨name, ts, starts⟩ := head_memberTokens e tail
      rw [starts, List.cons_append] at read ⊢
      rw [readValue_openObject, Nat.add_sub_cancel, read]
      rfl

/-- The tokens of a tree within the levels of the reader are read as this tree. -/
theorem ofTokens?_tokens {j : Json} (room : j.levels ≤ maxLevels) :
    ofTokens? j.tokens = some j.reread := by
  have read := j.readsBack room (2 * j.tokens.length + 1) [] (by omega)
  rw [List.append_nil] at read
  simp only [ofTokens?, read]

/-- A text without blanks is read as the tokens of its tree. -/
theorem read?_compact_tokens (j : Json) : read? j.compact = ofTokens? j.tokens := by
  simp only [read?, compact, String.toList_ofList, Token.scan?_compactChars, Option.bind_some]

/-- A tree is read from its text without blanks. -/
theorem read?_compact_eq {j : Json} (room : j.levels ≤ maxLevels) :
    read? j.compact = some j.reread := by
  rw [read?_compact_tokens, ofTokens?_tokens room]

/-- A plain tree is read back from its text without blanks. -/
theorem read?_compact {j : Json} (plain : Plain maxLevels j) : read? j.compact = some j := by
  rw [read?_compact_eq plain.levels_le, plain.reread_eq]

/-- A plain tree is read back from its text with one item a line. -/
theorem read?_pretty {j : Json} (plain : Plain maxLevels j) : read? j.pretty = some j := by
  simp only [read?, pretty, String.toList_ofList, Token.scan?_prettyChars, Option.bind_some,
    ofTokens?_tokens plain.levels_le, plain.reread_eq]

end Footprint.Json
