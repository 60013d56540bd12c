import Footprint.Proofs.Boundary.Argument
import Footprint.Proofs.Session.Names

/-!
Calls over the boundary.

A call hands texts over and is answered by a text. What it means is said without either: the values
that its arguments hold (`Parameter.Reads`), and what these values give when the library is used
directly (`Call.Gives`). The answer says the same, up to the order of members, as `reordered_sorted`
makes sure.

* `Call.agrees`: every call is answered, whatever its arguments say, and as the library answers.
-/

namespace Footprint.Boundary

open Json (Reordered)

/-! ### Answers -/

/-- What an answer says. -/
inductive Answer where
  /-- The call succeeds with a value. -/
  | success (value : Json)
  /-- The call fails with a message. -/
  | failure (message : String)

/-- The document of an answer: an object of three members. -/
def Answer.toJson : Answer → Json
  | .success value => .object [("error", .null), ("success", .bool true), ("value", value)]
  | .failure message =>
    .object [("error", .string message), ("success", .bool false), ("value", .null)]

/-- The text is cut into the tokens of the tree. -/
def WrittenAs (j : Json) (text : String) : Prop :=
  Json.Token.scan? text.toList = some j.tokens

theorem writtenAs_compact (j : Json) : WrittenAs j j.compact := by
  rw [WrittenAs, Json.compact, String.toList_ofList]
  exact Json.Token.scan?_compactChars j

theorem respond_ok (value : Json) :
    WrittenAs (Answer.success value.sorted).toJson (respond (.ok value)) :=
  writtenAs_compact _

theorem respond_error (e : Error) :
    WrittenAs (Answer.failure e.message).toJson (respond (.error e)) :=
  writtenAs_compact _

/-- A failure does not say what a success says. -/
theorem not_writtenAs_success {message text : String} {value : Json}
    (failed : WrittenAs (Answer.failure message).toJson text) :
    ¬ WrittenAs (Answer.success value).toJson text := by
  intro succeeded
  have same := Option.some.inj (failed.symm.trans succeeded)
  -- The member `error` stands first: a text on one side, `null` on the other.
  injection same with _ same
  injection same with _ same
  injection same with _ same
  injection same with same
  cases same

/-! ### Calls -/

/-- A call with the texts of its arguments. -/
inductive Call where
  | showQuantity (quantity options : String)
  | showRange (first last options : String)
  | matchingUnitTypes (dim : String)
  | eligibleUnitTypes (rule bindings : String)
  | ruleIsEmpty (rule : String)
  | sessionToSave (bindings rules allocation : String)

/-- What the library gives for a call. -/
inductive Result where
  | text (shown : String)
  | unitTypes (names : List String)
  | eligibility (e : Eligibility)
  | flag (holds : Bool)
  | session (s : Session)

/-- The tree is the document of the result; that of a session is what its text says. -/
inductive Result.Document : Result → Json → Prop where
  | text (shown : String) : Document (.text shown) (.string shown)
  | unitTypes (names : List String) : Document (.unitTypes names) (Json.ofList .string names)
  | eligibility (e : Eligibility) : Document (.eligibility e) e.toJson
  | flag (holds : Bool) : Document (.flag holds) (.bool holds)
  | session {s : Session} {j : Json} : WrittenAs j s.text → Document (.session s) j

/-- The document of a result. -/
def Result.toJson : Result → Json
  | .text shown => .string shown
  | .unitTypes names => Json.ofList .string names
  | .eligibility e => e.toJson
  | .flag holds => .bool holds
  | .session s => s.toJson

theorem Result.document_toJson (r : Result) : r.Document r.toJson := by
  cases r with
  | text shown => exact .text shown
  | unitTypes names => exact .unitTypes names
  | eligibility e => exact .eligibility e
  | flag holds => exact .flag holds
  | session s => exact .session (writtenAs_compact s.toJson)

theorem Result.namesOnce_toJson (r : Result) : Json.NamesOnce r.toJson := by
  cases r with
  | text | flag => exact .single rfl
  | unitTypes names => exact Json.namesOnce_ofList fun _ _ => .single rfl
  | eligibility e => exact e.namesOnce_toJson
  | session s => exact s.namesOnce_toJson

namespace Call

open Parameter

/-- The text that the host is given. -/
def returned : Call → String
  | .showQuantity quantity options => Boundary.showQuantity quantity options
  | .showRange first last options => Boundary.showRange first last options
  | .matchingUnitTypes dim => Boundary.matchingUnitTypes dim
  | .eligibleUnitTypes rule bindings => Boundary.eligibleUnitTypes rule bindings
  | .ruleIsEmpty rule => Boundary.ruleIsEmpty rule
  | .sessionToSave bindings rules allocation => Boundary.sessionToSave bindings rules allocation

/-- Every argument holds a value. -/
def Readable : Call → Prop
  | .showQuantity quantity options =>
    (optional Quantity.ofJson?).Readable quantity ∧
      (defaulted QuantityStyle.ofJson? {}).Readable options
  | .showRange first last options =>
    (mandatory Quantity.ofJson?).Readable first ∧ (mandatory Quantity.ofJson?).Readable last ∧
      (defaulted RangeStyle.ofJson? {}).Readable options
  | .matchingUnitTypes dim => (mandatory Dimension.ofJson?).Readable dim
  | .eligibleUnitTypes rule bindings =>
    (mandatory Rule.ofJson?).Readable rule ∧
      (mandatory (Json.list? Binding.ofJson?)).Readable bindings
  | .ruleIsEmpty rule => (mandatory Rule.ofJson?).Readable rule
  | .sessionToSave bindings rules allocation =>
    (mandatory (Json.list? Binding.ofJson?)).Readable bindings ∧
      (mandatory (Json.list? Rule.ofJson?)).Readable rules ∧
      (defaulted Json.Value.ofJson? .null).Readable allocation

/-- What the library gives for the values that the arguments hold. -/
inductive Gives : Call → Except Error Result → Prop where
  | showQuantity {quantity options : String} {q : Option Quantity} {style : QuantityStyle} :
      (optional Quantity.ofJson?).Reads quantity q →
      (defaulted QuantityStyle.ofJson? {}).Reads options style →
      Gives (.showQuantity quantity options) (.ok (.text (Display.quantity q style)))
  | showRange {first last options : String} {a b : Quantity} {style : RangeStyle} :
      (mandatory Quantity.ofJson?).Reads first a → (mandatory Quantity.ofJson?).Reads last b →
      (defaulted RangeStyle.ofJson? {}).Reads options style →
      Gives (.showRange first last options) ((Display.range a b style).map .text)
  | matchingUnitTypes {dim : String} {d : Dimension} : (mandatory Dimension.ofJson?).Reads dim d →
      Gives (.matchingUnitTypes dim) (.ok (.unitTypes (Registry.default.matching d)))
  | eligibleUnitTypes {rule bindings : String} {r : Rule} {bs : Bindings} :
      (mandatory Rule.ofJson?).Reads rule r →
      (mandatory (Json.list? Binding.ofJson?)).Reads bindings bs →
      Gives (.eligibleUnitTypes rule bindings)
        ((r.eligibility bs Registry.default).map .eligibility)
  | ruleIsEmpty {rule : String} {r : Rule} : (mandatory Rule.ofJson?).Reads rule r →
      Gives (.ruleIsEmpty rule) (.ok (.flag r.isEmpty))
  | sessionToSave {bindings rules allocation : String} {bs : Bindings} {rs : List Rule}
      {v : Json.Value} : (mandatory (Json.list? Binding.ofJson?)).Reads bindings bs →
      (mandatory (Json.list? Rule.ofJson?)).Reads rules rs →
      (defaulted Json.Value.ofJson? .null).Reads allocation v →
      Gives (.sessionToSave bindings rules allocation) (.ok (.session (.snapshot bs rs v)))

variable {c : Call}

/-- The library has a result exactly for readable arguments. -/
theorem readable_iff : c.Readable ↔ ∃ result, c.Gives result := by
  constructor
  · intro readable
    cases c with
    | showQuantity =>
      obtain ⟨⟨q, first⟩, ⟨style, second⟩⟩ := readable
      exact ⟨_, .showQuantity first second⟩
    | showRange =>
      obtain ⟨⟨a, first⟩, ⟨b, second⟩, ⟨style, third⟩⟩ := readable
      exact ⟨_, .showRange first second third⟩
    | matchingUnitTypes =>
      obtain ⟨d, first⟩ := readable
      exact ⟨_, .matchingUnitTypes first⟩
    | eligibleUnitTypes =>
      obtain ⟨⟨r, first⟩, ⟨bs, second⟩⟩ := readable
      exact ⟨_, .eligibleUnitTypes first second⟩
    | ruleIsEmpty =>
      obtain ⟨r, first⟩ := readable
      exact ⟨_, .ruleIsEmpty first⟩
    | sessionToSave =>
      obtain ⟨⟨bs, first⟩, ⟨rs, second⟩, ⟨v, third⟩⟩ := readable
      exact ⟨_, .sessionToSave first second third⟩
  · rintro ⟨result, gives⟩
    cases gives with
    | showQuantity first second => exact ⟨⟨_, first⟩, ⟨_, second⟩⟩
    | showRange first second third => exact ⟨⟨_, first⟩, ⟨_, second⟩, ⟨_, third⟩⟩
    | matchingUnitTypes first => exact ⟨_, first⟩
    | eligibleUnitTypes first second => exact ⟨⟨_, first⟩, ⟨_, second⟩⟩
    | ruleIsEmpty first => exact ⟨_, first⟩
    | sessionToSave first second third => exact ⟨⟨_, first⟩, ⟨_, second⟩, ⟨_, third⟩⟩

/-- What is read from the arguments is handed to the library. -/
theorem returned_of_gives {result : Except Error Result} (gives : c.Gives result) :
    c.returned = respond (result.map Result.toJson) := by
  cases gives with
  | showQuantity first second =>
    obtain ⟨style, read, rfl⟩ := exists_of_reads_defaulted second
    rw [returned, Boundary.showQuantity, (computes_optional _).ok.mp first, read]
    rfl
  | @showRange _ _ _ a b _ first second third =>
    obtain ⟨style, read, rfl⟩ := exists_of_reads_defaulted third
    rw [returned, Boundary.showRange, (computes_mandatory _).ok.mp first,
      (computes_mandatory _).ok.mp second, read]
    show respond (Display.range a b (style.getD {}) >>= fun shown => .ok (.string shown)) = _
    cases Display.range a b (style.getD {}) <;> rfl
  | matchingUnitTypes first =>
    rw [returned, Boundary.matchingUnitTypes, (computes_mandatory _).ok.mp first]
    rfl
  | @eligibleUnitTypes _ _ r bs first second =>
    rw [returned, Boundary.eligibleUnitTypes, (computes_mandatory _).ok.mp first,
      (computes_mandatory _).ok.mp second]
    show respond (r.eligibility bs Registry.default >>= fun e => .ok e.toJson) = _
    cases r.eligibility bs Registry.default <;> rfl
  | ruleIsEmpty first =>
    rw [returned, Boundary.ruleIsEmpty, (computes_mandatory _).ok.mp first]
    rfl
  | sessionToSave first second third =>
    obtain ⟨v, read, rfl⟩ := exists_of_reads_defaulted third
    rw [returned, Boundary.sessionToSave, (computes_mandatory _).ok.mp first,
      (computes_mandatory _).ok.mp second, read]
    rfl

/-- An argument that holds no value is answered with a failure to read. -/
theorem returned_of_not_readable (unreadable : ¬ c.Readable) :
    c.returned = respond (.error .document) := by
  cases c with
  | showQuantity =>
    refine congrArg respond ?_
    refine (computes_optional _).bind_eq_error fun q first => ?_
    rw [optionalArgument_of_not_readable fun second => unreadable ⟨⟨q, first⟩, second⟩]
    rfl
  | showRange =>
    refine congrArg respond ?_
    refine (computes_mandatory _).bind_eq_error fun a first => ?_
    refine (computes_mandatory _).bind_eq_error fun b second => ?_
    rw [optionalArgument_of_not_readable fun third => unreadable ⟨⟨a, first⟩, ⟨b, second⟩, third⟩]
    rfl
  | matchingUnitTypes =>
    refine congrArg respond ?_
    exact (computes_mandatory _).bind_eq_error fun d first => absurd ⟨d, first⟩ unreadable
  | eligibleUnitTypes =>
    refine congrArg respond ?_
    refine (computes_mandatory _).bind_eq_error fun r first => ?_
    exact (computes_mandatory _).bind_eq_error fun bs second =>
      absurd ⟨⟨r, first⟩, ⟨bs, second⟩⟩ unreadable
  | ruleIsEmpty =>
    refine congrArg respond ?_
    exact (computes_mandatory _).bind_eq_error fun r first => absurd ⟨r, first⟩ unreadable
  | sessionToSave =>
    refine congrArg respond ?_
    refine (computes_mandatory _).bind_eq_error fun bs first => ?_
    refine (computes_mandatory _).bind_eq_error fun rs second => ?_
    rw [optionalArgument_of_not_readable fun third => unreadable ⟨⟨bs, first⟩, ⟨rs, second⟩, third⟩]
    rfl

/-- A call over the boundary agrees with the library. -/
structure Agrees (c : Call) : Prop where
  /-- The host is given an answer. -/
  answers : ∃ a : Answer, WrittenAs a.toJson c.returned
  /-- It is a success exactly if all arguments hold values and the library succeeds on them. -/
  succeeds : (∃ value, WrittenAs (Answer.success value).toJson c.returned) ↔
    c.Readable ∧ ∃ r, c.Gives (.ok r)
  /-- The value is the document of the result, up to the order of members. -/
  value : ∀ r, c.Gives (.ok r) → ∃ document value, r.Document document ∧
    Reordered document value ∧ WrittenAs (Answer.success value).toJson c.returned
  /-- A failure of the library is passed on. -/
  failure : ∀ e, c.Gives (.error e) → WrittenAs (Answer.failure e.message).toJson c.returned
  /-- So is a failure to read an argument. -/
  unreadable : ¬ c.Readable →
    WrittenAs (Answer.failure Error.document.message).toJson c.returned

theorem writtenAs_of_gives_error {e : Error} (gives : c.Gives (.error e)) :
    WrittenAs (Answer.failure e.message).toJson c.returned := by
  rw [returned_of_gives gives]
  exact respond_error e

theorem writtenAs_of_gives_ok {r : Result} (gives : c.Gives (.ok r)) :
    WrittenAs (Answer.success r.toJson.sorted).toJson c.returned := by
  rw [returned_of_gives gives]
  exact respond_ok r.toJson

theorem writtenAs_of_not_readable (unreadable : ¬ c.Readable) :
    WrittenAs (Answer.failure Error.document.message).toJson c.returned := by
  rw [returned_of_not_readable unreadable]
  exact respond_error .document

/-- Whatever its arguments say, a call is answered as the library answers. -/
theorem agrees (c : Call) : Agrees c where
  answers := by
    by_cases readable : c.Readable
    · obtain ⟨result, gives⟩ := readable_iff.mp readable
      cases result with
      | ok r => exact ⟨_, writtenAs_of_gives_ok gives⟩
      | error e => exact ⟨_, writtenAs_of_gives_error gives⟩
    · exact ⟨_, writtenAs_of_not_readable readable⟩
  succeeds := by
    constructor
    · rintro ⟨value, written⟩
      by_cases readable : c.Readable
      · obtain ⟨result, gives⟩ := readable_iff.mp readable
        cases result with
        | ok r => exact ⟨readable, r, gives⟩
        | error e =>
          exact absurd written (not_writtenAs_success (writtenAs_of_gives_error gives))
      · exact absurd written (not_writtenAs_success (writtenAs_of_not_readable readable))
    · rintro ⟨-, r, gives⟩
      exact ⟨_, writtenAs_of_gives_ok gives⟩
  value r gives :=
    ⟨r.toJson, r.toJson.sorted, r.document_toJson, Json.reordered_sorted r.namesOnce_toJson,
      writtenAs_of_gives_ok gives⟩
  failure _ gives := writtenAs_of_gives_error gives
  unreadable := writtenAs_of_not_readable

/-- A quantity and options that are left out: blanks around `null`, or nothing. -/
example : (showQuantity "\u00a0null\u3000" "").returned =
    "\x7b\"error\":null,\"success\":true,\"value\":\"-\"\x7d" := by
  decide +kernel

end Call

end Footprint.Boundary
