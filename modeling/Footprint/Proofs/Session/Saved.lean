import Footprint.Boundary
import Footprint.Proofs.Decimal.Double
import Footprint.Proofs.Session.RoundTrip

/-!
Saved sessions can be opened again.

A constant is written as a number and comes back from the text of that number. This is lossy, but
fails only at the end of the range: from `2 ^ 96 - 2 ^ 42` on a constant is written as `2 ^ 96`,
which no decimal equals (`Decimal.isSome_ofJson?_reread`). Nothing else in a session can be refused,
as long as the allocation leaves a level of containers for the session around it.

* `Session.isSome_ofJson?_iff`: which sessions are read back, in whatever order their members
  stand.
* `Boundary.sessionToSave_opens`: a session that the host is given to save can be opened again if
  and only if its constants fit.
-/

namespace Footprint

open Json (Carries)

/-! ### Constants -/

namespace Decimal

/-- The double `2 ^ 96` is read from its text as a number that no decimal equals. -/
theorem ofJson?_reread_limit :
    ∀ turn, ofJson? (Json.float (limit.negateIf turn)).reread = none := by
  decide +kernel

/-- A decimal comes back from its text if it is below the limit, and only then. -/
theorem isSome_ofJson?_reread (d : Decimal) : (ofJson? d.toJson.reread).isSome = true ↔ d.Fits := by
  by_cases whole : d.IsInt64
  · obtain ⟨read, found, -⟩ := exists_carried Json.carries_reread whole
    have fits : d.Fits := by
      by_contra large
      obtain ⟨i, isInt⟩ := isInt64_iff.mp whole
      rw [toInt64?_of_not_fits large] at isInt
      cases isInt
    simp only [found, Option.isSome_some, fits]
  · rw [toJson_of_not_isInt64 whole]
    constructor
    · intro found
      by_contra large
      obtain ⟨turn, same⟩ := toDouble_of_not_fits large
      rw [same, ofJson?_reread_limit] at found
      cases found
    · intro fits
      obtain ⟨y, text, below⟩ := d.toDouble.exists_reread
      rw [Json.reread, text]
      exact ofDouble?_isSome (below (toDouble_le fits))

theorem sorted_toJson (d : Decimal) : d.toJson.sorted = d.toJson := by
  unfold toJson
  split <;> rfl

end Decimal

/-! ### Factors and rules -/

section Constants

variable {f : Json → Json}

theorem EmissionFactor.isSome_carried_iff {g : EmissionFactor} :
    (g.carried f).isSome = true ↔ ∀ q, g = .constant (some q) →
      (Decimal.ofJson? (f q.value.toJson)).isSome = true := by
  cases g with
  | constant value =>
    simp [carried, Json.isSome_mapM_option_iff, Quantity.carried]
  | external catalogId dim => simp [carried]

theorem Rule.isSome_carried_iff {r : Rule} :
    (r.carried f).isSome = true ↔ ∀ q, r.factor = some (.constant (some q)) →
      (Decimal.ofJson? (f q.value.toJson)).isSome = true := by
  have factor : (r.carried f).isSome = (r.factor.mapM (EmissionFactor.carried f)).isSome := by
    cases r <;> exact Option.isSome_map
  rw [factor, Json.isSome_mapM_option_iff]
  constructor
  · intro each q chosen
    exact EmissionFactor.isSome_carried_iff.mp (each _ chosen) q rfl
  · rintro each _ chosen
    refine EmissionFactor.isSome_carried_iff.mpr ?_
    rintro q rfl
    exact each q chosen

end Constants

/-! ### Sessions -/

namespace Session

/-- All constants are below the limit of what comes back from a text. -/
def ConstantsFit (s : Session) : Prop :=
  ∀ r ∈ s.rules, ∀ q, r.factor = some (.constant (some q)) → q.value.Fits

/-- The text is that of a session. -/
def Opens (text : String) : Prop := ∃ s, parse text = .ok s

theorem opens_iff {text : String} :
    Opens text ↔ ((Json.read? text).bind ofJson?).isSome = true := by
  unfold Opens parse
  cases (Json.read? text).bind ofJson? <;> simp

/-- A session is read back if its constants fit, in whatever order its members stand. -/
theorem isSome_ofJson?_iff {f : Json → Json} (carries : Carries f)
    (decimals : ∀ d : Decimal, f d.toJson = d.toJson.reread) (s : Session) :
    (ofJson? (f s.toJson)).isSome = true ↔ s.ConstantsFit := by
  have allocation : ∃ v, Json.Value.ofJson? (f s.allocation.tree) = some v :=
    ⟨_, dif_pos (carries.readable s.allocation.readable)⟩
  obtain ⟨v, found⟩ := allocation
  have rules : (ofJson? (f s.toJson)).isSome = (s.rules.mapM (Rule.carried f)).isSome := by
    rw [ofJson?_carried carries, found]
    cases s.rules.mapM (Rule.carried f) <;> rfl
  simp only [rules, Json.isSome_mapM_iff, Rule.isSome_carried_iff, decimals,
    Decimal.isSome_ofJson?_reread, ConstantsFit]

/-- A session has room in its text for an allocation of 126 levels. -/
theorem levels_toJson_le {s : Session} (room : s.allocation.tree.levels ≤ 126) :
    s.toJson.levels ≤ Json.maxLevels := by
  have allocation := Json.written_of_readable s.allocation.readable room
  exact (written_toJson (fun _ _ _ => trivial) allocation).levels_le

theorem opens_compact_iff {j : Json} (room : j.levels ≤ Json.maxLevels) :
    Opens j.compact ↔ (ofJson? j.reread).isSome = true := by
  rw [opens_iff, Json.read?_compact_eq room, Option.bind_some]

theorem opens_text_iff {s : Session} (room : s.allocation.tree.levels ≤ 126) :
    Opens s.text ↔ s.ConstantsFit := by
  rw [text, opens_compact_iff (levels_toJson_le room)]
  exact isSome_ofJson?_iff Json.carries_reread (fun _ => rfl) s

/-- The same holds of the text whose members are sorted by name. -/
theorem opens_sorted_iff {s : Session} (room : s.allocation.tree.levels ≤ 126) :
    Opens s.toJson.sorted.compact ↔ s.ConstantsFit := by
  rw [opens_compact_iff ((Json.levels_sorted_le _).trans (levels_toJson_le room))]
  refine isSome_ofJson?_iff (Json.carries_sorted.comp Json.carries_reread) (fun d => ?_) s
  rw [d.sorted_toJson]

end Session

/-! ### Answers to the host -/

namespace Boundary

/-- The session that the host is given to save, or the first failure. -/
def savedSession (bindings rules allocation : String) : Except Error Session := do
  let bindings ← argument (Json.list? Binding.ofJson?) bindings
  let rules ← argument (Json.list? Rule.ofJson?) rules
  let allocation ← optionalArgument Json.Value.ofJson? allocation
  return Session.snapshot bindings rules (allocation.getD .null)

theorem sessionToSave_eq (bindings rules allocation : String) :
    sessionToSave bindings rules allocation =
      respond ((savedSession bindings rules allocation).map Session.toJson) := by
  unfold sessionToSave savedSession
  cases argument (Json.list? Binding.ofJson?) bindings with
  | error e => rfl
  | ok bindings =>
    cases argument (Json.list? Rule.ofJson?) rules with
    | error e => rfl
    | ok rules => cases optionalArgument Json.Value.ofJson? allocation <;> rfl

theorem savedSession_of_arguments {bindings rules allocation : String} {bs : Bindings}
    {rs : List Rule} {v : Option Json.Value}
    (first : argument (Json.list? Binding.ofJson?) bindings = .ok bs)
    (second : argument (Json.list? Rule.ofJson?) rules = .ok rs)
    (third : optionalArgument Json.Value.ofJson? allocation = .ok v) :
    savedSession bindings rules allocation = .ok (Session.snapshot bs rs (v.getD .null)) := by
  rw [savedSession, first, second, third]
  rfl

theorem sessionToSave_of_savedSession {bindings rules allocation : String} {s : Session}
    (saved : savedSession bindings rules allocation = .ok s) :
    sessionToSave bindings rules allocation = respond (.ok s.toJson) := by
  rw [sessionToSave_eq, saved]
  rfl

/-- An argument that is written without blanks is read from its tokens. -/
theorem argument_compact {α : Type} {value? : Json → Option α} {j : Json} {a : α}
    (found : (Json.ofTokens? j.tokens).bind value? = some a) :
    argument value? j.compact = .ok a := by
  rw [argument, Json.read?_compact_tokens, found]

theorem optionalArgument_empty {α : Type} (value? : Json → Option α) :
    optionalArgument value? "" = .ok none := if_pos (.inl (by decide))

/-- An answer determines the text of its value. -/
theorem compact_eq_of_respond_eq {v w : Json} (same : respond (.ok v) = respond (.ok w)) :
    v.sorted.compact = w.sorted.compact := by
  have chars := String.ofList_injective same
  simp only [answer, Json.compactChars, Json.compactMembers, List.cons.injEq, true_and,
    List.append_cancel_right_eq, List.append_cancel_left_eq] at chars
  rw [Json.compact, Json.compact, chars]

/-- A failure is not answered like a success. -/
theorem respond_error_ne (e : Error) (value : Json) :
    respond (.error e) ≠ respond (.ok value) := by
  intro same
  have chars := String.ofList_injective same
  simp only [answer, Json.compactChars, Json.compactMembers, Json.writeScalar, Json.writeString,
    List.append_assoc, List.cons_append, List.append_cancel_left_eq, List.cons.injEq] at chars
  -- A message is in quotes, and a missing one is `null`.
  exact absurd chars.2.2.2.2.1 (by decide)

/-- A session that the host is given to save is opened again, from the answer and from its own text,
if its constants are below the limit, and only then. Its allocation has to leave a level for the
session. -/
theorem sessionToSave_opens {bindings rules allocation : String} {value : Json}
    (answered : sessionToSave bindings rules allocation = respond (.ok value)) :
    ∃ s, savedSession bindings rules allocation = .ok s ∧
      (s.allocation.tree.levels ≤ 126 →
        (Session.Opens value.sorted.compact ↔ s.ConstantsFit) ∧
          (Session.Opens s.text ↔ s.ConstantsFit)) := by
  rw [sessionToSave_eq] at answered
  cases saved : savedSession bindings rules allocation with
  | error e =>
    rw [saved] at answered
    exact absurd answered (respond_error_ne e value)
  | ok s =>
    rw [saved] at answered
    refine ⟨s, rfl, fun room => ⟨?_, Session.opens_text_iff room⟩⟩
    rw [← compact_eq_of_respond_eq answered]
    exact Session.opens_sorted_iff room

/-- The document of a rule with a constant. -/
def constantRules (constant : String) : Json :=
  .array [.object [("type", .string "EventEmissionRule"), ("activity", .string "ship"),
    ("factor", .object [("type", .string "local"),
      ("value", .object [("value", .string constant)])])]]

/-- A rule with a constant. -/
def constantRule (constant : Decimal) : Rule :=
  .event { activity := some "ship", factor := some (.constant (some ⟨constant, none⟩)) }

/-- The session with this rule. -/
def constantSession (constant : Decimal) : Session := .snapshot [] [constantRule constant] .null

theorem savedSession_constantRules {text : String} {constant : Decimal}
    (found : (Json.ofTokens? (constantRules text).tokens).bind (Json.list? Rule.ofJson?) =
      some [constantRule constant]) :
    savedSession (Json.array []).compact (constantRules text).compact "" =
      .ok (constantSession constant) :=
  savedSession_of_arguments (v := none) (argument_compact rfl) (argument_compact found)
    (optionalArgument_empty _)

/-- The constant 2.68. -/
def diesel : Decimal := .ofParts false 268 2 (by decide)

theorem constantsFit_diesel : (constantSession diesel).ConstantsFit := by
  intro r mem q chosen
  have kept : r ∈ Rule.complete [constantRule diesel] := mem
  unfold Rule.complete at kept
  obtain rfl := List.mem_singleton.mp (List.mem_of_mem_filter kept)
  cases chosen
  decide

theorem diesel_sessionToSave_opens :
    sessionToSave (Json.array []).compact (constantRules "2.68").compact "" =
        respond (.ok (constantSession diesel).toJson) ∧
      (constantSession diesel).allocation.tree.levels ≤ 126 ∧
      (constantSession diesel).ConstantsFit ∧
      Session.Opens (constantSession diesel).toJson.sorted.compact ∧
      Session.Opens (constantSession diesel).text := by
  have saved : savedSession (Json.array []).compact (constantRules "2.68").compact "" =
      .ok (constantSession diesel) :=
    savedSession_constantRules (by decide +kernel)
  have answered := sessionToSave_of_savedSession saved
  obtain ⟨s, same, opens⟩ := sessionToSave_opens answered
  rw [saved] at same
  cases same
  have room : (constantSession diesel).allocation.tree.levels ≤ 126 := Nat.zero_le _
  obtain ⟨fromAnswer, fromText⟩ := opens room
  exact ⟨answered, room, constantsFit_diesel, fromAnswer.mpr constantsFit_diesel,
    fromText.mpr constantsFit_diesel⟩

/-! ### At the limits -/

/-- An array in `n` others. -/
def nested : Nat → Json
  | 0 => .array []
  | n + 1 => .array [nested n]

theorem reread_nested (n : Nat) : (nested n).reread = nested n := by
  induction n with
  | zero => rfl
  | succ n ih => rw [nested, Json.reread, Json.rereadItems, Json.rereadItems, ih]

/-- A free value with as many levels as a document may have. -/
def deepValue : Json.Value := ⟨nested 126, by decide +kernel, by decide +kernel⟩

theorem optionalArgument_nested :
    optionalArgument Json.Value.ofJson? (nested 126).compact = .ok (some deepValue) := by
  have notBlank : ¬ (Text.isAllBlank (nested 126).compact = true ∨
      Text.trim (nested 126).compact = "null") := by
    rw [Text.isAllBlank, Text.trim, Json.compact, String.toList_ofList]
    rintro (blank | null)
    · exact absurd blank (by decide +kernel)
    · have chars := congrArg String.toList null
      rw [String.toList_ofList] at chars
      exact absurd chars (by decide +kernel)
  have found : (Json.ofTokens? (nested 126).tokens).bind Json.Value.ofJson? = some deepValue := by
    rw [Json.ofTokens?_tokens (by decide +kernel), Option.bind_some, reread_nested]
    exact deepValue.ofJson?_tree
  rw [optionalArgument, if_neg notBlank, argument_compact found]
  rfl

/-- The largest decimal. -/
def largestConstant : Decimal := .ofParts false (2 ^ 96 - 1) 0 (by decide)

theorem not_constantsFit_largestConstant : ¬ (constantSession largestConstant).ConstantsFit := by
  intro fit
  have fits := fit (constantRule largestConstant) (by decide +kernel) _ rfl
  exact absurd fits (by decide +kernel)

/-- Neither the largest decimal nor an allocation that fills all levels comes back. -/
theorem sessionToSave_not_opens :
    (sessionToSave (Json.array []).compact
          (constantRules "79228162514264337593543950335").compact "" =
        respond (.ok (constantSession largestConstant).toJson) ∧
      ¬ Session.Opens (constantSession largestConstant).toJson.sorted.compact) ∧
    (sessionToSave (Json.array []).compact (Json.array []).compact (nested 126).compact =
        respond (.ok (Session.snapshot [] [] deepValue).toJson) ∧
      ¬ Session.Opens (Session.snapshot [] [] deepValue).toJson.sorted.compact) := by
  have large : savedSession (Json.array []).compact
      (constantRules "79228162514264337593543950335").compact "" =
        .ok (constantSession largestConstant) :=
    savedSession_constantRules (by decide +kernel)
  have deep : savedSession (Json.array []).compact (Json.array []).compact (nested 126).compact =
      .ok (Session.snapshot [] [] deepValue) :=
    savedSession_of_arguments (v := some deepValue) (argument_compact rfl) (argument_compact rfl)
      optionalArgument_nested
  have refused : ((Json.ofTokens? (Session.snapshot [] [] deepValue).toJson.sorted.tokens).bind
      Session.ofJson?).isSome = false := by
    decide +kernel
  refine ⟨⟨sessionToSave_of_savedSession large, ?_⟩, sessionToSave_of_savedSession deep, ?_⟩
  · rw [Session.opens_sorted_iff (Nat.zero_le _)]
    exact not_constantsFit_largestConstant
  · rw [Session.opens_iff, Json.read?_compact_tokens, refused]
    exact Bool.false_ne_true

end Boundary

end Footprint
