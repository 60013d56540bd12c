import Footprint.Proofs.Attribute.Lookup
import Footprint.Proofs.Decimal.Value
import Footprint.Proofs.Session.RoundTrip

/-!
Loading a saved session and saving it again.

Loading brings the bindings in line with the log, and saving drops the rules that lack a choice. A
portable session that binds no attribute twice and has complete rules only loses nothing on the
way: the same rules and allocation come back, and the bindings are those it had and one without
unit for each further numeric attribute of the log.

* `Session.reloaded_of_load`: such a session can be loaded, what is saved then is described by
  `Session.Reloaded`, and loading that with the same log gives it again.
-/

namespace Footprint

/-! ### Complete rules -/

theorem EmissionFactor.Same.isEmpty_eq {a b : EmissionFactor} (same : a.Same b) :
    a.isEmpty = b.isEmpty := by
  cases same with
  | constant values =>
    cases values with
    | none => rfl
    | some related =>
      simp only [isEmpty, Option.all_some, Quantity.isZero, related.value.isZero_eq]
  | external => rfl

theorem EmissionFactor.Same.isWhole {a b : EmissionFactor} (same : a.Same b) (whole : a.IsWhole) :
    b.IsWhole := by
  rintro q rfl
  cases same with
  | constant values =>
    cases values with
    | @some p _ related =>
      obtain ⟨i, found⟩ := Decimal.isInt64_iff.mp (whole p rfl)
      exact Decimal.isInt64_iff.mpr ⟨i, related.value.toInt64?_eq found⟩

theorem EmissionFactor.all_isEmpty_eq {f g : Option EmissionFactor}
    (same : Option.Rel EmissionFactor.Same f g) : f.all (·.isEmpty) = g.all (·.isEmpty) := by
  cases same with
  | none => rfl
  | some related => exact related.isEmpty_eq

namespace Rule

theorem Same.factor {a b : Rule} (same : a.Same b) :
    Option.Rel EmissionFactor.Same a.factor b.factor := by
  cases same with
  | event same => exact same.factor
  | relation same => exact same.factor

theorem Same.isEmpty_eq {a b : Rule} (same : a.Same b) : a.isEmpty = b.isEmpty := by
  have factor := EmissionFactor.all_isEmpty_eq same.factor
  cases same with
  | event same => simp only [isEmpty, activity, same.activity, factor]
  | relation same => simp only [isEmpty, activity, same.activity, same.objectType, factor]

theorem Same.isWhole {a b : Rule} (same : a.Same b) (whole : a.IsWhole) : b.IsWhole := by
  intro g chosen
  have related := same.factor
  rw [chosen] at related
  generalize given : a.factor = f at related
  cases related with
  | some related => exact related.isWhole (whole _ given)

theorem exists_same_of_mem {a b : List Rule} (same : List.Forall₂ Same a b) {r : Rule}
    (mem : r ∈ b) : ∃ q ∈ a, q.Same r := by
  induction same with
  | nil => cases mem
  | @cons q _ as _ related _ ih =>
    rcases List.mem_cons.mp mem with rfl | mem
    · exact ⟨q, List.mem_cons_self, related⟩
    · obtain ⟨p, memA, found⟩ := ih mem
      exact ⟨p, List.mem_cons_of_mem _ memA, found⟩

/-- Rules that are complete stay so. -/
theorem complete_of_same {a b : List Rule} (same : List.Forall₂ Same a b)
    (all : ∀ r ∈ a, r.isEmpty = false) : complete b = b := by
  refine List.filter_eq_self.mpr fun r mem => ?_
  obtain ⟨q, memA, related⟩ := exists_same_of_mem same mem
  rw [← related.isEmpty_eq, all q memA]
  rfl

end Rule

namespace Session

open Bindings (numericOf)

/-- Reading a written session changes its rules only. -/
theorem ofJson?_toJson_eq (s : Session) :
    ofJson? s.toJson = (Json.list? Rule.ofJson? (Json.ofList Rule.toJson s.rules)).map
      fun rules => { s with rules := rules } := by
  have carried := ofJson?_carried Json.carries_id s
  have list := Json.carries_id.list?_ofList Rule.ofJson? Rule.toJson s.rules
  rw [funext (Rule.ofJson?_carried Json.carries_id), id] at list
  rw [← list, id, id, Json.Value.ofJson?_tree] at carried
  rw [carried, Option.map_eq_bind]
  rfl

/-! ### Loading and saving -/

/-- The session that is saved right after loading. -/
def resaved (loaded : Session) : Session :=
  snapshot loaded.bindings loaded.rules loaded.allocation

/-- What a session becomes when it is loaded beside a log and saved again. -/
structure Reloaded (s : Session) (log : List Descriptor) (saved : Session) : Prop where
  /-- The rules are the same, in the same order. -/
  rules : List.Forall₂ Rule.Same s.rules saved.rules
  allocation : saved.allocation = s.allocation
  /-- Every binding stands once, with its unit. -/
  kept : ∀ b ∈ s.bindings, saved.bindings.count b = 1
  /-- The other bindings have no unit, and belong to numeric attributes of the log that were not
  bound. -/
  added : ∀ b ∈ saved.bindings, b ∉ s.bindings →
    b.unit = none ∧ b.subject ∈ numericOf log ∧ b.subject ∉ s.bindings.subjects
  /-- Each such attribute has one. -/
  covered : ∀ a ∈ numericOf log, a ∉ s.bindings.subjects →
    saved.bindings.count (.unbound a) = 1
  /-- The distinct numeric attributes of the log come first, in its order, and the other bindings
  follow in theirs. -/
  order : ∃ listed : Bindings, listed.subjects = (numericOf log).eraseDups ∧
    saved.bindings = listed ++ s.bindings.filter fun b => b.subject ∉ numericOf log

variable {s : Session} {log : List Descriptor}

theorem load_of_parse {text : String} {read : Session} (parsed : parse text = .ok read) :
    load text log = .ok { read with bindings := read.bindings.reconcile log } := by
  rw [load, parsed]
  rfl

/-- A binding that is found under its attribute stands in the list once. -/
theorem count_eq_one_of_find? {bs : Bindings} (distinct : bs.Distinct) {a : Attribute}
    {b : Binding} (found : bs.find? a = some b) : bs.count b = 1 :=
  List.count_eq_one_of_mem (List.Nodup.of_map _ distinct) (List.mem_of_find?_eq_some found)

theorem reloaded_of_reconcile {saved : Session} (distinct : s.bindings.Distinct)
    (bindings : saved.bindings = s.bindings.reconcile log)
    (rules : List.Forall₂ Rule.Same s.rules saved.rules)
    (allocation : saved.allocation = s.allocation) : Reloaded s log saved := by
  have once : saved.bindings.Distinct := bindings ▸ Bindings.distinct_reconcile s.bindings log
  refine ⟨rules, allocation, ?_, ?_, ?_, ?_⟩
  · intro b mem
    have found := Bindings.find?_of_mem distinct mem
    refine count_eq_one_of_find? once (a := b.subject) ?_
    rw [bindings, Bindings.find?_reconcile, found, Option.getD_some, ite_self]
  · intro b mem fresh
    have found := Bindings.find?_of_mem once mem
    rw [bindings, Bindings.find?_reconcile] at found
    have unbound : s.bindings.find? b.subject = none := by
      cases before : s.bindings.find? b.subject with
      | none => rfl
      | some c =>
        rw [before, Option.getD_some, ite_self] at found
        cases found
        exact absurd (List.mem_of_find?_eq_some before) fresh
    rw [unbound] at found
    split at found
    case isTrue inLog =>
      have same : b = .unbound b.subject := (Option.some.inj found).symm
      exact ⟨by rw [same]; rfl, inLog, Bindings.find?_eq_none_iff.mp unbound⟩
    case isFalse => cases found
  · intro a inLog unbound
    refine count_eq_one_of_find? once (a := a) ?_
    rw [bindings, Bindings.find?_reconcile, if_pos inLog, Bindings.find?_eq_none_iff.mpr unbound]
    rfl
  · refine ⟨s.bindings.listed log, ?_, ?_⟩
    · rw [Bindings.subjects_listed, Bindings.subjects_ofLog]
    · rw [bindings, Bindings.reconcile_eq, Bindings.dedup_of_distinct distinct]
      rfl

/-- A portable session without repeated bindings and with complete rules only is loaded; what is
saved then has lost nothing, and loading it with the same log gives it again. -/
theorem reloaded_of_load (s : Session) (portable : s.Portable) (distinct : s.bindings.Distinct)
    (complete : ∀ r ∈ s.rules, r.isEmpty = false) (log : List Descriptor) :
    ∃ loaded, load s.text log = .ok loaded ∧ Reloaded s log loaded.resaved ∧
      load loaded.resaved.text log = .ok loaded.resaved := by
  obtain ⟨read, found, same⟩ := ofJson?_toJson portable
  have parsed := parse_of_read? (Json.read?_compact (plain_toJson portable)) found
  refine ⟨_, load_of_parse parsed, ?_⟩
  set saved := resaved { read with bindings := read.bindings.reconcile log } with saved_eq
  have bindings : saved.bindings = s.bindings.reconcile log := by
    rw [same.bindings]
    rfl
  have rules : saved.rules = read.rules := Rule.complete_of_same same.rules complete
  have allocation : saved.allocation = s.allocation := same.allocation.symm
  refine ⟨reloaded_of_reconcile distinct bindings (rules ▸ same.rules) allocation, ?_⟩
  have whole : ∀ r ∈ saved.rules, r.IsWhole := by
    rw [rules]
    intro r mem
    obtain ⟨q, memS, related⟩ := Rule.exists_same_of_mem same.rules mem
    exact related.isWhole (portable.rules q memS)
  have again : saved.Portable := by
    refine ⟨fun r mem q chosen => whole r mem _ chosen q rfl, ?_⟩
    rw [allocation]
    exact portable.allocation
  -- The rules are written as before, so they are read as before.
  have written : Json.ofList Rule.toJson saved.rules = Json.ofList Rule.toJson s.rules := by
    rw [rules, Json.ofList, Json.ofList, Rule.map_toJson_eq same.rules portable.rules]
  have foundAgain : ofJson? saved.toJson = some saved := by
    rw [ofJson?_toJson_eq] at found ⊢
    obtain ⟨readRules, list, rfl⟩ := Option.map_eq_some_iff.mp found
    have unchanged : readRules = saved.rules := rules.symm
    rw [written, list, Option.map_some, unchanged]
  have parsedAgain := parse_of_read? (Json.read?_compact (plain_toJson again)) foundAgain
  rw [text, load_of_parse parsedAgain, bindings, Bindings.reconcile_reconcile, ← bindings]

/-- A session with a constant of two places and a factor of the catalog. -/
def shipping : Session where
  bindings := [⟨.event "ship" "weight", some ⟨"kg", "kilogram", .base Dimension.mass⟩⟩,
    ⟨.object "truck" true "capacity", none⟩]
  rules := [.event { activity := some "ship",
                     factor := some (.constant (some ⟨.ofParts true 50 1 (by decide), none⟩)),
                     multipliers := [.event "ship" "weight"] },
    .relation { activity := some "ship", objectType := some "truck",
                factor := some (.external (some "f1") none) }]
  allocation := ⟨.object [("mode", .string "equal")], rfl, by decide⟩

/-- A log that lists an attribute twice, and one that is not numeric. -/
def shippingLog : List Descriptor :=
  [⟨.event "ship" "distance", true⟩, ⟨.event "ship" "weight", true⟩,
    ⟨.object "truck" true "capacity", false⟩, ⟨.event "ship" "distance", true⟩]

theorem shipping_reloaded :
    shipping.Portable ∧ shipping.bindings.Distinct ∧ (∀ r ∈ shipping.rules, r.isEmpty = false) ∧
      ∃ loaded, load shipping.text shippingLog = .ok loaded ∧
        Reloaded shipping shippingLog loaded.resaved ∧
        load loaded.resaved.text shippingLog = .ok loaded.resaved := by
  have portable : shipping.Portable := by
    refine ⟨fun r mem q chosen => ?_, ?_⟩
    · simp only [shipping, List.mem_cons, List.not_mem_nil, or_false] at mem
      rcases mem with rfl | rfl
      · cases chosen
        exact ⟨-5, rfl, by decide, by decide⟩
      · cases chosen
    · refine .object fun e mem => ?_
      cases List.mem_singleton.mp mem
      exact .string
  have distinct : shipping.bindings.Distinct := by
    unfold Bindings.Distinct
    decide
  have complete : ∀ r ∈ shipping.rules, r.isEmpty = false := by decide
  exact ⟨portable, distinct, complete,
    reloaded_of_load shipping portable distinct complete shippingLog⟩

end Session

end Footprint
