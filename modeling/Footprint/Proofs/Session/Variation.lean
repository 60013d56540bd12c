import Footprint.Proofs.Json.Variation
import Footprint.Proofs.Session.Names

/-!
Documents of one session.

A session, and every record in it, may list its members in any order and hold members that it does
not declare: the member that tells the kind of a rule, a factor or an attribute need not come
first, and a binding holds the members of its attribute beside the unit. `Session.variation` says
so part by part. Dimensions and the allocation have no members of their own to declare, so only
their order is free.

* `Session.variation_keeps`: the same session is read of all variants.
* `Session.parse_eq_of_allows`: so variants of a text are opened alike.
-/

namespace Footprint

open Json (NamesOnce ReadsSingle)
open Json.Variation (Kinds order record tagged container)

/-! ### Single values -/

namespace Json

theorem string_keeps : order.Keeps string? := Variation.order_keeps ⟨fun _ => rfl, fun _ => rfl⟩

theorem bool_keeps : order.Keeps bool? := Variation.order_keeps ⟨fun _ => rfl, fun _ => rfl⟩

end Json

theorem Decimal.keeps : order.Keeps Decimal.ofJson? :=
  Json.Variation.order_keeps ⟨fun _ => rfl, fun _ => rfl⟩

theorem Dimension.keeps : order.Keeps Dimension.ofJson? := by
  intro j k once same
  have reads : ReadsSingle Json.int32? := ⟨fun _ => rfl, fun _ => rfl⟩
  exact congrArg (Option.map _) (same.map?_eq reads once)

theorem Json.Value.keeps : order.Keeps Json.Value.ofJson? :=
  fun _ _ once same => same.freeValue_eq once

/-! ### Units and quantities -/

def MeasureUnit.variation : Json.Variation :=
  record [("symbol", order), ("name", order), ("dim", order)]

theorem MeasureUnit.variation_keeps : variation.Keeps ofJson? := by
  refine Json.record_keeps (by simp) ?_
  rintro _ _ (_ | ⟨symbol, _ | ⟨name, _ | ⟨dim, ⟨⟩⟩⟩⟩)
  simp only [Json.string_keeps.required_eq symbol, Json.string_keeps.required_eq name,
    Dimension.keeps.required_eq dim]

def Quantity.variation : Json.Variation :=
  record [("value", order), ("unit", MeasureUnit.variation)]

theorem Quantity.variation_keeps : variation.Keeps ofJson? := by
  refine Json.record_keeps (by simp) ?_
  rintro _ _ (_ | ⟨value, _ | ⟨unit, ⟨⟩⟩⟩)
  simp only [Decimal.keeps.required_eq value, MeasureUnit.variation_keeps.optional_eq unit]

/-! ### Attributes and bindings -/

def Attribute.kinds : Kinds where
  tag := "target"
  names := ["event", "object"]
  fieldsOf kind :=
    if kind = "event" then [("activity", order), ("name", order)]
    else [("objectType", order), ("dynamic", order), ("name", order)]
  distinct kind := by split <;> simp

def Attribute.variation (held : Bool) : Json.Variation := tagged kinds held

theorem Attribute.variation_keeps (held : Bool) : (variation held).Keeps (ofJson? held) := by
  refine Json.tagged_keeps ?_
  intro kind rest others fields
  by_cases event : kind = "event"
  · simp only [kinds, event, if_true, List.map_cons, List.map_nil] at fields ⊢
    refine Json.bind_eq_of_rel fields ?_
    rintro _ _ (_ | ⟨activity, _ | ⟨name, ⟨⟩⟩⟩)
    simp only [Json.string_keeps.required_eq activity, Json.string_keeps.required_eq name]
  · simp only [kinds, event, if_false, List.map_cons, List.map_nil] at fields ⊢
    refine Json.bind_eq_of_rel fields ?_
    rintro _ _ (_ | ⟨objectType, _ | ⟨dynamic, _ | ⟨name, ⟨⟩⟩⟩⟩)
    simp only [Json.string_keeps.required_eq objectType, Json.bool_keeps.defaulted_eq dynamic,
      Json.string_keeps.required_eq name]

/-- The members of a binding are its unit and those of its attribute. -/
def Binding.variation : Json.Variation :=
  container
    (fun members => ("unit", MeasureUnit.variation) :: Attribute.kinds.ofMembers true members)
    fun _ => []

theorem Binding.variation_keeps : variation.Keeps ofJson? := by
  intro j k once varies
  cases varies with
  | single => rfl
  | array => rfl
  | @object a b vary =>
    refine Json.bind_eq_of_rel (Json.openFields?_vary vary once) ?_
    rintro ⟨_, rest⟩ ⟨_, others⟩ ⟨_ | ⟨unit, ⟨⟩⟩, rfl, vary⟩
    -- The members declare the same attribute when the unit is taken out.
    have declared : Attribute.kinds.ofMembers true (a.filter fun e => e.1 ≠ "unit") =
        Attribute.kinds.ofMembers true a := by
      rw [Kinds.ofMembers, Kinds.ofMembers, Json.memberOnce?_filter_ne (by decide)]
    rw [← declared] at vary
    have subject := Attribute.variation_keeps true _ _ once.filter (.object vary)
    simp only [subject, MeasureUnit.variation_keeps.optional_eq unit]

/-! ### Factors and rules -/

def EmissionFactor.kinds : Kinds where
  tag := "type"
  names := ["local", "external"]
  fieldsOf kind :=
    if kind = "local" then [("value", Quantity.variation)]
    else [("catalogId", order), ("dim", order)]
  distinct kind := by split <;> simp

def EmissionFactor.variation (held : Bool) : Json.Variation := tagged kinds held

theorem EmissionFactor.variation_keeps (held : Bool) :
    (variation held).Keeps (ofJson? held) := by
  refine Json.tagged_keeps ?_
  intro kind rest others fields
  by_cases constant : kind = "local"
  · simp only [kinds, constant, if_true, List.map_cons, List.map_nil] at fields ⊢
    refine Json.bind_eq_of_rel fields ?_
    rintro _ _ (_ | ⟨value, ⟨⟩⟩)
    simp only [Quantity.variation_keeps.optional_eq value]
  · simp only [kinds, constant, if_false, List.map_cons, List.map_nil] at fields ⊢
    refine Json.bind_eq_of_rel fields ?_
    rintro _ _ (_ | ⟨catalogId, _ | ⟨dim, ⟨⟩⟩⟩)
    simp only [Json.string_keeps.optional_eq catalogId, Dimension.keeps.optional_eq dim]

def Rule.kinds : Kinds where
  tag := "type"
  names := ["EventEmissionRule", "E2OEmissionRule"]
  fieldsOf kind :=
    let chosen := [("factor", EmissionFactor.variation true),
      ("multiplierAttributes", .list (Attribute.variation true))]
    if kind = "EventEmissionRule" then ("activity", order) :: chosen
    else ("activity", order) :: ("objectType", order) :: ("qualifier", order) :: chosen
  distinct kind := by dsimp only; split <;> simp

def Rule.variation : Json.Variation := tagged kinds false

theorem Rule.variation_keeps : variation.Keeps ofJson? := by
  refine Json.tagged_keeps ?_
  intro kind rest others fields
  have factors := EmissionFactor.variation_keeps true
  have attributes := (Attribute.variation_keeps true).list
  by_cases event : kind = "EventEmissionRule"
  · simp only [kinds, event, if_true, List.map_cons, List.map_nil] at fields ⊢
    refine Json.bind_eq_of_rel fields ?_
    rintro _ _ (_ | ⟨activity, _ | ⟨factor, _ | ⟨multipliers, ⟨⟩⟩⟩⟩)
    simp only [Json.string_keeps.optional_eq activity, factors.optional_eq factor,
      attributes.defaulted_eq multipliers]
  · simp only [kinds, event, if_false, List.map_cons, List.map_nil] at fields ⊢
    refine Json.bind_eq_of_rel fields ?_
    rintro _ _ (_ | ⟨activity, _ | ⟨objectType, _ | ⟨qualifier, _ | ⟨factor, _ |
      ⟨multipliers, ⟨⟩⟩⟩⟩⟩⟩)
    simp only [Json.string_keeps.optional_eq activity, Json.string_keeps.optional_eq objectType,
      Json.string_keeps.optional_eq qualifier, factors.optional_eq factor,
      attributes.defaulted_eq multipliers]

/-! ### Sessions -/

namespace Session

/-- In which ways the document of a session may vary: the members of its objects in any order, and
in each record members that it does not declare. -/
def variation : Json.Variation :=
  record [("attributeUnits", .list Binding.variation), ("emissionRules", .list Rule.variation),
    ("objectAllocationConfig", order)]

theorem variation_keeps : variation.Keeps ofJson? := by
  refine Json.record_keeps (by simp) ?_
  rintro _ _ (_ | ⟨bindings, _ | ⟨rules, _ | ⟨allocation, ⟨⟩⟩⟩⟩)
  simp only [Binding.variation_keeps.list.defaulted_eq bindings,
    Rule.variation_keeps.list.defaulted_eq rules, Json.Value.keeps.defaulted_eq allocation]

/-- Texts of variants are opened alike: both as the same session, or both not at all. -/
theorem parse_eq_of_allows {text other : String} {j k : Json} (read : Json.read? text = some j)
    (readOther : Json.read? other = some k) (once : NamesOnce j) (varied : variation.Allows j k) :
    parse other = parse text := by
  have same : ofJson? j = ofJson? k := variation_keeps j k once varied
  simp only [parse, read, readOther, Option.bind_some, same]

def tonne : MeasureUnit := ⟨"t", "tonne", .base Dimension.mass⟩

def rail : EmissionFactor := .external (some "rail") none

/-- A session with a binding and a rule. -/
def freight : Session where
  bindings := [⟨.event "ship" "weight", some tonne⟩]
  rules := [.event { activity := some "ship", factor := some rail }]
  allocation := .null

/-- An object with these members and further ones, from the last to the first. -/
def backwards (members added : List (String × Json)) : Json := .object (members ++ added).reverse

def freightUnit : Json :=
  backwards [("symbol", .string "t"), ("name", .string "tonne"),
    ("dim", .object [(Dimension.mass, .int 1)])] [("system", .string "SI")]

def freightBinding : Json :=
  backwards [("target", .string "event"), ("activity", .string "ship"), ("name", .string "weight"),
    ("unit", freightUnit)] []

def freightFactor : Json :=
  backwards [("type", .string "external"), ("catalogId", .string "rail")] []

def freightRule : Json :=
  backwards [("type", .string "EventEmissionRule"), ("activity", .string "ship"),
    ("factor", freightFactor), ("multiplierAttributes", .array [])] [("note", .array [.null])]

/-- A document of the session in which the kinds stand last, with members that a session, a unit
and a rule do not declare. -/
def freightBackwards : Json :=
  backwards [("attributeUnits", .array [freightBinding]), ("emissionRules", .array [freightRule]),
    ("objectAllocationConfig", .null)] [("version", .int 2)]

theorem allows_freightBackwards : variation.Allows freight.toJson freightBackwards := by
  have same : ∀ {name fields j},
      Json.Paired (fun name => (Json.Variation.ofName fields name).Allows) (name, j) (name, j) :=
    ⟨rfl, Json.Variation.allows_refl _ _⟩
  have reversed : ∀ {ofMembers ofItems} {members kept added : List (String × Json)},
      List.Forall₂ (Json.Paired fun name => (Json.Variation.ofName (ofMembers members) name).Allows)
        members kept →
      (∀ e ∈ added, e.1 ∉ (ofMembers members).map (·.1) ∧ e.2.readable = true) →
      (container ofMembers ofItems).Allows (.object members) (backwards kept added) :=
    fun paired fresh => .object ⟨_, _, paired, fresh, List.reverse_perm _⟩
  have unit : MeasureUnit.variation.Allows tonne.toJson freightUnit :=
    reversed (.cons same (.cons same (.cons same .nil))) (by decide)
  have binding : Binding.variation.Allows
      (Binding.toJson ⟨.event "ship" "weight", some tonne⟩) freightBinding :=
    reversed (.cons same (.cons same (.cons same (.cons ⟨rfl, unit⟩ .nil)))) nofun
  have factor : (EmissionFactor.variation true).Allows rail.toJson freightFactor :=
    reversed (.cons same (.cons same .nil)) nofun
  have rule : Rule.variation.Allows
      (Rule.toJson (.event { activity := some "ship", factor := some rail })) freightRule :=
    reversed (.cons same (.cons same (.cons ⟨rfl, factor⟩ (.cons same .nil)))) (by decide)
  refine reversed (.cons ⟨rfl, ?_⟩ (.cons ⟨rfl, ?_⟩ (.cons same .nil))) (by decide)
  · exact .array (.cons binding .nil)
  · exact .array (.cons rule .nil)

theorem parse_freightBackwards_eq :
    Json.read? freight.text = some freight.toJson ∧
      Json.read? freightBackwards.compact = some freightBackwards ∧ NamesOnce freight.toJson ∧
      variation.Allows freight.toJson freightBackwards ∧
      parse freightBackwards.compact = parse freight.text := by
  have read : Json.read? freight.text = some freight.toJson := Json.read?_compact_eq (by decide)
  have readOther : Json.read? freightBackwards.compact = some freightBackwards :=
    Json.read?_compact_eq (by decide)
  have once := freight.namesOnce_toJson
  exact ⟨read, readOther, once, allows_freightBackwards,
    parse_eq_of_allows read readOther once allows_freightBackwards⟩

end Session

end Footprint
