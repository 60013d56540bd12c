import Footprint.Proofs.UnitType.Lookup
import Footprint.Search.Request

/-!
What a request of a rule restricts the catalog to.

The request of a rule lists the unit types that are eligible for its factor, and a document leaves
an empty list out, which restricts nothing. Two registries show where the restriction ends:

* one without a unit type for pure numbers. No unit type is eligible for such a dimension, but it is
  not reported as unsupported: there is a request, and its list is empty;
* one that declares a name twice. The catalog knows unit types by their names, and a look-up finds
  the first one.

`SearchRequest.restricts_of_eligibility` says that there is nothing else: any other request
restricts the catalog to unit types of the required dimension.
`SearchRequest.not_restricted_at_limits` shows both registries.
-/

namespace Footprint

namespace SearchRequest

/-! ### The restriction -/

/-- A request restricts the catalog to unit types of a dimension. -/
structure Restricts (request : SearchRequest) (registry : Registry) (dim : Dimension) : Prop where
  /-- Some unit type is listed, unless the dimension is that of a pure number and no unit type has
  it. -/
  listed : ¬ (dim.isOne = true ∧ ∀ d ∈ registry.definitions, d.dim ≠ dim) →
    request.unitTypes ≠ []
  /-- What is listed is written. -/
  written : request.unitTypes ≠ [] → ∃ members, request.toJson = .object members ∧
    ("unitType", Json.ofList .string request.unitTypes) ∈ members
  /-- A listed name is looked up to a unit type of the dimension, unless a unit type that has it
  is declared later under the same name. -/
  found : ∀ name ∈ request.unitTypes, ∃ d, registry.get? name = some d ∧
    (d.dim = dim ∨ registry.DeclaredAgain d dim)
  /-- With distinct names, a listed name is looked up to a unit type of the dimension. -/
  foundDistinct : registry.DistinctNames → ∀ name ∈ request.unitTypes,
    ∃ d, registry.get? name = some d ∧ d.dim = dim

variable {eligible : Eligibility} {query : Option String} {page : UInt32}
  {settings : SearchSettings} {request : SearchRequest}

/-- There is a request for eligible unit types only, and it lists all of them. -/
theorem eq_types_of_restrictedTo?
    (sent : restrictedTo? eligible query page settings = some request) :
    eligible = .types request.unitTypes := by
  cases eligible with
  | unsupported dim => cases sent
  | types names =>
    cases sent
    rfl

theorem mem_toJson_of_unitTypes (listed : request.unitTypes ≠ []) :
    ∃ members, request.toJson = .object members ∧
      ("unitType", Json.ofList .string request.unitTypes) ∈ members := by
  refine ⟨_, rfl, ?_⟩
  rw [if_neg (by simpa using listed)]
  simp

/-- The request of a rule restricts the catalog to unit types of the dimension that the rule
requires. -/
theorem restricts_of_eligibility {r : Rule} {bs : Bindings} {registry : Registry}
    (known : r.eligibility bs registry = .ok eligible)
    (sent : restrictedTo? eligible query page settings = some request) :
    ∃ dim, r.requiredDimension bs = .ok dim ∧ request.Restricts registry dim := by
  rw [eq_types_of_restrictedTo? sent] at known
  obtain ⟨dim, required, supported, names⟩ := Rule.exists_of_eligibility_types known
  refine ⟨dim, required, ?_⟩
  constructor
  case listed =>
    intro notBlank
    rw [names, ne_eq, Registry.matching_eq_nil_iff]
    intro none
    -- No unit type has the dimension, and the registry does not lack it: it is that of a number.
    cases one : dim.isOne with
    | true => exact notBlank ⟨one, none⟩
    | false => exact supported ⟨one, none⟩
  case written => exact mem_toJson_of_unitTypes
  case found =>
    intro name mem
    exact Registry.exists_get?_of_mem_matching (names ▸ mem)
  case foundDistinct =>
    intro distinct name mem
    exact Registry.get?_of_mem_matching distinct (names ▸ mem)

/-! ### A rule for distances -/

/-- A rule that multiplies with a distance. -/
def distanceRule : Rule := .event { multipliers := [.event "ship" "distance"] }

/-- The distance of `distanceRule`, in kilometers. -/
def distanceBindings : Bindings :=
  [⟨.event "ship" "distance", some ⟨"km", "kilometer", QuantityKind.length⟩⟩]

theorem requiredDimension_distanceRule :
    distanceRule.requiredDimension distanceBindings = .ok QuantityKind.length := by
  decide +kernel

/-- A request for these unit types without a query. -/
def blankRequest (unitTypes : List String) : SearchRequest :=
  ⟨none, unitTypes, 1, 20, NameMap.empty⟩

theorem distanceRule_restricts :
    distanceRule.eligibility distanceBindings Registry.default = .ok (.types ["Distance"]) ∧
      restrictedTo? (.types ["Distance"]) (some " ") 0 {} = some (blankRequest ["Distance"]) ∧
      ∃ dim, distanceRule.requiredDimension distanceBindings = .ok dim ∧
        (blankRequest ["Distance"]).Restricts Registry.default dim := by
  have known : distanceRule.eligibility distanceBindings Registry.default =
      .ok (.types ["Distance"]) := by
    decide +kernel
  have sent : restrictedTo? (.types ["Distance"]) (some " ") 0 {} =
      some (blankRequest ["Distance"]) := by
    rfl
  exact ⟨known, sent, restricts_of_eligibility known sent⟩

/-! ### The limits -/

/-- A unit type that is called `Load`. -/
def load (label : String) (dim : Dimension) : UnitType := .atomic "Load" label dim []

/-- Two unit types of one name: for masses, and then for distances. -/
def loads : Registry :=
  ⟨[load "Load by mass" QuantityKind.mass, load "Load by distance" QuantityKind.length]⟩

/-- Without a unit type for pure numbers, a rule without attributes has a request that restricts
nothing. Where a name is declared twice, a rule for distances has a request for a name that is
looked up to masses. -/
theorem not_restricted_at_limits :
    (Registry.build? [] = .ok Registry.empty ∧
      (Rule.event {}).eligibility [] Registry.empty = .ok (.types []) ∧
      restrictedTo? (.types []) none 1 {} = some (blankRequest []) ∧
      (blankRequest []).unitTypes = [] ∧
      (blankRequest []).toJson = .object [("page", .int 1), ("resultsPerPage", .int 20)]) ∧
    (Registry.build? [.asIs (load "Load by mass" QuantityKind.mass),
        .asIs (load "Load by distance" QuantityKind.length)] = .ok loads ∧
      distanceRule.eligibility distanceBindings loads = .ok (.types ["Load"]) ∧
      restrictedTo? (.types ["Load"]) none 1 {} = some (blankRequest ["Load"]) ∧
      "Load" ∈ (blankRequest ["Load"]).unitTypes ∧
      loads.get? "Load" = some (load "Load by mass" QuantityKind.mass) ∧
      distanceRule.requiredDimension distanceBindings ≠
        .ok (load "Load by mass" QuantityKind.mass).dim) := by
  refine ⟨⟨rfl, by decide +kernel, rfl, rfl, rfl⟩, by decide +kernel, by decide +kernel, rfl,
    List.mem_singleton_self _, by decide +kernel, ?_⟩
  rw [requiredDimension_distanceRule]
  intro same
  exact absurd (Except.ok.inj same) (by decide +kernel)

end SearchRequest

end Footprint
