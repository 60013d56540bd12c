import Footprint.Proofs.Attribute.Lookup
import Footprint.Proofs.UnitType.Lookup
import Footprint.Rule.Edit
import Footprint.Search.Request

/-!
What a check of a rule depends on.

A rule sees bindings only through the units of its attributes, so lists of bindings that differ in
order or in repetitions are checked alike. The factor of a rule is seen through the dimension that
was recorded with it.

* `Rule.checksAlike_of_unitOf`: bindings with the same units for the attributes of a rule give the
  same checks;
* `Rule.checksAlike_reconcile_dedup`: in particular, reconciling with a log and dropping
  repetitions do not show;
* `Rule.acceptedWhileUnchanged_of_choice`: a factor chosen from the eligible unit types is
  accepted as long as the attributes require the dimension that they required then.
-/

namespace Footprint

namespace Rule

/-! ### Bindings that are checked alike -/

/-- The checks of a rule cannot tell two lists of bindings apart. -/
structure ChecksAlike (r : Rule) (registry : Registry) (bs other : Bindings) : Prop where
  requiredDimension : r.requiredDimension bs = r.requiredDimension other
  eligibility : r.eligibility bs registry = r.eligibility other registry
  issues : r.issues bs registry = r.issues other registry

/-- A rule sees the units of its attributes and nothing else of the bindings. -/
theorem checksAlike_of_unitOf {r : Rule} {bs other : Bindings} (registry : Registry)
    (same : ∀ a ∈ r.multipliers, bs.unitOf a = other.unitOf a) :
    r.ChecksAlike registry bs other := by
  have selected : bs.select r.multipliers = other.select r.multipliers := by
    apply List.map_congr_left
    intro a mem
    rw [same a mem]
  have required : r.requiredDimension bs = r.requiredDimension other := by
    rw [requiredDimension, requiredDimension, selected]
  refine ⟨required, ?_, ?_⟩
  · rw [eligibility, eligibility, required]
  · rw [issues, issues, required]

/-- Checks see neither that bindings were reconciled with a log nor that repetitions were
dropped. -/
theorem checksAlike_reconcile_dedup (r : Rule) (registry : Registry) (bs : Bindings)
    (log : List Descriptor) :
    r.ChecksAlike registry (bs.reconcile log) bs ∧ r.ChecksAlike registry bs.dedup bs := by
  constructor
  · apply checksAlike_of_unitOf
    intro a _
    exact Bindings.unitOf_reconcile a bs log
  · apply checksAlike_of_unitOf
    intro a _
    exact Bindings.unitOf_dedup a bs

/-! ### The recorded dimension -/

section Recorded

variable {r : Rule} {registry : Registry} {chosen required : Dimension}

theorem dimensionIssues_of_lacks (lacks : registry.Lacks required) :
    r.dimensionIssues registry required = [.unsupportedDimension required] := by
  rw [dimensionIssues, eligibilityOf_of_lacks lacks]

theorem dimensionIssues_of_changed (recorded : r.factorDimension? = some chosen)
    (changed : required ≠ chosen) (supported : ¬ registry.Lacks required) :
    r.dimensionIssues registry required = [.factorDimensionMismatch required chosen] := by
  rw [dimensionIssues, eligibilityOf_of_not_lacks supported, recorded]
  exact if_neg changed

theorem dimensionIssues_of_unchanged (recorded : r.factorDimension? = some chosen)
    (supported : ¬ registry.Lacks chosen) : r.dimensionIssues registry chosen = [] := by
  rw [dimensionIssues, eligibilityOf_of_not_lacks supported, recorded]
  exact if_pos rfl

/-- Once the required dimension is known, a check always gives its issues. -/
theorem issues_of_required {bs : Bindings} (known : r.requiredDimension bs = .ok required) :
    r.issues bs registry =
      .ok ((if r.isEmpty then [.incomplete] else []) ++ r.dimensionIssues registry required) := by
  rw [issues, known]
  rfl

end Recorded

/-! ### Choosing a factor -/

/-- The rule with a factor from the catalog, and after that with other attributes. -/
def choosing (r : Rule) (f : CatalogFactor) (registry : Registry) (attributes : List Attribute) :
    Rule :=
  (r.chooseFactor (some (f.asFactor registry))).chooseMultipliers attributes

/-- What is found about a rule whose factor was chosen for one dimension, when its attributes
require a dimension now. -/
structure AcceptedWhileUnchanged (registry : Registry) (r : Rule) (chosen required : Dimension)
    (found : List Issue) : Prop where
  /-- A missing choice is reported. -/
  incomplete : .incomplete ∈ found ↔ r.isEmpty = true
  /-- Something about the dimension is reported exactly when the dimension has changed. -/
  changed : (∃ issue ∈ found, issue ≠ .incomplete) ↔ required ≠ chosen
  /-- The changed dimension is unsupported if no unit type has it. -/
  unsupported : ∀ dim, .unsupportedDimension dim ∈ found ↔
    dim = required ∧ required ≠ chosen ∧ registry.Lacks required
  /-- Otherwise the factor does not fit any more. -/
  mismatch : ∀ needed recorded, .factorDimensionMismatch needed recorded ∈ found ↔
    (needed = required ∧ recorded = chosen) ∧ required ≠ chosen ∧ ¬ registry.Lacks required
  /-- Never both. -/
  single : ∀ dim needed recorded, .unsupportedDimension dim ∈ found →
    .factorDimensionMismatch needed recorded ∉ found

section Choice

variable {r : Rule} {registry : Registry} {f : CatalogFactor} {attributes : List Attribute}
  {chosen required : Dimension} {names : List String}

/-- The dimension of the eligible unit type is recorded with the factor. -/
theorem factorDimension?_choosing (distinct : registry.DistinctNames)
    (listed : f.unitType ∈ registry.matching chosen) :
    (r.choosing f registry attributes).factorDimension? = some chosen := by
  obtain ⟨d, found, rfl⟩ := Registry.get?_of_mem_matching distinct listed
  rw [factorDimension?, choosing, factor_chooseMultipliers, factor_chooseFactor,
    CatalogFactor.asFactor, found]
  rfl

theorem acceptedWhileUnchanged_of_recorded (recorded : r.factorDimension? = some chosen)
    (supported : ¬ registry.Lacks chosen) :
    AcceptedWhileUnchanged registry r chosen required
      ((if r.isEmpty then [.incomplete] else []) ++ r.dimensionIssues registry required) := by
  by_cases same : required = chosen
  · subst same
    rw [dimensionIssues_of_unchanged recorded supported]
    constructor <;> simp
  · by_cases lacks : registry.Lacks required
    · rw [dimensionIssues_of_lacks lacks]
      constructor <;> simp [same, lacks]
    · rw [dimensionIssues_of_changed recorded same lacks]
      constructor <;> simp [same, lacks]

/-- A factor that was chosen from the eligible unit types is accepted as long as, and only as long
as, the attributes require the same dimension. -/
theorem acceptedWhileUnchanged_of_choice {bs later : Bindings} (distinct : registry.DistinctNames)
    (known : r.requiredDimension bs = .ok chosen)
    (eligible : r.eligibility bs registry = .ok (.types names)) (listed : f.unitType ∈ names)
    (knownLater : (r.choosing f registry attributes).requiredDimension later = .ok required) :
    ∃ found, (r.choosing f registry attributes).issues later registry = .ok found ∧
      AcceptedWhileUnchanged registry (r.choosing f registry attributes) chosen required found := by
  obtain ⟨dim, same, supported, rfl⟩ := exists_of_eligibility_types eligible
  obtain rfl : dim = chosen := Except.ok.inj (same.symm.trans known)
  exact ⟨_, issues_of_required knownLater,
    acceptedWhileUnchanged_of_recorded (factorDimension?_choosing distinct listed) supported⟩

end Choice

/-! ### Road freight -/

/-- A rule for shipped weight over distance. -/
def roadFreight : Rule :=
  .event
    { activity := some "ship"
      multipliers := [.event "ship" "weight", .event "ship" "distance"] }

/-- Bindings of the attributes of `roadFreight`, with a unit of this dimension for the distance. -/
def roadBindings (symbol name : String) (dim : Dimension) : Bindings :=
  [⟨.event "ship" "weight", some ⟨"t", "tonne", QuantityKind.mass⟩⟩,
    ⟨.event "ship" "distance", some ⟨symbol, name, dim⟩⟩]

/-- A catalog factor for weight over distance. -/
def roadFactor : CatalogFactor := ⟨"road", "Road freight", "WeightOverDistance", NameMap.empty⟩

/-- The dimension of a mass times a quantity of one base. -/
def massTimes (base : String) : Dimension :=
  Dimension.ofEntries [(Dimension.mass, 1), (base, 1)]

/-- Giving the distance a unit of money leaves a factor that does not fit behind. -/
theorem roadFreight_acceptedWhileUnchanged :
    Registry.default.DistinctNames ∧
      roadFreight.requiredDimension (roadBindings "km" "kilometer" QuantityKind.length) =
        .ok (massTimes Dimension.length) ∧
      roadFreight.eligibility (roadBindings "km" "kilometer" QuantityKind.length)
        Registry.default = .ok (.types ["WeightOverDistance"]) ∧
      roadFactor.unitType ∈ ["WeightOverDistance"] ∧
      (roadFreight.choosing roadFactor Registry.default roadFreight.multipliers).requiredDimension
        (roadBindings "EUR" "euro" .currency) = .ok (massTimes Dimension.money) ∧
      ∃ found, (roadFreight.choosing roadFactor Registry.default roadFreight.multipliers).issues
          (roadBindings "EUR" "euro" .currency) Registry.default = .ok found ∧
        AcceptedWhileUnchanged Registry.default
          (roadFreight.choosing roadFactor Registry.default roadFreight.multipliers)
          (massTimes Dimension.length) (massTimes Dimension.money) found ∧
        .unsupportedDimension (massTimes Dimension.money) ∈ found := by
  have distinct : Registry.default.DistinctNames := Registry.distinctNames_default
  have known : roadFreight.requiredDimension (roadBindings "km" "kilometer" QuantityKind.length) =
      .ok (massTimes Dimension.length) := by
    decide +kernel
  have eligible : roadFreight.eligibility (roadBindings "km" "kilometer" QuantityKind.length)
      Registry.default = .ok (.types ["WeightOverDistance"]) := by
    decide +kernel
  have listed : roadFactor.unitType ∈ ["WeightOverDistance"] := List.mem_singleton_self _
  have knownLater : (roadFreight.choosing roadFactor Registry.default
      roadFreight.multipliers).requiredDimension (roadBindings "EUR" "euro" .currency) =
        .ok (massTimes Dimension.money) := by
    decide +kernel
  obtain ⟨found, issues, accepted⟩ :=
    acceptedWhileUnchanged_of_choice distinct known eligible listed knownLater
  have changed : massTimes Dimension.money ≠ massTimes Dimension.length := by decide +kernel
  have lacks : Registry.default.Lacks (massTimes Dimension.money) := by decide +kernel
  exact ⟨distinct, known, eligible, listed, knownLater, found, issues, accepted,
    (accepted.unsupported _).mpr ⟨rfl, changed, lacks⟩⟩

end Rule

end Footprint
