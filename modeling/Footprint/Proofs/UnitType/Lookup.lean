import Footprint.Rule.Check
import Mathlib.Data.List.Nodup

/-!
Looking unit types up by dimension and by name.

A registry is asked in two ways: for the names of the unit types of a dimension
(`Registry.matching`), and for the unit type of a name (`Registry.get?`). The two agree as long as
no name is declared twice; otherwise a look-up finds the first unit type of the name.

* `Registry.get?_of_mem_matching`: with distinct names, a name that matches a dimension is looked
  up to a unit type of this dimension;
* `Registry.exists_get?_of_mem_matching`: in any registry it is looked up to some unit type, and
  only one that is declared again can have another dimension;
* `Rule.eligibilityOf_of_lacks`, `Rule.eligibilityOf_of_not_lacks`: what is eligible for a
  dimension.
-/

namespace Footprint

namespace Registry

/-- No name is declared twice. -/
def DistinctNames (r : Registry) : Prop := (r.definitions.map (·.name)).Nodup

instance (r : Registry) : Decidable r.DistinctNames :=
  inferInstanceAs (Decidable (r.definitions.map (·.name)).Nodup)

/-- The dimension is not that of a pure number, and no unit type has it. -/
def Lacks (r : Registry) (dim : Dimension) : Prop :=
  dim.isOne = false ∧ ∀ d ∈ r.definitions, d.dim ≠ dim

/-- After `d`, a unit type of the same name is declared that has the dimension. -/
def DeclaredAgain (r : Registry) (d : UnitType) (dim : Dimension) : Prop :=
  ∃ before after, r.definitions = before ++ d :: after ∧
    ∃ e ∈ after, e.name = d.name ∧ e.dim = dim

instance (r : Registry) (dim : Dimension) : Decidable (r.Lacks dim) :=
  inferInstanceAs (Decidable (_ ∧ _))

variable {r : Registry} {name : String} {dim : Dimension}

/-! ### By dimension -/

theorem mem_matching_iff : name ∈ r.matching dim ↔
    ∃ d ∈ r.definitions, d.dim = dim ∧ d.name = name := by
  simp only [matching, List.mem_map, List.mem_filter, decide_eq_true_eq, and_assoc]

theorem matching_eq_nil_iff : r.matching dim = [] ↔ ∀ d ∈ r.definitions, d.dim ≠ dim := by
  simp only [matching, List.map_eq_nil_iff, List.filter_eq_nil_iff, decide_eq_true_eq]

/-! ### By name -/

/-- A name is looked up to the first unit type that bears it. -/
theorem get?_eq_some_iff {d : UnitType} : r.get? name = some d ↔
    d.name = name ∧ ∃ before after, r.definitions = before ++ d :: after ∧
      ∀ e ∈ before, e.name ≠ name := by
  simp only [get?, List.find?_eq_some_iff_append, decide_eq_true_eq, Bool.not_eq_eq_eq_not,
    Bool.not_true, decide_eq_false_iff_not, ne_eq]

theorem get?_isSome_of_mem {d : UnitType} (mem : d ∈ r.definitions) :
    (r.get? d.name).isSome = true := by
  rw [get?, List.find?_isSome]
  exact ⟨d, mem, decide_eq_true rfl⟩

theorem get?_of_distinct (distinct : r.DistinctNames) {d : UnitType} (mem : d ∈ r.definitions) :
    r.get? d.name = some d := by
  obtain ⟨e, found⟩ := Option.isSome_iff_exists.mp (get?_isSome_of_mem mem)
  rw [found, List.inj_on_of_nodup_map distinct (List.mem_of_find?_eq_some found) mem
    (get?_eq_some_iff.mp found).1]

/-- With distinct names, looking up and matching agree. -/
theorem get?_of_mem_matching (distinct : r.DistinctNames) (mem : name ∈ r.matching dim) :
    ∃ d, r.get? name = some d ∧ d.dim = dim := by
  obtain ⟨d, declared, same, rfl⟩ := mem_matching_iff.mp mem
  exact ⟨d, get?_of_distinct distinct declared, same⟩

/-- The catalog has no name twice. -/
theorem distinctNames_default : Registry.default.DistinctNames := by
  decide +kernel

/-- A matching name is looked up to a unit type of the dimension, unless the name is declared
again. -/
theorem exists_get?_of_mem_matching (mem : name ∈ r.matching dim) :
    ∃ d, r.get? name = some d ∧ (d.dim = dim ∨ r.DeclaredAgain d dim) := by
  obtain ⟨e, declared, hasDim, rfl⟩ := mem_matching_iff.mp mem
  obtain ⟨d, found⟩ := Option.isSome_iff_exists.mp (get?_isSome_of_mem declared)
  obtain ⟨sameName, before, after, split, others⟩ := get?_eq_some_iff.mp found
  refine ⟨d, found, ?_⟩
  rw [split, List.mem_append, List.mem_cons] at declared
  rcases declared with earlier | rfl | later
  · exact absurd rfl (others e earlier)
  · exact .inl hasDim
  · exact .inr ⟨before, after, split, e, later, sameName.symm, hasDim⟩

end Registry

namespace Rule

variable {registry : Registry} {dim : Dimension}

/-! ### Eligible unit types -/

theorem eligibilityOf_of_lacks (lacks : registry.Lacks dim) :
    eligibilityOf registry dim = .unsupported dim := by
  have none : registry.matching dim = [] := Registry.matching_eq_nil_iff.mpr lacks.2
  simp only [eligibilityOf, none, lacks.1, List.isEmpty_nil, Bool.false_eq_true, not_false_eq_true,
    and_self, if_true]

theorem eligibilityOf_of_not_lacks (supported : ¬ registry.Lacks dim) :
    eligibilityOf registry dim = .types (registry.matching dim) := by
  refine if_neg fun ⟨empty, notOne⟩ => supported ⟨Bool.eq_false_iff.mpr notOne, ?_⟩
  exact Registry.matching_eq_nil_iff.mp (List.isEmpty_iff.mp empty)

/-- Unit types are eligible for the dimension that the rule requires, which the registry does not
lack. -/
theorem exists_of_eligibility_types {r : Rule} {bs : Bindings} {names : List String}
    (eligible : r.eligibility bs registry = .ok (.types names)) :
    ∃ dim, r.requiredDimension bs = .ok dim ∧ ¬ registry.Lacks dim ∧
      names = registry.matching dim := by
  unfold eligibility at eligible
  cases required : r.requiredDimension bs with
  | error e =>
    rw [required] at eligible
    cases eligible
  | ok dim =>
    rw [required] at eligible
    have types : eligibilityOf registry dim = .types names := Except.ok.inj eligible
    by_cases lacks : registry.Lacks dim
    · rw [eligibilityOf_of_lacks lacks] at types
      cases types
    · rw [eligibilityOf_of_not_lacks lacks] at types
      cases types
      exact ⟨dim, rfl, lacks, rfl⟩

end Rule

end Footprint
