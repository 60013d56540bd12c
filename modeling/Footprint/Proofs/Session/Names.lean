import Footprint.Proofs.Json.Reordered
import Footprint.Proofs.Session.Parts

/-!
No document of a session, or of a part of one, lists a name twice.

The names of a record are those of its fields, and those of a dimension are its bases. The
allocation is kept with its members in ascending order.

* `Session.namesOnce_toJson`
-/

namespace Footprint

open Json (NamesOnce)

theorem Dimension.namesOnce_toJson (d : Dimension) : NamesOnce d.toJson :=
  Json.namesOnce_ofMap fun _ => .single rfl

theorem MeasureUnit.namesOnce_toJson (u : MeasureUnit) : NamesOnce u.toJson := by
  refine .object (by simp) ?_
  intro e mem
  simp only [List.mem_cons, List.not_mem_nil, or_false] at mem
  rcases mem with rfl | rfl | rfl
  · exact .single rfl
  · exact .single rfl
  · exact u.dim.namesOnce_toJson

theorem Attribute.namesOnce_fields {a : Attribute} :
    ∀ f ∈ a.allFields, ∀ value, f.2 = some value → NamesOnce value := by
  intro field mem value found
  cases a <;>
    · simp only [allFields, fields, List.mem_cons, List.not_mem_nil, or_false] at mem
      rcases mem with rfl | rfl | rfl | rfl <;> cases found <;> exact .single rfl

theorem Attribute.namesOnce_toJson (a : Attribute) : NamesOnce a.toJson := by
  have once := Json.namesOnce_present a.nodup_allFields namesOnce_fields
  rwa [allFields, Json.present_cons_some, ← members_eq] at once

theorem Binding.namesOnce_toJson (b : Binding) : NamesOnce b.toJson := by
  rw [toJson_eq]
  refine Json.namesOnce_present b.nodup_fields fun field mem value found => ?_
  rcases List.mem_append.mp mem with mem | mem
  · exact Attribute.namesOnce_fields field mem value found
  · obtain rfl := List.mem_singleton.mp mem
    obtain ⟨u, -, rfl⟩ := Option.map_eq_some_iff.mp found
    exact u.namesOnce_toJson

theorem Decimal.namesOnce_toJson (d : Decimal) : NamesOnce d.toJson := by
  unfold toJson
  split <;> exact .single rfl

theorem Quantity.namesOnce_toJson (q : Quantity) : NamesOnce q.toJson := by
  refine .object (by simp) ?_
  intro e mem
  simp only [List.mem_cons, List.not_mem_nil, or_false] at mem
  rcases mem with rfl | rfl
  · exact q.value.namesOnce_toJson
  · exact Json.namesOnce_ofOption fun u _ => u.namesOnce_toJson

theorem EmissionFactor.namesOnce_toJson (g : EmissionFactor) : NamesOnce g.toJson := by
  rw [toJson_eq, ← Json.present_cons_some]
  refine Json.namesOnce_present g.nodup_fields (List.forall_mem_cons.mpr ⟨?_, ?_⟩)
  · rintro _ ⟨⟩
    exact .single rfl
  · intro field mem value found
    cases g with
    | constant chosen =>
      obtain rfl := List.mem_singleton.mp mem
      obtain ⟨q, -, rfl⟩ := Option.map_eq_some_iff.mp found
      exact q.namesOnce_toJson
    | external catalogId dim =>
      simp only [fields, List.mem_cons, List.not_mem_nil, or_false] at mem
      rcases mem with rfl | rfl
      · exact Json.namesOnce_map_string found
      · obtain ⟨d, -, rfl⟩ := Option.map_eq_some_iff.mp found
        exact d.namesOnce_toJson

theorem Rule.namesOnce_toJson (r : Rule) : NamesOnce r.toJson := by
  have factor : ∀ {g : Option EmissionFactor} {value : Json},
      g.map EmissionFactor.toJson = some value → NamesOnce value := by
    intro g value found
    obtain ⟨h, -, rfl⟩ := Option.map_eq_some_iff.mp found
    exact h.namesOnce_toJson
  have multipliers : ∀ attributes : List Attribute,
      NamesOnce (Json.ofList Attribute.toJson attributes) :=
    fun _ => Json.namesOnce_ofList fun a _ => a.namesOnce_toJson
  rw [toJson_eq, ← Json.present_cons_some]
  refine Json.namesOnce_present r.nodup_fields (List.forall_mem_cons.mpr ⟨?_, ?_⟩)
  · rintro _ ⟨⟩
    exact .single rfl
  · intro field mem value found
    cases r with
    | event r =>
      simp only [fields, List.mem_cons, List.not_mem_nil, or_false] at mem
      rcases mem with rfl | rfl | rfl
      · exact Json.namesOnce_map_string found
      · exact factor found
      · exact Option.some.inj found ▸ multipliers _
    | relation r =>
      simp only [fields, List.mem_cons, List.not_mem_nil, or_false] at mem
      rcases mem with rfl | rfl | rfl | rfl | rfl
      · exact Json.namesOnce_map_string found
      · exact Json.namesOnce_map_string found
      · exact Json.namesOnce_map_string found
      · exact factor found
      · exact Option.some.inj found ▸ multipliers _

theorem Eligibility.namesOnce_toJson (e : Eligibility) : NamesOnce e.toJson := by
  cases e with
  | types names =>
    refine .object (by simp) (List.forall_mem_cons.mpr ⟨.single rfl, ?_⟩)
    exact List.forall_mem_singleton.mpr (Json.namesOnce_ofList fun _ _ => .single rfl)
  | unsupported dim =>
    refine .object (by simp) (List.forall_mem_cons.mpr ⟨.single rfl, ?_⟩)
    exact List.forall_mem_singleton.mpr dim.namesOnce_toJson

theorem Session.namesOnce_toJson (s : Session) : NamesOnce s.toJson := by
  refine .object (by simp) ?_
  intro e mem
  simp only [List.mem_cons, List.not_mem_nil, or_false] at mem
  rcases mem with rfl | rfl | rfl
  · exact Json.namesOnce_ofList fun b _ => b.namesOnce_toJson
  · exact Json.namesOnce_ofList fun r _ => r.namesOnce_toJson
  · exact Json.namesOnce_of_ordered s.allocation.ordered

end Footprint
