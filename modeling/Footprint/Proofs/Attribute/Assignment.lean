import Footprint.Proofs.Attribute.Arrangement

/-!
What an assignment touches.

An assignment writes at the first place of its attribute (`Bindings.FirstPlace`), and that place
depends on the attributes of the list only. So assignments do not move each other's places
(`Bindings.assign_comm`, `Bindings.assign_again`), and the binding that is written is the one that
is kept when repetitions are dropped (`Bindings.map_dedup_assign`).

* `Bindings.assign_touchesOne`: an assignment succeeds for bound attributes only, changes the unit
  at one place, and may be exchanged with dropping repetitions and with assignments of other
  attributes.
-/

namespace Footprint.Bindings

/-! ### First places -/

/-- `i` is the first place at which the attribute stands. -/
structure FirstPlace (attributes : List Attribute) (a : Attribute) (i : Nat) : Prop where
  here : attributes[i]? = some a
  fresh : ∀ j, j < i → attributes[j]? ≠ some a

section FirstPlace

variable {attributes : List Attribute} {a b : Attribute} {i j : Nat}

theorem FirstPlace.unique (first : FirstPlace attributes a i) (second : FirstPlace attributes a j) :
    i = j := by
  rcases Nat.lt_trichotomy i j with less | same | more
  · exact absurd first.here (second.fresh i less)
  · exact same
  · exact absurd second.here (first.fresh j more)

/-- Different attributes stand at different places. -/
theorem FirstPlace.ne (first : FirstPlace attributes a i) (second : FirstPlace attributes b j)
    (other : a ≠ b) : i ≠ j := by
  rintro rfl
  exact other (Option.some.inj (first.here.symm.trans second.here))

end FirstPlace

variable {bs changed : Bindings} {a b : Attribute} {i : Nat}

theorem getElem?_subjects (bs : Bindings) (i : Nat) :
    bs.subjects[i]? = bs[i]?.map (·.subject) :=
  List.getElem?_map

/-- A bound attribute has a first place, and an assignment writes there. -/
theorem exists_assign_set (bound : a ∈ bs.subjects) (unit : Option MeasureUnit) :
    ∃ i, FirstPlace bs.subjects a i ∧ bs.assign a unit = .ok (bs.set i ⟨a, unit⟩) := by
  obtain ⟨before, old, after, split, absent, done⟩ := exists_assign bound unit
  refine ⟨before.length, ⟨?_, ?_⟩, ?_⟩
  · rw [getElem?_subjects, split, List.getElem?_append_right (Nat.le_refl _), Nat.sub_self]
    rfl
  · intro j less here
    rw [getElem?_subjects, split, List.getElem?_append_left less] at here
    obtain ⟨c, inside, subject⟩ := Option.map_eq_some_iff.mp here
    exact absent (List.mem_map.mpr ⟨c, List.mem_of_getElem? inside, subject⟩)
  · rw [done, split, List.set_append_right _ _ (Nat.le_refl _), Nat.sub_self]
    rfl

theorem assign_eq_set (place : FirstPlace bs.subjects a i) (unit : Option MeasureUnit) :
    bs.assign a unit = .ok (bs.set i ⟨a, unit⟩) := by
  obtain ⟨j, first, done⟩ := exists_assign_set (List.mem_of_getElem? place.here) unit
  rw [done, place.unique first]

theorem assign_of_not_bound (unbound : a ∉ bs.subjects) (unit : Option MeasureUnit) :
    bs.assign a unit = .error (.unknownAttribute a.display) := by
  have none : index? a bs = none := by
    rw [← isBound_iff, isBound, Bool.not_eq_true, Option.isSome_eq_false_iff] at unbound
    exact Option.isNone_iff_eq_none.mp unbound
  rw [assign, none]

/-! ### One assignment -/

/-- What an assignment of `unit` to the attribute makes of a list. -/
structure Assigned (bs : Bindings) (a : Attribute) (unit : Option MeasureUnit)
    (changed : Bindings) : Prop where
  length : changed.length = bs.length
  /-- Every place keeps its attribute. -/
  subject : ∀ i : Nat, changed[i]?.map (·.subject) = bs[i]?.map (·.subject)
  /-- Only the first place of the attribute may have another unit. -/
  elsewhere : ∀ i, ¬ FirstPlace bs.subjects a i → changed[i]? = bs[i]?
  found : unitOf a changed = unit
  others : ∀ b, b ≠ a → unitOf b changed = unitOf b bs

theorem assigned_of_assign {unit : Option MeasureUnit} (done : bs.assign a unit = .ok changed) :
    Assigned bs a unit changed := by
  have bound : a ∈ bs.subjects := (assign_succeeds_iff unit).mp ⟨changed, done⟩
  obtain ⟨i, place, written⟩ := exists_assign_set bound unit
  have changed_eq : changed = bs.set i ⟨a, unit⟩ := Except.ok.inj (done.symm.trans written)
  refine ⟨?_, ?_, ?_, ?_, ?_⟩
  · rw [changed_eq, List.length_set]
  · intro j
    rw [← getElem?_subjects, ← getElem?_subjects, subjects_of_assign done]
  · intro j other
    have apart : i ≠ j := by
      rintro rfl
      exact other place
    rw [changed_eq, List.getElem?_set_ne apart]
  · rw [unitOf_of_assign done, if_pos rfl]
  · intro b other
    rw [unitOf_of_assign done, if_neg other]

/-! ### Exchanging assignments -/

/-- Dropping repetitions keeps the binding that is written. -/
theorem map_dedup_assign (bs : Bindings) (a : Attribute) (unit : Option MeasureUnit) :
    (bs.assign a unit).map dedup = bs.dedup.assign a unit := by
  have listed : a ∈ bs.dedup.subjects ↔ a ∈ bs.subjects := by
    rw [subjects_dedup, List.mem_eraseDups]
  by_cases bound : a ∈ bs.subjects
  · obtain ⟨changed, done⟩ := (assign_succeeds_iff unit).mpr bound
    obtain ⟨kept, doneKept⟩ := (assign_succeeds_iff unit).mpr (listed.mpr bound)
    have distinct : kept.Distinct := by
      rw [Distinct, subjects_of_assign doneKept]
      exact distinct_dedup bs
    have found : ∀ b, unitOf b kept = unitOf b changed := by
      intro b
      rw [unitOf_of_assign doneKept, unitOf_of_assign done, unitOf_dedup]
    have same : kept = changed.dedup := by
      rw [dedup_eq_select, ← select_subjects distinct, subjects_of_assign doneKept,
        subjects_of_assign done, subjects_dedup, select_congr found]
    rw [done, doneKept, same]
    rfl
  · rw [assign_of_not_bound bound, assign_of_not_bound (mt listed.mp bound)]
    rfl

/-- Assignments of different attributes can be exchanged. -/
theorem assign_comm (other : b ≠ a) (boundA : a ∈ bs.subjects) (boundB : b ∈ bs.subjects)
    (unit next : Option MeasureUnit) :
    ∃ both, (bs.assign a unit >>= assign b next) = .ok both ∧
      (bs.assign b next >>= assign a unit) = .ok both := by
  obtain ⟨i, placeA, doneA⟩ := exists_assign_set boundA unit
  obtain ⟨j, placeB, doneB⟩ := exists_assign_set boundB next
  have behindA : FirstPlace (subjects (bs.set i ⟨a, unit⟩)) b j := by
    rwa [subjects_of_assign doneA]
  have behindB : FirstPlace (subjects (bs.set j ⟨b, next⟩)) a i := by
    rwa [subjects_of_assign doneB]
  refine ⟨(bs.set i ⟨a, unit⟩).set j ⟨b, next⟩, ?_, ?_⟩
  · rw [doneA]
    exact assign_eq_set behindA next
  · rw [doneB, List.set_comm _ _ (placeA.ne placeB other.symm)]
    exact assign_eq_set behindB unit

/-- Of two assignments of an attribute the second one counts. -/
theorem assign_again (bs : Bindings) (a : Attribute) (unit next : Option MeasureUnit) :
    (bs.assign a unit >>= assign a next) = bs.assign a next := by
  by_cases bound : a ∈ bs.subjects
  · obtain ⟨i, place, done⟩ := exists_assign_set bound unit
    have behind : FirstPlace (subjects (bs.set i ⟨a, unit⟩)) a i := by
      rwa [subjects_of_assign done]
    have written : assign a next (bs.set i ⟨a, unit⟩) = .ok (bs.set i ⟨a, next⟩) := by
      rw [assign_eq_set behind, List.set_set]
    rw [done, assign_eq_set place]
    exact written
  · rw [assign_of_not_bound bound, assign_of_not_bound bound]
    rfl

/-- What holds of the assignment of `unit` to the attribute. -/
structure TouchesOne (bs : Bindings) (a : Attribute) (unit : Option MeasureUnit) : Prop where
  /-- To be bound is to be listed. -/
  isBound : bs.isBound a = true ↔ a ∈ bs.subjects
  succeeds : a ∈ bs.subjects →
    ∃ changed, bs.assign a unit = .ok changed ∧ Assigned bs a unit changed
  fails : a ∉ bs.subjects → bs.assign a unit = .error (.unknownAttribute a.display)
  /-- Repetitions may be dropped before or after. -/
  dedup : (bs.assign a unit).map dedup = bs.dedup.assign a unit
  /-- An assignment of another bound attribute may come before or after. -/
  comm : ∀ b next, b ≠ a → a ∈ bs.subjects → b ∈ bs.subjects →
    ∃ both, (bs.assign a unit >>= assign b next) = .ok both ∧
      (bs.assign b next >>= assign a unit) = .ok both
  /-- A second assignment of the attribute makes up for the first. -/
  again : ∀ next, (bs.assign a unit >>= assign a next) = bs.assign a next

/-- An assignment touches one binding, of whatever list. -/
theorem assign_touchesOne (bs : Bindings) (a : Attribute) (unit : Option MeasureUnit) :
    TouchesOne bs a unit where
  isBound := isBound_iff
  succeeds bound := by
    obtain ⟨changed, done⟩ := (assign_succeeds_iff unit).mpr bound
    exact ⟨changed, done, assigned_of_assign done⟩
  fails unbound := assign_of_not_bound unbound unit
  dedup := map_dedup_assign bs a unit
  comm _ next other boundA boundB := assign_comm other boundA boundB unit next
  again next := assign_again bs a unit next

end Footprint.Bindings
