import Footprint.Proofs.Attribute.Lookup

/-!
Histories of bindings.

A list of bindings starts from a log or from a saved list, and is then changed by assignments and
by reconciling it with ever new logs. Reconciling reorders the list but changes no unit, so what a
look-up finds depends on the assignments alone:

* `Bindings.keepsAssignments`: in every list that a history reaches no attribute is bound twice, a
  bound attribute stays bound, and a look-up finds the unit of the last successful assignment, or
  the one in the starting list when there was none.
-/

namespace Footprint.Bindings

/-! ### Histories -/

/-- Where a list of bindings comes from: a log, or a saved list whose repetitions are dropped. -/
inductive Origin where
  | fromLog (log : List Descriptor)
  | fromSaved (saved : Bindings)

/-- The list that a history starts with. -/
def Origin.bindings : Origin → Bindings
  | .fromLog log => ofLog log
  | .fromSaved saved => saved.dedup

/-- A change of a list of bindings. -/
inductive Edit where
  | assign (a : Attribute) (unit : Option MeasureUnit)
  | reconcile (log : List Descriptor)

/-- The list after a change; an assignment that fails leaves it as it was. -/
def edit (bs : Bindings) : Edit → Bindings
  | .assign a unit =>
    match bs.assign a unit with
    | .ok changed => changed
    | .error _ => bs
  | .reconcile log => bs.reconcile log

/-- The list after some changes, one after the other. -/
def editAll (bs : Bindings) (edits : List Edit) : Bindings := edits.foldl edit bs

/-- The edit behind `before` assigns `unit` to the attribute, and succeeds. -/
structure AssignedAfter (start : Bindings) (edits before : List Edit) (a : Attribute)
    (unit : Option MeasureUnit) : Prop where
  split : ∃ after, edits = before ++ .assign a unit :: after
  succeeds : ∃ changed, (start.editAll before).assign a unit = .ok changed

/-- What a history keeps. -/
structure KeepsAssignments (start : Bindings) (edits : List Edit) (reached : Bindings) :
    Prop where
  /-- No attribute is bound twice. -/
  distinct : reached.Distinct
  /-- An attribute that was bound at any time is still bound. -/
  bound : ∀ a before after, edits = before ++ after → (start.editAll before).isBound a = true →
    reached.isBound a = true
  /-- The last successful assignment of an attribute set the unit that is found. -/
  assigned : ∀ a before unit, AssignedAfter start edits before a unit →
    (∀ other later, AssignedAfter start edits other a later → other.length ≤ before.length) →
    reached.unitOf a = unit
  /-- Without a successful assignment the unit of the starting list is found. -/
  unassigned : ∀ a, (∀ before unit, ¬ AssignedAfter start edits before a unit) →
    reached.unitOf a = start.unitOf a

/-! ### One change -/

variable {start bs : Bindings} {a : Attribute} {edits : List Edit}

theorem edit_assign_of_ok {unit : Option MeasureUnit} {changed : Bindings}
    (done : bs.assign a unit = .ok changed) : bs.edit (.assign a unit) = changed := by
  rw [edit, done]

theorem edit_assign_of_not_bound {unit : Option MeasureUnit} (free : a ∉ bs.subjects) :
    bs.edit (.assign a unit) = bs := by
  cases result : bs.assign a unit with
  | ok changed => exact absurd ((assign_succeeds_iff unit).mp ⟨changed, result⟩) free
  | error e => rw [edit, result]

theorem subjects_edit_assign (bs : Bindings) (a : Attribute) (unit : Option MeasureUnit) :
    (bs.edit (.assign a unit)).subjects = bs.subjects := by
  by_cases bound : a ∈ bs.subjects
  · obtain ⟨changed, done⟩ := (assign_succeeds_iff unit).mpr bound
    rw [edit_assign_of_ok done, subjects_of_assign done]
  · rw [edit_assign_of_not_bound bound]

/-- A change leaves every attribute bound once. -/
theorem Distinct.edit (distinct : bs.Distinct) (e : Edit) : (bs.edit e).Distinct := by
  cases e with
  | assign a unit => rwa [Distinct, subjects_edit_assign]
  | reconcile log => exact distinct_reconcile bs log

theorem mem_subjects_edit (bound : a ∈ bs.subjects) (e : Edit) : a ∈ (bs.edit e).subjects := by
  cases e with
  | assign b unit => rwa [subjects_edit_assign]
  | reconcile log => exact mem_subjects_reconcile.mpr (.inr bound)

/-- Only a successful assignment of the attribute changes what is found. -/
theorem unitOf_edit {e : Edit}
    (none : ∀ unit, e = .assign a unit → ¬ ∃ changed, bs.assign a unit = .ok changed) :
    (bs.edit e).unitOf a = bs.unitOf a := by
  cases e with
  | assign b unit =>
    by_cases bound : b ∈ bs.subjects
    · obtain ⟨changed, done⟩ := (assign_succeeds_iff unit).mpr bound
      have other : a ≠ b := by
        rintro rfl
        exact none unit rfl ⟨changed, done⟩
      rw [edit_assign_of_ok done, unitOf_of_assign done, if_neg other]
    · rw [edit_assign_of_not_bound bound]
  | reconcile log => exact unitOf_reconcile a bs log

/-! ### Whole histories -/

theorem editAll_append (bs : Bindings) (before after : List Edit) :
    bs.editAll (before ++ after) = (bs.editAll before).editAll after :=
  List.foldl_append

theorem Distinct.editAll (distinct : bs.Distinct) (edits : List Edit) :
    (bs.editAll edits).Distinct := by
  induction edits generalizing bs with
  | nil => exact distinct
  | cons e rest ih => exact ih (distinct.edit e)

theorem mem_subjects_editAll (bound : a ∈ bs.subjects) (edits : List Edit) :
    a ∈ (bs.editAll edits).subjects := by
  induction edits generalizing bs with
  | nil => exact bound
  | cons e rest ih => exact ih (mem_subjects_edit bound e)

/-- A history without a successful assignment of the attribute changes nothing that is found. -/
theorem unitOf_editAll (none : ∀ before unit, ¬ AssignedAfter bs edits before a unit) :
    (bs.editAll edits).unitOf a = bs.unitOf a := by
  induction edits generalizing bs with
  | nil => rfl
  | cons e rest ih =>
    have first : (bs.edit e).unitOf a = bs.unitOf a := by
      refine unitOf_edit fun unit same succeeds => none [] unit ⟨⟨rest, ?_⟩, succeeds⟩
      rw [same, List.nil_append]
    have others : ∀ before unit, ¬ AssignedAfter (bs.edit e) rest before a unit := by
      rintro before unit ⟨⟨after, split⟩, succeeds⟩
      refine none (e :: before) unit ⟨⟨after, ?_⟩, succeeds⟩
      rw [split, List.cons_append]
    exact (ih others).trans first

theorem Origin.distinct (origin : Origin) : origin.bindings.Distinct := by
  cases origin with
  | fromLog log => exact distinct_ofLog log
  | fromSaved saved => exact distinct_dedup saved

/-- Behind the last successful assignment there is no other. -/
theorem AssignedAfter.none_after {before after : List Edit} {unit : Option MeasureUnit}
    (split : edits = before ++ .assign a unit :: after)
    (last : ∀ other later, AssignedAfter start edits other a later →
      other.length ≤ before.length) (middle : List Edit) (later : Option MeasureUnit) :
    ¬ AssignedAfter (start.editAll (before ++ [.assign a unit])) after middle a later := by
  rintro ⟨⟨rest, splitAfter⟩, succeeds⟩
  have behind : AssignedAfter start edits (before ++ .assign a unit :: middle) a later := by
    refine ⟨⟨rest, ?_⟩, ?_⟩
    · rw [split, splitAfter, List.append_assoc, List.cons_append]
    · rwa [List.append_cons, editAll_append]
  have bound := last _ _ behind
  rw [List.length_append, List.length_cons] at bound
  omega

/-- Every list that a history reaches keeps what was assigned. -/
theorem keepsAssignments (origin : Origin) (edits : List Edit) :
    KeepsAssignments origin.bindings edits (origin.bindings.editAll edits) where
  distinct := origin.distinct.editAll edits
  bound := by
    rintro a before after rfl bound
    rw [isBound_iff, editAll_append]
    exact mem_subjects_editAll (isBound_iff.mp bound) after
  assigned := by
    rintro a before unit ⟨⟨after, split⟩, ⟨changed, done⟩⟩ last
    have set : (origin.bindings.editAll (before ++ [.assign a unit])).unitOf a = unit := by
      rw [editAll_append]
      show ((origin.bindings.editAll before).edit (.assign a unit)).unitOf a = unit
      rw [edit_assign_of_ok done, unitOf_of_assign done, if_pos rfl]
    have kept := unitOf_editAll (AssignedAfter.none_after split last)
    rw [split, List.append_cons, editAll_append, kept, set]
  unassigned := fun _ none => unitOf_editAll none

/-- An attribute that the log drops and lists again keeps the unit of its last assignment. -/
example : (((Origin.fromLog [⟨.event "ship" "weight", true⟩]).bindings.editAll
    [.assign (.event "ship" "weight") (some ⟨"kg", "kilogram", .base Dimension.mass⟩),
      .reconcile [⟨.event "ship" "distance", true⟩],
      .reconcile [⟨.event "ship" "weight", true⟩]]).unitOf (.event "ship" "weight")).map
        (·.symbol) = some "kg" := by
  decide

end Footprint.Bindings
