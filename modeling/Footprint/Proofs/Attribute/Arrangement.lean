import Footprint.Proofs.Attribute.Lookup

/-!
The order of reconciled bindings.

A list that binds no attribute twice is the selection of the attributes it lists, so it is known by
these and by the units that are found (`Bindings.select_subjects`). In this form reconciling is one
selection: the numeric attributes of the log and then those that are bound, each of them once
(`Bindings.reconcile_eq_select`).

* `Bindings.reconcile_composes`: reconciling with one log and then with another is reconciling once
  with the second log followed by the first, and what a reconciled list looks like.
-/

namespace Footprint

/-! ### Distinct elements -/

section Distinct

variable {α : Type} [DecidableEq α]

theorem eraseDups_eq_firstsBy (items : List α) : items.eraseDups = firstsBy id items := by
  rw [← List.map_id (firstsBy id items), map_firstsBy, List.map_id]

theorem eraseDups_filter (p : α → Bool) (items : List α) :
    (items.filter p).eraseDups = items.eraseDups.filter p := by
  rw [eraseDups_eq_firstsBy, eraseDups_eq_firstsBy]
  exact firstsBy_filter p items

theorem eraseDups_eraseDups (items : List α) : items.eraseDups.eraseDups = items.eraseDups := by
  rw [eraseDups_eq_firstsBy items.eraseDups]
  refine firstsBy_of_nodup ?_
  rw [eraseDups_eq_firstsBy]
  exact nodup_map_firstsBy items

/-- Behind the distinct elements of the front stand those of the back that are not in the front. -/
theorem eraseDups_append (front back : List α) :
    (front ++ back).eraseDups = front.eraseDups ++ back.eraseDups.filter fun a => a ∉ front := by
  have others : back.removeAll front = back.filter fun a => a ∉ front := by
    refine List.filter_congr fun a _ => ?_
    simp
  rw [List.eraseDups_append, others, eraseDups_filter]

/-- Elements that are dropped in the back are not missed. -/
theorem eraseDups_append_eraseDups (front back : List α) :
    (front ++ back.eraseDups).eraseDups = (front ++ back).eraseDups := by
  rw [eraseDups_append, eraseDups_append, eraseDups_eraseDups]

end Distinct

namespace Bindings

variable {bs cs : Bindings} {log : List Descriptor}

/-! ### Selections -/

theorem select_append (front back : List Attribute) (bs : Bindings) :
    select (front ++ back) bs = select front bs ++ select back bs :=
  List.map_append

theorem select_congr (same : ∀ a, unitOf a bs = unitOf a cs) (attributes : List Attribute) :
    select attributes bs = select attributes cs := by
  refine List.map_congr_left fun a _ => ?_
  rw [same]

/-- A list that binds no attribute twice selects what it lists. -/
theorem select_subjects (distinct : bs.Distinct) : select bs.subjects bs = bs := by
  rw [select, subjects, List.map_map]
  refine (List.map_congr_left fun b mem => ?_).trans (List.map_id bs)
  rw [Function.comp_apply, unitOf, find?_of_mem distinct mem]
  rfl

/-- Dropping repetitions selects the bound attributes, each of them once. -/
theorem dedup_eq_select (bs : Bindings) : bs.dedup = select bs.subjects.eraseDups bs := by
  have found : ∀ a, unitOf a bs.dedup = unitOf a bs := fun a => unitOf_dedup a bs
  rw [← select_subjects (distinct_dedup bs), subjects_dedup, select_congr found]

/-! ### Reconciling as a selection -/

theorem numericOf_append (front back : List Descriptor) :
    numericOf (front ++ back) = numericOf front ++ numericOf back := by
  rw [numericOf, List.filter_append, List.map_append]
  rfl

/-- The attributes that are bound and not numeric in the log. -/
theorem subjects_unlisted (bs : Bindings) (log : List Descriptor) :
    (bs.unlisted log).subjects = bs.subjects.filter fun a => a ∉ numericOf log := by
  rw [subjects, subjects, unlisted, List.filter_map]
  rfl

theorem subjects_reconcile (bs : Bindings) (log : List Descriptor) :
    (bs.reconcile log).subjects = (numericOf log ++ bs.subjects).eraseDups := by
  rw [reconcile_eq, subjects_append, subjects_listed, subjects_ofLog, subjects_unlisted,
    subjects_dedup, eraseDups_append]

/-- Reconciling selects the numeric attributes of the log and those that are bound, each of them
once. -/
theorem reconcile_eq_select (bs : Bindings) (log : List Descriptor) :
    bs.reconcile log = select (numericOf log ++ bs.subjects).eraseDups bs := by
  have found : ∀ a, unitOf a (bs.reconcile log) = unitOf a bs := fun a => unitOf_reconcile a bs log
  rw [← select_subjects (distinct_reconcile bs log), subjects_reconcile, select_congr found]

theorem reconcile_append (bs : Bindings) (first next : List Descriptor) :
    (bs.reconcile first).reconcile next = bs.reconcile (next ++ first) := by
  have found : ∀ a, unitOf a (bs.reconcile first) = unitOf a bs :=
    fun a => unitOf_reconcile a bs first
  calc (bs.reconcile first).reconcile next
      = select (numericOf next ++ (numericOf first ++ bs.subjects).eraseDups).eraseDups
          (bs.reconcile first) := by rw [reconcile_eq_select, subjects_reconcile]
    _ = select (numericOf next ++ (numericOf first ++ bs.subjects)).eraseDups bs := by
      rw [eraseDups_append_eraseDups, select_congr found]
    _ = bs.reconcile (next ++ first) := by
      rw [reconcile_eq_select, numericOf_append, List.append_assoc]

theorem nil_reconcile (log : List Descriptor) : reconcile [] log = ofLog log := by
  have kept : listed [] log = ofLog log := List.map_id (ofLog log)
  rw [reconcile_eq]
  show listed [] log ++ [] = ofLog log
  rw [List.append_nil, kept]

theorem reconcile_nil (bs : Bindings) : bs.reconcile [] = bs.dedup := by
  rw [reconcile_eq_select, dedup_eq_select]
  rfl

/-- Reconciling with one log and then with another is reconciling once with the other log followed
by the first. Only the first time with a log changes anything, an empty list becomes that of the
log, and an empty log drops repetitions. A reconciled list has the distinct numeric attributes of
the log in their order and then the other attributes that are bound in theirs, each with the unit
of its first binding. -/
theorem reconcile_composes (bs : Bindings) (first next : List Descriptor) :
    (bs.reconcile first).reconcile next = bs.reconcile (next ++ first) ∧
      (bs.reconcile first).reconcile first = bs.reconcile first ∧
      reconcile [] first = ofLog first ∧ bs.reconcile [] = bs.dedup ∧
      bs.reconcile first = select (numericOf first).eraseDups bs ++
        select (bs.subjects.eraseDups.filter fun a => a ∉ numericOf first) bs := by
  refine ⟨reconcile_append bs first next, reconcile_reconcile bs first, nil_reconcile first,
    reconcile_nil bs, ?_⟩
  rw [reconcile_eq_select, eraseDups_append, select_append]

end Bindings

end Footprint
