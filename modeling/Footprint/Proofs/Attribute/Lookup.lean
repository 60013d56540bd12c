import Footprint.Attribute.Bindings
import Mathlib.Data.List.Nodup

/-!
Looking bindings up after a change.

A list of bindings is known by two views: the attributes it lists (`Bindings.subjects`) and the
unit that a look-up finds (`Bindings.unitOf`). Each operation is described by what it does to them:

* `Bindings.exists_assign`: an assignment replaces the unit of the first binding of an attribute;
* `Bindings.find?_reconcile`, `Bindings.mem_subjects_reconcile`, `Bindings.distinct_reconcile`:
  reconciling with a log lists each attribute once, adds the numeric ones of the log and changes
  no unit;
* `Bindings.reconcile_eq`, `Bindings.reconcile_reconcile`: the order of the reconciled list, which
  a second time with the same log leaves as it is.
-/

namespace Footprint

/-! ### First elements by a key -/

section Firsts

variable {α β : Type} [DecidableEq β] {key : α → β}

/-- Looking a key up finds the same element. -/
theorem find?_firstsBy (items : List α) (k : β) :
    (firstsBy key items).find? (fun a => key a = k) = items.find? (fun a => key a = k) := by
  induction items with
  | nil => rfl
  | cons a rest ih =>
    rw [firstsBy]
    by_cases same : key a = k
    · rw [List.find?_cons_of_pos (by simpa using same),
        List.find?_cons_of_pos (by simpa using same)]
    · rw [List.find?_cons_of_neg (by simpa using same),
        List.find?_cons_of_neg (by simpa using same), List.find?_filter, ← ih]
      congr 1
      funext b
      by_cases found : key b = k
      · simp [found, Ne.symm same]
      · simp [found]

/-- Every key comes up once. -/
theorem nodup_map_firstsBy (items : List α) : ((firstsBy key items).map key).Nodup := by
  induction items with
  | nil => exact List.nodup_nil
  | cons a rest ih =>
    rw [firstsBy, List.map_cons, List.nodup_cons]
    constructor
    · intro mem
      obtain ⟨b, kept, same⟩ := List.mem_map.mp mem
      exact of_decide_eq_true (List.mem_filter.mp kept).2 same
    · exact ih.sublist (List.filter_sublist.map key)

theorem firstsBy_of_nodup {items : List α} (distinct : (items.map key).Nodup) :
    firstsBy key items = items := by
  induction items with
  | nil => rfl
  | cons a rest ih =>
    obtain ⟨fresh, others⟩ := List.nodup_cons.mp distinct
    rw [firstsBy, ih others, List.filter_eq_self.mpr]
    intro b mem
    exact decide_eq_true fun same => fresh (same ▸ List.mem_map_of_mem mem)

/-- What is asked of keys may be asked before or after the first elements are chosen. -/
theorem firstsBy_filter (p : β → Bool) (items : List α) :
    firstsBy key (items.filter fun b => p (key b)) =
      (firstsBy key items).filter fun b => p (key b) := by
  induction items with
  | nil => rfl
  | cons a rest ih =>
    by_cases kept : p (key a) = true
    · rw [List.filter_cons, if_pos kept, firstsBy, ih, firstsBy, List.filter_cons, if_pos kept,
        List.filter_filter, List.filter_filter]
      simp only [Bool.and_comm]
    · rw [List.filter_cons, if_neg kept, ih, firstsBy, List.filter_cons, if_neg kept,
        List.filter_filter]
      refine List.filter_congr fun b _ => ?_
      by_cases same : key b = key a
      · simp [same, kept]
      · simp [same]

/-- The keys of the first elements are the distinct keys in their order. -/
theorem map_firstsBy (items : List α) :
    (firstsBy key items).map key = (items.map key).eraseDups := by
  cases items with
  | nil => rfl
  | cons a rest =>
    have others : ((rest.map key).filter fun k => !k == key a) =
        (rest.filter fun b => key b ≠ key a).map key := by
      rw [List.filter_map]
      refine congrArg (List.map key) (List.filter_congr fun b _ => ?_)
      simp [beq_eq_decide]
    rw [firstsBy, ← firstsBy_filter (fun k => decide (k ≠ key a)), List.map_cons, List.map_cons,
      List.eraseDups_cons, others, map_firstsBy]
termination_by items.length
decreasing_by
  exact Nat.lt_succ_of_le (List.length_filter_le _ _)

end Firsts

namespace Bindings

/-- The attributes that are bound, in order. -/
def subjects (bs : Bindings) : List Attribute := bs.map (·.subject)

/-- No attribute is bound twice. -/
def Distinct (bs : Bindings) : Prop := bs.subjects.Nodup

variable {bs : Bindings} {a : Attribute} {log : List Descriptor}

/-! ### Looking up -/

theorem isBound_iff : bs.isBound a = true ↔ a ∈ bs.subjects := by
  simp [isBound, index?, subjects]

theorem find?_isSome_iff : (find? a bs).isSome = true ↔ a ∈ bs.subjects := by
  simp [find?, subjects]

theorem find?_eq_none_iff : find? a bs = none ↔ a ∉ bs.subjects := by
  rw [← find?_isSome_iff, Option.not_isSome_iff_eq_none]

theorem subject_of_find? {b : Binding} (found : find? a bs = some b) : b.subject = a := by
  simpa using List.find?_some found

/-- A binding is found under its attribute when no attribute is bound twice. -/
theorem find?_of_mem (distinct : bs.Distinct) {b : Binding} (mem : b ∈ bs) :
    find? b.subject bs = some b := by
  have bound : b.subject ∈ bs.subjects := List.mem_map_of_mem mem
  obtain ⟨c, found⟩ := Option.isSome_iff_exists.mp (find?_isSome_iff.mpr bound)
  rw [found, List.inj_on_of_nodup_map distinct (List.mem_of_find?_eq_some found) mem
    (subject_of_find? found)]

theorem find?_append (a : Attribute) (front back : Bindings) :
    find? a (front ++ back) = (find? a front).or (find? a back) :=
  List.find?_append

theorem subjects_append (front back : Bindings) :
    subjects (front ++ back) = front.subjects ++ back.subjects :=
  List.map_append

/-! ### Repeated attributes -/

theorem find?_dedup (a : Attribute) (bs : Bindings) : find? a bs.dedup = find? a bs :=
  find?_firstsBy bs a

theorem unitOf_dedup (a : Attribute) (bs : Bindings) : unitOf a bs.dedup = unitOf a bs := by
  rw [unitOf, unitOf, find?_dedup]

/-- The distinct attributes stay, in their order. -/
theorem subjects_dedup (bs : Bindings) : bs.dedup.subjects = bs.subjects.eraseDups :=
  map_firstsBy bs

theorem distinct_dedup (bs : Bindings) : bs.dedup.Distinct := nodup_map_firstsBy bs

theorem dedup_of_distinct (distinct : bs.Distinct) : bs.dedup = bs := firstsBy_of_nodup distinct

/-! ### Assignments -/

/-- A bound attribute has a first binding, and an assignment replaces its unit. -/
theorem exists_assign (bound : a ∈ bs.subjects) (unit : Option MeasureUnit) :
    ∃ before old after, bs = before ++ ⟨a, old⟩ :: after ∧ a ∉ subjects before ∧
      bs.assign a unit = .ok (before ++ ⟨a, unit⟩ :: after) := by
  obtain ⟨b, found⟩ := Option.isSome_iff_exists.mp (find?_isSome_iff.mpr bound)
  obtain ⟨same, before, after, split, others⟩ := List.find?_eq_some_iff_append.mp found
  obtain ⟨subject, old⟩ := b
  obtain rfl : subject = a := by simpa using same
  have absent : ∀ c ∈ before, c.subject ≠ subject := fun c mem => by simpa using others c mem
  refine ⟨before, old, after, split, ?_, ?_⟩
  · intro mem
    obtain ⟨c, inside, equal⟩ := List.mem_map.mp mem
    exact absent c inside equal
  · have place : index? subject bs = some before.length := by
      have none : before.findIdx? (fun c => c.subject = subject) = none := by
        simpa using absent
      rw [index?, split, List.findIdx?_append, none, List.findIdx?_cons]
      simp
    rw [assign, place, split]
    simp [List.modify_eq_take_drop]

/-- An assignment succeeds for the bound attributes only. -/
theorem assign_succeeds_iff (unit : Option MeasureUnit) :
    (∃ changed, bs.assign a unit = .ok changed) ↔ a ∈ bs.subjects := by
  constructor
  · rintro ⟨changed, done⟩
    rw [← isBound_iff, isBound]
    unfold assign at done
    split at done
    case h_1 place found => rw [found]; rfl
    case h_2 missing => cases done
  · intro bound
    obtain ⟨before, old, after, -, -, done⟩ := exists_assign bound unit
    exact ⟨_, done⟩

theorem subjects_of_assign {unit : Option MeasureUnit} {changed : Bindings}
    (done : bs.assign a unit = .ok changed) : changed.subjects = bs.subjects := by
  obtain ⟨before, old, after, split, -, result⟩ :=
    exists_assign ((assign_succeeds_iff unit).mp ⟨changed, done⟩) unit
  cases done.symm.trans result
  simp [split, subjects]

/-- The unit that an assignment sets is found; other attributes keep theirs. -/
theorem unitOf_of_assign {unit : Option MeasureUnit} {changed : Bindings}
    (done : bs.assign a unit = .ok changed) (other : Attribute) :
    unitOf other changed = if other = a then unit else unitOf other bs := by
  obtain ⟨before, old, after, split, fresh, result⟩ :=
    exists_assign ((assign_succeeds_iff unit).mp ⟨changed, done⟩) unit
  cases done.symm.trans result
  rw [unitOf, unitOf, split, find?_append, find?_append]
  by_cases same : other = a
  · subst same
    rw [find?_eq_none_iff.mpr fresh, if_pos rfl]
    simp [find?]
  · rw [if_neg same]
    simp [find?, Ne.symm same]

/-! ### The numeric attributes of a log -/

/-- The numeric attributes of a log, in its order and as often as it lists them. -/
def numericOf (log : List Descriptor) : List Attribute :=
  (log.filter (·.numeric)).map (·.subject)

theorem subjects_ofLog (log : List Descriptor) :
    (ofLog log).subjects = (numericOf log).eraseDups := by
  rw [numericOf, ← map_firstsBy, ofLog, subjects, List.map_map]
  rfl

theorem mem_subjects_ofLog : a ∈ (ofLog log).subjects ↔ a ∈ numericOf log := by
  rw [subjects_ofLog, List.mem_eraseDups]

theorem distinct_ofLog (log : List Descriptor) : (ofLog log).Distinct := by
  have keys := @nodup_map_firstsBy _ _ _ Descriptor.subject (log.filter (·.numeric))
  rwa [Distinct, subjects, ofLog, List.map_map]

theorem eq_unbound_of_mem_ofLog {b : Binding} (mem : b ∈ ofLog log) : b = .unbound b.subject := by
  obtain ⟨d, -, rfl⟩ := List.mem_map.mp mem
  rfl

/-! ### Reconciling with a log -/

/-- The bindings of the numeric attributes of the log, with the units they have. -/
def listed (bs : Bindings) (log : List Descriptor) : Bindings :=
  (ofLog log).map fun b => (find? b.subject bs).getD b

/-- The bindings of all other attributes, in their order. -/
def unlisted (bs : Bindings) (log : List Descriptor) : Bindings :=
  bs.filter fun b => b.subject ∉ numericOf log

theorem subjects_listed (bs : Bindings) (log : List Descriptor) :
    (bs.listed log).subjects = (ofLog log).subjects := by
  rw [listed, subjects, List.map_map]
  refine List.map_congr_left fun b _ => ?_
  cases found : find? b.subject bs with
  | none => simp [found]
  | some c => simp [found, subject_of_find? found]

/-- A listed attribute has the unit that it had, or none. -/
theorem find?_listed (bound : a ∈ numericOf log) :
    find? a (bs.listed log) = some ((find? a bs).getD (.unbound a)) := by
  have distinct : (bs.listed log).Distinct := by
    rw [Distinct, subjects_listed]
    exact distinct_ofLog log
  obtain ⟨b, mem, rfl⟩ := List.mem_map.mp (mem_subjects_ofLog.mpr bound)
  have entry : (find? b.subject bs).getD b ∈ bs.listed log := List.mem_map_of_mem mem
  have subject : ((find? b.subject bs).getD b).subject = b.subject := by
    cases found : find? b.subject bs with
    | none => rfl
    | some c => exact subject_of_find? found
  have found := find?_of_mem distinct entry
  rw [subject] at found
  rw [found, ← eq_unbound_of_mem_ofLog mem]

theorem find?_listed_eq_none (absent : a ∉ numericOf log) : find? a (bs.listed log) = none := by
  rwa [find?_eq_none_iff, subjects_listed, mem_subjects_ofLog]

theorem find?_unlisted (absent : a ∉ numericOf log) : find? a (bs.unlisted log) = find? a bs := by
  unfold find? unlisted
  rw [List.find?_filter]
  congr 1
  funext b
  by_cases same : b.subject = a
  · simp [same, absent]
  · simp [same]

/-- The listed bindings come first and the others follow. -/
theorem reconcile_eq (bs : Bindings) (log : List Descriptor) :
    bs.reconcile log = bs.dedup.listed log ++ bs.dedup.unlisted log := by
  have rest : ∀ b : Binding, (!(bs.dedup.listed log).isBound b.subject) =
      decide (b.subject ∉ numericOf log) := by
    intro b
    have bound : (bs.dedup.listed log).isBound b.subject = true ↔ b.subject ∈ numericOf log := by
      rw [isBound_iff, subjects_listed, mem_subjects_ofLog]
    by_cases inLog : b.subject ∈ numericOf log
    · simp [inLog, bound.mpr inLog]
    · simp [inLog, mt bound.mp inLog]
  simp only [reconcile, listed, unlisted, ← rest]

/-- Reconciling gives each numeric attribute of the log a binding, and changes no other. -/
theorem find?_reconcile (a : Attribute) (bs : Bindings) (log : List Descriptor) :
    find? a (bs.reconcile log) =
      if a ∈ numericOf log then some ((find? a bs).getD (.unbound a)) else find? a bs := by
  rw [reconcile_eq, find?_append, ← find?_dedup a bs]
  by_cases inLog : a ∈ numericOf log
  · rw [find?_listed inLog, if_pos inLog, Option.some_or]
  · rw [find?_listed_eq_none inLog, find?_unlisted inLog, if_neg inLog, Option.none_or]

/-- Reconciling changes no unit. -/
theorem unitOf_reconcile (a : Attribute) (bs : Bindings) (log : List Descriptor) :
    unitOf a (bs.reconcile log) = unitOf a bs := by
  rw [unitOf, unitOf, find?_reconcile]
  by_cases inLog : a ∈ numericOf log
  · rw [if_pos inLog]
    cases find? a bs with
    | none => rfl
    | some b => rfl
  · rw [if_neg inLog]

/-- Reconciling adds the numeric attributes of the log and drops none. -/
theorem mem_subjects_reconcile :
    a ∈ (bs.reconcile log).subjects ↔ a ∈ numericOf log ∨ a ∈ bs.subjects := by
  rw [← find?_isSome_iff, ← find?_isSome_iff, find?_reconcile]
  by_cases inLog : a ∈ numericOf log
  · simp only [inLog, if_true, Option.isSome_some, true_or]
  · simp only [inLog, if_false, false_or]

/-- Reconciling lists every attribute once. -/
theorem distinct_reconcile (bs : Bindings) (log : List Descriptor) :
    (bs.reconcile log).Distinct := by
  rw [reconcile_eq, Distinct, subjects_append, subjects_listed, List.nodup_append]
  refine ⟨distinct_ofLog log, ?_, ?_⟩
  · exact (distinct_dedup bs).sublist (List.filter_sublist.map _)
  · rintro a inLog b inRest rfl
    obtain ⟨b, kept, rfl⟩ := List.mem_map.mp inRest
    exact of_decide_eq_true (List.mem_filter.mp kept).2 (mem_subjects_ofLog.mp inLog)

/-- A list in line with a log is left as it is. -/
theorem reconcile_reconcile (bs : Bindings) (log : List Descriptor) :
    (bs.reconcile log).reconcile log = bs.reconcile log := by
  have front : (bs.reconcile log).listed log = bs.dedup.listed log := by
    refine List.map_congr_left fun b mem => ?_
    have inLog : b.subject ∈ numericOf log :=
      mem_subjects_ofLog.mp (List.mem_map_of_mem mem)
    rw [find?_reconcile, if_pos inLog, find?_dedup, Option.getD_some,
      ← eq_unbound_of_mem_ofLog mem]
  have none : (bs.dedup.listed log).unlisted log = [] := by
    refine List.filter_eq_nil_iff.mpr fun b mem => ?_
    have inLog : b.subject ∈ (bs.dedup.listed log).subjects := List.mem_map_of_mem mem
    rw [subjects_listed, mem_subjects_ofLog] at inLog
    simpa using inLog
  have back : (bs.reconcile log).unlisted log = bs.dedup.unlisted log := by
    unfold unlisted at none ⊢
    rw [reconcile_eq, List.filter_append, none, List.nil_append, unlisted, List.filter_filter]
    simp only [Bool.and_self]
  rw [reconcile_eq, dedup_of_distinct (distinct_reconcile bs log), front, back, ← reconcile_eq]

end Bindings

end Footprint
