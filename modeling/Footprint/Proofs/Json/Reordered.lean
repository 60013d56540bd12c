import Footprint.Proofs.Json.Record

/-!
Trees that differ in the order of members.

An object means the same whatever the order of its members, as long as no name stands in it twice.
Sorting all objects by name is then such a reordering; of members with equal names it would drop
all but the last.

* `Reordered.parts`: such trees are single values that are equal, or containers whose parts differ
  only in the order of members.
* `Reordered.readable_eq`, `Reordered.value?_eq`, `Reordered.freeValue_eq`, `Reordered.map?_eq`:
  what is read of single values, of free values and of maps is the same.
* `reordered_sorted`: a tree whose objects list each name once means the same when it is sorted.
* `namesOnce_present`, `namesOnce_ofMap`, `namesOnce_ofList`: written records, maps and lists are
  such trees if their parts are.
-/

namespace Footprint.Json

/-! ### Reorderings -/

/-- The trees differ only in the order of members. -/
inductive Reordered : Json → Json → Prop where
  | refl (j : Json) : Reordered j j
  | trans {a b c : Json} : Reordered a b → Reordered b c → Reordered a c
  | item {a b : Json} (before after : List Json) : Reordered a b →
      Reordered (.array (before ++ a :: after)) (.array (before ++ b :: after))
  | member {a b : Json} (before : List (String × Json)) (name : String)
      (after : List (String × Json)) : Reordered a b →
      Reordered (.object (before ++ (name, a) :: after)) (.object (before ++ (name, b) :: after))
  | members {a b : List (String × Json)} : a.Perm b → Reordered (.object a) (.object b)

/-- No object of the tree lists a name twice. -/
inductive NamesOnce : Json → Prop where
  | single {j : Json} : j.levels = 0 → NamesOnce j
  | array {items : List Json} : (∀ item ∈ items, NamesOnce item) → NamesOnce (.array items)
  | object {members : List (String × Json)} : (members.map (·.1)).Nodup →
      (∀ e ∈ members, NamesOnce e.2) → NamesOnce (.object members)

/-- The items of an array are reordered one by one. -/
theorem reordered_array {f : Json → Json} {items : List Json}
    (each : ∀ item ∈ items, Reordered item (f item)) (before : List Json) :
    Reordered (.array (before ++ items)) (.array (before ++ items.map f)) := by
  induction items generalizing before with
  | nil => exact .refl _
  | cons item rest ih =>
    have first := (each item List.mem_cons_self).item before rest
    have others := ih (fun j mem => each j (List.mem_cons_of_mem _ mem)) (before ++ [f item])
    rw [List.append_assoc, List.append_assoc] at others
    exact first.trans others

/-- The values of the members are reordered one by one. -/
theorem reordered_values {f : Json → Json} {members : List (String × Json)}
    (each : ∀ e ∈ members, Reordered e.2 (f e.2)) (before : List (String × Json)) :
    Reordered (.object (before ++ members))
      (.object (before ++ members.map fun e => (e.1, f e.2))) := by
  induction members generalizing before with
  | nil => exact .refl _
  | cons e rest ih =>
    have first := (each e List.mem_cons_self).member before e.1 rest
    have others := ih (fun d mem => each d (List.mem_cons_of_mem _ mem)) (before ++ [(e.1, f e.2)])
    rw [List.append_assoc, List.append_assoc] at others
    exact first.trans others

/-- Sorting reorders a tree in which no name stands twice. -/
theorem reordered_sorted {j : Json} (once : NamesOnce j) : Reordered j j.sorted := by
  induction j using tree_induction with
  | null | bool | int | float | string | unreadable => exact .refl _
  | array items ih =>
    cases once with
    | single flat => cases flat
    | array each =>
      rw [sorted, sortedItems_eq_map]
      exact reordered_array (fun item mem => ih item mem (each item mem)) []
  | object members ih =>
    cases once with
    | single flat => cases flat
    | object distinct each =>
      have values := reordered_values (fun e mem => ih e mem (each e mem)) []
      exact values.trans (.members (sortedMembers_perm distinct).symm)

/-! ### The parts of reordered trees -/

/-- Members of one name, whose values are related as the name asks. -/
structure Paired (R : String → Json → Json → Prop) (d e : String × Json) : Prop where
  name : d.1 = e.1
  value : R d.1 d.2 e.2

theorem forall₂_trans {α β γ : Type} {R : α → β → Prop} {S : β → γ → Prop} {T : α → γ → Prop}
    (step : ∀ a b c, R a b → S b c → T a c) {as : List α} {bs : List β} {cs : List γ}
    (first : List.Forall₂ R as bs) (second : List.Forall₂ S bs cs) : List.Forall₂ T as cs := by
  induction first generalizing cs with
  | nil =>
    cases second
    exact .nil
  | cons head _ ih =>
    cases second with
    | cons next rest => exact .cons (step _ _ _ head next) (ih rest)

theorem names_of_paired {R : String → Json → Json → Prop} {a b : List (String × Json)}
    (paired : List.Forall₂ (Paired R) a b) : a.map (·.1) = b.map (·.1) := by
  induction paired with
  | nil => rfl
  | cons head _ ih => rw [List.map_cons, List.map_cons, head.name, ih]

/-- How trees that differ only in the order of members are built. -/
inductive ReorderedParts : Json → Json → Prop where
  | single {j : Json} : j.levels = 0 → ReorderedParts j j
  | array {a b : List Json} : List.Forall₂ Reordered a b → ReorderedParts (.array a) (.array b)
  | object {a kept b : List (String × Json)} : List.Forall₂ (Paired fun _ => Reordered) a kept →
      b.Perm kept → ReorderedParts (.object a) (.object b)

theorem reorderedParts_refl (j : Json) : ReorderedParts j j := by
  cases j with
  | null | bool | int | float | string | unreadable => exact .single rfl
  | array items => exact .array (List.forall₂_same.mpr fun item _ => .refl item)
  | object members => exact .object (List.forall₂_same.mpr fun e _ => ⟨rfl, .refl e.2⟩) (.refl _)

theorem ReorderedParts.trans {a b c : Json} (first : ReorderedParts a b)
    (second : ReorderedParts b c) : ReorderedParts a c := by
  cases first with
  | single => exact second
  | array items =>
    cases second with
    | single flat => cases flat
    | array others => exact .array (forall₂_trans (fun _ _ _ => .trans) items others)
  | object paired perm =>
    cases second with
    | single flat => cases flat
    | object next permNext =>
      -- The values are reordered first, and both reorderings of the members come after that.
      obtain ⟨between, paired', perm'⟩ := List.perm_comp_forall₂ perm.symm next
      refine .object (forall₂_trans ?_ paired paired') (permNext.trans perm'.symm)
      intro d e f left right
      exact ⟨left.name.trans right.name, left.value.trans right.value⟩

theorem Reordered.parts {a b : Json} (same : Reordered a b) : ReorderedParts a b := by
  induction same with
  | refl j => exact reorderedParts_refl j
  | trans _ _ first second => exact first.trans second
  | item before after inner _ =>
    refine .array (List.rel_append ?_ (.cons inner ?_))
    · exact List.forall₂_same.mpr fun item _ => .refl item
    · exact List.forall₂_same.mpr fun item _ => .refl item
  | @member a b before name after inner _ =>
    have head : Paired (fun _ => Reordered) (name, a) (name, b) := ⟨rfl, inner⟩
    refine .object (List.rel_append ?_ (.cons head ?_)) (.refl _)
    · exact List.forall₂_same.mpr fun e _ => ⟨rfl, .refl e.2⟩
    · exact List.forall₂_same.mpr fun e _ => ⟨rfl, .refl e.2⟩
  | members perm =>
    exact .object (List.forall₂_same.mpr fun e _ => ⟨rfl, .refl e.2⟩) perm.symm

/-! ### What is read of reordered trees -/

theorem Reordered.readable_eq {a b : Json} (same : Reordered a b) : a.readable = b.readable := by
  induction same with
  | refl => rfl
  | trans _ _ first second => rw [first, second]
  | item before after _ ih =>
    rw [Bool.eq_iff_iff, readable, readable, readableItems_iff, readableItems_iff]
    simp only [List.forall_mem_append, List.forall_mem_cons, ih]
  | member before name after _ ih =>
    rw [Bool.eq_iff_iff, readable, readable, readableMembers_iff, readableMembers_iff]
    simp only [List.forall_mem_append, List.forall_mem_cons, ih]
  | members perm =>
    rw [Bool.eq_iff_iff, readable, readable, readableMembers_iff, readableMembers_iff]
    exact ⟨fun all e mem => all e (perm.mem_iff.mpr mem),
      fun all e mem => all e (perm.mem_iff.mp mem)⟩

theorem Reordered.null_iff {a b : Json} (same : Reordered a b) : a = .null ↔ b = .null := by
  cases same.parts with
  | single => exact Iff.rfl
  | array => exact ⟨Json.noConfusion, Json.noConfusion⟩
  | object => exact ⟨Json.noConfusion, Json.noConfusion⟩

/-- The reader has a value for single values only. -/
structure ReadsSingle {α : Type} (value? : Json → Option α) : Prop where
  array : ∀ items, value? (.array items) = none
  object : ∀ members, value? (.object members) = none

theorem Reordered.value?_eq {α : Type} {value? : Json → Option α} (reads : ReadsSingle value?)
    {a b : Json} (same : Reordered a b) : value? a = value? b := by
  cases same.parts with
  | single => rfl
  | array => rw [reads.array, reads.array]
  | object => rw [reads.object, reads.object]

theorem namesOnce_array_iff {items : List Json} :
    NamesOnce (.array items) ↔ ∀ item ∈ items, NamesOnce item := by
  constructor
  · intro once
    cases once with
    | single flat => cases flat
    | array each => exact each
  · exact .array

theorem namesOnce_object_iff {members : List (String × Json)} :
    NamesOnce (.object members) ↔ (members.map (·.1)).Nodup ∧ ∀ e ∈ members, NamesOnce e.2 := by
  constructor
  · intro once
    cases once with
    | single flat => cases flat
    | object distinct each => exact ⟨distinct, each⟩
  · exact fun once => .object once.1 once.2

theorem NamesOnce.filter {members : List (String × Json)} {p : String × Json → Bool}
    (once : NamesOnce (.object members)) : NamesOnce (.object (members.filter p)) := by
  obtain ⟨distinct, each⟩ := namesOnce_object_iff.mp once
  refine .object (distinct.sublist (List.filter_sublist.map _)) fun e mem => ?_
  exact each e (List.mem_filter.mp mem).1

theorem Reordered.namesOnce {a b : Json} (same : Reordered a b) (once : NamesOnce a) :
    NamesOnce b := by
  induction same with
  | refl => exact once
  | trans _ _ first second => exact second (first once)
  | item before after _ ih =>
    rw [namesOnce_array_iff] at once ⊢
    simp only [List.forall_mem_append, List.forall_mem_cons] at once ⊢
    exact ⟨once.1, ih once.2.1, once.2.2⟩
  | member before name after _ ih =>
    rw [namesOnce_object_iff] at once ⊢
    simp only [List.map_append, List.map_cons, List.forall_mem_append, List.forall_mem_cons]
      at once ⊢
    exact ⟨once.1, once.2.1, ih once.2.2.1, once.2.2.2⟩
  | members perm =>
    rw [namesOnce_object_iff] at once ⊢
    exact ⟨(perm.map (·.1)).nodup_iff.mp once.1, fun e mem => once.2 e (perm.mem_iff.mpr mem)⟩

/-- Members in another order are sorted alike. -/
theorem sortedMembers_eq_of_perm {a b : List (String × Json)} (perm : a.Perm b)
    (distinct : (a.map (·.1)).Nodup) : sortedMembers [] a = sortedMembers [] b := by
  have ascending : ∀ members : List (String × Json),
      (sortedMembers [] members).Pairwise fun d e => d.1 < e.1 :=
    fun members => (ordered_sortedMembers members [] .nil (by simp)).1
  have first := sortedMembers_perm distinct
  have second := sortedMembers_perm ((perm.map (·.1)).nodup_iff.mp distinct)
  have both := (first.trans (perm.map _)).trans second.symm
  exact congrArg NameMap.entries
    (@NameMap.eq_of_perm _ ⟨_, ascending a⟩ ⟨_, ascending b⟩ both)

theorem Reordered.sorted_eq {a b : Json} (same : Reordered a b) (once : NamesOnce a) :
    a.sorted = b.sorted := by
  induction same with
  | refl => rfl
  | trans first _ ih ih' => rw [ih once, ih' (first.namesOnce once)]
  | item before after _ ih =>
    rw [namesOnce_array_iff] at once
    have inner := ih (once _ (by simp))
    simp only [sorted, sortedItems_eq_map, List.map_append, List.map_cons, inner]
  | member before name after _ ih =>
    have inner := ih ((namesOnce_object_iff.mp once).2 (name, _) (by simp))
    simp only [sorted, sortedMembers_eq_foldl, List.map_append, List.map_cons, inner]
  | members perm =>
    rw [sorted, sorted, sortedMembers_eq_of_perm perm (namesOnce_object_iff.mp once).1]

theorem Reordered.freeValue_eq {a b : Json} (same : Reordered a b) (once : NamesOnce a) :
    Value.ofJson? a = Value.ofJson? b := by
  have sorted := same.sorted_eq once
  have readable := same.readable_eq
  by_cases legible : a.readable = true
  · have other : b.readable = true := readable ▸ legible
    simp only [Value.ofJson?, legible, other, sorted, dite_true]
  · have other : ¬ b.readable = true := readable ▸ legible
    rw [Value.ofJson?, Value.ofJson?, dif_neg legible, dif_neg other]

theorem Reordered.map?_eq {α : Type} {value? : Json → Option α} (reads : ReadsSingle value?)
    {a b : Json} (same : Reordered a b) (once : NamesOnce a) :
    a.map? value? = b.map? value? := by
  cases same.parts with
  | single => rfl
  | array => rfl
  | @object a kept b paired perm =>
    have distinct := (namesOnce_object_iff.mp once).1
    rw [names_of_paired paired] at distinct
    have values : (object a).map? value? = (object kept).map? value? := by
      rw [map?, map?, members?, members?, mapM_eq_of_forall₂ (paired.imp fun d e pair => ?_)]
      rw [pair.name, pair.value.value?_eq reads]
    rw [values, map?_eq_of_perm perm.symm distinct]

/-! ### Written trees -/

theorem namesOnce_ofList {α : Type} {toJson : α → Json} {items : List α}
    (each : ∀ a ∈ items, NamesOnce (toJson a)) : NamesOnce (ofList toJson items) := by
  refine .array fun item mem => ?_
  obtain ⟨a, given, rfl⟩ := List.mem_map.mp mem
  exact each a given

theorem namesOnce_ofOption {α : Type} {toJson : α → Json} {value : Option α}
    (each : ∀ a, value = some a → NamesOnce (toJson a)) : NamesOnce (ofOption toJson value) := by
  cases value with
  | none => exact .single rfl
  | some a => exact each a rfl

theorem namesOnce_ofMap {α : Type} {toJson : α → Json} {m : NameMap α}
    (each : ∀ a, NamesOnce (toJson a)) : NamesOnce (ofMap toJson m) := by
  refine .object ?_ fun e mem => ?_
  · rw [List.map_map]
    exact m.nodup_names
  · obtain ⟨d, -, rfl⟩ := List.mem_map.mp mem
    exact each d.2

/-- A record lists each name once if its fields have different names. -/
theorem namesOnce_present {fields : List (String × Option Json)}
    (distinct : (fields.map (·.1)).Nodup)
    (each : ∀ f ∈ fields, ∀ value, f.2 = some value → NamesOnce value) :
    NamesOnce (.object (present fields)) :=
  .object (nodup_present distinct) fun _ mem => each _ (mem_present_iff.mp mem) _ rfl

/-- A field without objects. -/
theorem namesOnce_map_string {value : Option String} {j : Json}
    (found : value.map .string = some j) : NamesOnce j := by
  obtain ⟨_, -, rfl⟩ := Option.map_eq_some_iff.mp found
  exact .single rfl

theorem orderedItems_iff {items : List Json} :
    orderedItems items = true ↔ ∀ item ∈ items, item.ordered = true := by
  induction items with
  | nil => simp [orderedItems]
  | cons item rest ih => simp [orderedItems, ih]

/-- A tree whose members are in ascending order lists each name once. -/
theorem namesOnce_of_ordered {j : Json} (ordered : j.ordered = true) : NamesOnce j := by
  induction j using tree_induction with
  | null | bool | int | float | string | unreadable => exact .single rfl
  | array items ih =>
    refine .array fun item mem => ih item mem ?_
    exact orderedItems_iff.mp ordered item mem
  | object members ih =>
    simp only [Json.ordered, Bool.and_eq_true, decide_eq_true_eq] at ordered
    obtain ⟨ascending, each⟩ := ordered
    exact .object (NameMap.nodup_of_ascending ascending) fun e mem =>
      ih e mem (orderedMembers_iff.mp each e mem)

end Footprint.Json
