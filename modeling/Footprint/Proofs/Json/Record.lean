import Footprint.Json.Record
import Footprint.Proofs.Json.Carried
import Mathlib.Data.List.Forall2

/-!
Reading written records.

A record is written as its fields in order, those without a value left out (`present`). Its members
may arrive in another order, and each value as it is carried (`arriving`). From what arrives every
field is read: from an object (`Carries.fields?_present`), from one that names its kind as well
(`Carries.tagged?_present`), and from one whose fields stand beside those of another record
(`openFields?_of_perm`). Lists are read element by element (`Carries.list?_ofList`), and maps as
they are (`Carries.map?_ofMap`).
-/

namespace Footprint.Json

/-- The members of a record, fields without a value left out. -/
def present (fields : List (String × Option Json)) : List (String × Json) :=
  fields.filterMap fun f => f.2.map fun value => (f.1, value)

theorem present_cons_none (name : String) (fields : List (String × Option Json)) :
    present ((name, none) :: fields) = present fields := rfl

theorem present_cons_some (name : String) (value : Json) (fields : List (String × Option Json)) :
    present ((name, some value) :: fields) = (name, value) :: present fields := rfl

theorem present_append (a b : List (String × Option Json)) :
    present (a ++ b) = present a ++ present b :=
  List.filterMap_append

/-- The members that stand are the fields that have a value. -/
theorem mem_present_iff {fields : List (String × Option Json)} {e : String × Json} :
    e ∈ present fields ↔ (e.1, some e.2) ∈ fields := by
  rw [present, List.mem_filterMap]
  constructor
  · rintro ⟨⟨name, value⟩, mem, found⟩
    obtain ⟨j, rfl, rfl⟩ := Option.map_eq_some_iff.mp found
    exact mem
  · exact fun mem => ⟨_, mem, rfl⟩

/-- The name of a written member is that of a field. -/
theorem name_of_mem_present {fields : List (String × Option Json)} {e : String × Json}
    (mem : e ∈ present fields) : e.1 ∈ fields.map (·.1) :=
  List.mem_map_of_mem (mem_present_iff.mp mem)

theorem written_present {fractions : Prop} {levels : Nat} {fields : List (String × Option Json)}
    (each : ∀ f ∈ fields, ∀ value, f.2 = some value → Written fractions levels value) :
    ∀ e ∈ present fields, Written fractions levels e.2 :=
  fun _ mem => each _ (mem_present_iff.mp mem) _ rfl

theorem written_map_string {fractions : Prop} {levels : Nat} {value : Option String} {j : Json}
    (found : value.map .string = some j) : Written fractions levels j := by
  obtain ⟨_, -, rfl⟩ := Option.map_eq_some_iff.mp found
  exact .string

/-- The fields of a record, with their values as `f` carries them. -/
def arriving (f : Json → Json) (fields : List (String × Option Json)) :
    List (String × Option Json) :=
  fields.map fun e => (e.1, e.2.map f)

section Arriving

variable (f : Json → Json) (fields : List (String × Option Json))

theorem arriving_append (others : List (String × Option Json)) :
    arriving f (others ++ fields) = arriving f others ++ arriving f fields :=
  List.map_append

theorem names_arriving : (arriving f fields).map (·.1) = fields.map (·.1) := by
  rw [arriving, List.map_map]
  rfl

theorem values_arriving : (arriving f fields).map (·.2) = fields.map fun e => e.2.map f := by
  rw [arriving, List.map_map]
  rfl

theorem present_arriving :
    present (arriving f fields) = (present fields).map fun e => (e.1, f e.2) := by
  rw [present, arriving, List.filterMap_map, present, List.map_filterMap]
  refine List.filterMap_congr fun e _ => ?_
  simp only [Function.comp_apply, Option.map_map]
  rfl

end Arriving

/-- A name that no field has is no name of a member that stands. -/
theorem fresh_present {name : String} {fields : List (String × Option Json)}
    (fresh : name ∉ fields.map (·.1)) : name ∉ (present fields).map (·.1) := by
  intro mem
  obtain ⟨e, given, rfl⟩ := List.mem_map.mp mem
  exact fresh (name_of_mem_present given)

/-- The names of the members that stand are different when those of the fields are. -/
theorem nodup_present {fields : List (String × Option Json)}
    (distinct : (fields.map (·.1)).Nodup) : ((present fields).map (·.1)).Nodup := by
  induction fields with
  | nil => exact .nil
  | cons e rest ih =>
    obtain ⟨name, value⟩ := e
    obtain ⟨fresh, tail⟩ := List.nodup_cons.mp distinct
    cases value with
    | none => exact ih tail
    | some j => exact List.nodup_cons.mpr ⟨fresh_present fresh, ih tail⟩

/-- The members of a record arrive as its fields do. -/
theorem Carries.object_present {f : Json → Json} (carries : Carries f)
    {fields : List (String × Option Json)} (distinct : (fields.map (·.1)).Nodup) :
    ∃ arrived, f (.object (present fields)) = .object arrived ∧
      arrived.Perm (present (arriving f fields)) := by
  obtain ⟨arrived, received, perm⟩ := carries.object (nodup_present distinct)
  exact ⟨arrived, received, present_arriving f fields ▸ perm⟩

/-! ### Fields -/

section Members

variable {name : String} {members : List (String × Json)}

theorem filter_name_eq_nil (fresh : name ∉ members.map (·.1)) :
    members.filter (fun e => e.1 = name) = [] := by
  refine List.filter_eq_nil_iff.mpr fun e mem same => fresh ?_
  rw [← of_decide_eq_true same]
  exact List.mem_map_of_mem mem

theorem memberOnce?_of_not_mem (fresh : name ∉ members.map (·.1)) :
    memberOnce? name members = some none := by
  rw [memberOnce?, filter_name_eq_nil fresh]

theorem memberOnce?_cons_self {value : Json} (fresh : name ∉ members.map (·.1)) :
    memberOnce? name ((name, value) :: members) = some (some value) := by
  rw [memberOnce?, List.filter_cons_of_pos (by simp), filter_name_eq_nil fresh]

theorem memberOnce?_cons_of_ne {e : String × Json} (other : e.1 ≠ name) :
    memberOnce? name (e :: members) = memberOnce? name members := by
  rw [memberOnce?, List.filter_cons_of_neg (by simpa using other), memberOnce?]

theorem memberOnce?_append {added : List (String × Json)} (fresh : name ∉ added.map (·.1)) :
    memberOnce? name (members ++ added) = memberOnce? name members := by
  rw [memberOnce?, List.filter_append, filter_name_eq_nil fresh, List.append_nil, memberOnce?]

theorem memberOnce?_filter_ne {dropped : String} (other : name ≠ dropped) :
    memberOnce? name (members.filter fun e => e.1 ≠ dropped) = memberOnce? name members := by
  have same : (members.filter fun e => e.1 ≠ dropped).filter (fun e => e.1 = name) =
      members.filter fun e => e.1 = name := by
    rw [List.filter_filter]
    refine List.filter_congr fun e _ => ?_
    by_cases found : e.1 = name
    · simp [found, other]
    · simp [found]
  rw [memberOnce?, same, memberOnce?]

end Members

theorem memberOnce?_present {name : String} {value : Option Json}
    {fields : List (String × Option Json)} (distinct : (fields.map (·.1)).Nodup)
    (mem : (name, value) ∈ fields) : memberOnce? name (present fields) = some value := by
  induction fields with
  | nil => cases mem
  | cons f fields ih =>
    obtain ⟨fresh, others⟩ := List.nodup_cons.mp distinct
    rcases List.mem_cons.mp mem with rfl | mem
    · cases value with
      | none =>
        rw [present_cons_none]
        exact memberOnce?_of_not_mem (fresh_present fresh)
      | some j =>
        rw [present_cons_some]
        exact memberOnce?_cons_self (fresh_present fresh)
    · have passed := ih others mem
      have different : f.1 ≠ name := fun same =>
        fresh (List.mem_map.mpr ⟨(name, value), mem, same.symm⟩)
      obtain ⟨first, found⟩ := f
      cases found with
      | none => exact passed
      | some j => exact (memberOnce?_cons_of_ne different).trans passed

/-- A member that stands at most once is found in whatever order. -/
theorem memberOnce?_of_perm {name : String} {value : Option Json}
    {members arrived : List (String × Json)} (perm : arrived.Perm members)
    (once : memberOnce? name members = some value) : memberOnce? name arrived = some value := by
  have chosen := perm.filter fun e => e.1 = name
  unfold memberOnce? at once ⊢
  split at once
  case h_1 none => rw [none, List.perm_nil] at chosen; rw [chosen]; exact once
  case h_2 one => rw [one, List.perm_singleton] at chosen; rw [chosen]; exact once
  case h_3 => cases once

/-! ### Element by element -/

theorem mapM_eq_some_map {α β : Type} {f : α → Option β} {g : α → β} {items : List α}
    (each : ∀ a ∈ items, f a = some (g a)) : items.mapM f = some (items.map g) := by
  induction items with
  | nil => rfl
  | cons a items ih =>
    rw [List.mapM_cons, each a List.mem_cons_self,
      ih fun b mem => each b (List.mem_cons_of_mem _ mem)]
    rfl

theorem mapM_eq_of_forall₂ {α β : Type} {f : α → Option β} {items others : List α}
    (same : List.Forall₂ (fun a b => f a = f b) items others) : items.mapM f = others.mapM f := by
  induction same with
  | nil => rfl
  | cons first _ ih => rw [List.mapM_cons, List.mapM_cons, first, ih]

theorem exists_mapM_forall₂ {α β : Type} {f : α → Option β} {R : α → β → Prop} {items : List α}
    (each : ∀ a ∈ items, ∃ b, f a = some b ∧ R a b) :
    ∃ read, items.mapM f = some read ∧ List.Forall₂ R items read := by
  induction items with
  | nil => exact ⟨[], rfl, .nil⟩
  | cons a items ih =>
    obtain ⟨b, first, related⟩ := each a List.mem_cons_self
    obtain ⟨read, others, all⟩ := ih fun c mem => each c (List.mem_cons_of_mem _ mem)
    exact ⟨b :: read, by rw [List.mapM_cons, first, others]; rfl, .cons related all⟩

theorem mapM_eq_some_filterMap {α β : Type} {f : α → Option β} {items : List α}
    (each : ∀ a ∈ items, (f a).isSome = true) : items.mapM f = some (items.filterMap f) := by
  induction items with
  | nil => rfl
  | cons a items ih =>
    obtain ⟨b, found⟩ := Option.isSome_iff_exists.mp (each a List.mem_cons_self)
    rw [List.mapM_cons, found, ih fun c mem => each c (List.mem_cons_of_mem _ mem),
      List.filterMap_cons_some found]
    rfl

theorem isSome_mapM_iff {α β : Type} {f : α → Option β} {items : List α} :
    (items.mapM f).isSome = true ↔ ∀ a ∈ items, (f a).isSome = true := by
  induction items with
  | nil => simp
  | cons a items ih =>
    rw [List.mapM_cons, List.forall_mem_cons, ← ih]
    cases f a <;> cases items.mapM f <;> simp

/-! ### Members in any order -/

section InAnyOrder

variable {members : List (String × Json)} {fields : List (String × Option Json)}

/-- Some of the fields of a record are read, in whatever order its members stand. -/
theorem memberOnce?_fields {chosen : List (String × Option Json)}
    (perm : members.Perm (present fields)) (distinct : (fields.map (·.1)).Nodup)
    (sub : ∀ f ∈ chosen, f ∈ fields) :
    (chosen.map (·.1)).mapM (fun name => memberOnce? name members) = some (chosen.map (·.2)) := by
  rw [List.mapM_map]
  exact mapM_eq_some_map fun f mem =>
    memberOnce?_of_perm perm (memberOnce?_present distinct (sub f mem))

theorem fields?_of_perm (perm : members.Perm (present fields))
    (distinct : (fields.map (·.1)).Nodup) :
    fields? (fields.map (·.1)) (.object members) = some (fields.map (·.2)) :=
  memberOnce?_fields perm distinct fun _ mem => mem

theorem readableMembers_of_perm (perm : members.Perm (present fields))
    (legible : ∀ e ∈ present fields, e.2.readable = true) : readableMembers members = true :=
  readableMembers_iff.mpr fun e mem => legible e (perm.mem_iff.mp mem)

/-- The fields behind those of another record are read; the members of the other record are the
rest. -/
theorem openFields?_of_perm {others : List (String × Option Json)}
    (perm : members.Perm (present (others ++ fields)))
    (distinct : ((others ++ fields).map (·.1)).Nodup)
    (legible : ∀ e ∈ present others, e.2.readable = true) :
    ∃ rest, openFields? (fields.map (·.1)) (.object members) = some (fields.map (·.2), rest) ∧
      rest.Perm (present others) := by
  have apart : ∀ a ∈ others.map (·.1), ∀ b ∈ fields.map (·.1), a ≠ b := by
    rw [List.map_append, List.nodup_append] at distinct
    exact distinct.2.2
  have kept : (present (others ++ fields)).filter (fun e => e.1 ∉ fields.map (·.1)) =
      present others := by
    rw [present_append, List.filter_append, List.filter_eq_self.mpr, List.filter_eq_nil_iff.mpr,
      List.append_nil]
    · intro e mem outside
      exact of_decide_eq_true outside (name_of_mem_present mem)
    · intro e mem
      exact decide_eq_true fun inside => apart _ (name_of_mem_present mem) _ inside rfl
  have values := memberOnce?_fields perm distinct fun f mem => List.mem_append_right others mem
  have rest := perm.filter fun e => e.1 ∉ fields.map (·.1)
  rw [kept] at rest
  refine ⟨_, ?_, rest⟩
  simp only [openFields?, values, readableMembers_of_perm rest legible, if_true]
  rfl

/-- A kind beside some fields is read; the fields are the rest. -/
theorem tagged?_of_perm (held : Bool) {tag kind : String} {kinds : List String}
    (perm : members.Perm ((tag, .string kind) :: present fields)) (known : kind ∈ kinds)
    (fresh : tag ∉ fields.map (·.1)) (legible : ∀ e ∈ present fields, e.2.readable = true) :
    ∃ rest, tagged? held tag kinds (.object members) = some (kind, .object rest) ∧
      rest.Perm (present fields) := by
  have once : memberOnce? tag ((tag, .string kind) :: present fields) =
      some (some (.string kind)) := memberOnce?_cons_self (fresh_present fresh)
  have kept : ((tag, Json.string kind) :: present fields).filter (fun e => e.1 ≠ tag) =
      present fields := by
    rw [List.filter_cons_of_neg (by simp), List.filter_eq_self]
    intro e mem
    exact decide_eq_true fun same => fresh (same ▸ name_of_mem_present mem)
  have rest := perm.filter fun e => e.1 ≠ tag
  rw [kept] at rest
  refine ⟨_, ?_, rest⟩
  simp only [tagged?, memberOnce?_of_perm perm once, readableMembers_of_perm rest legible, if_true]
  simp [kind?, known]

end InAnyOrder

/-! ### Options -/

section Options

variable {α : Type} {value? : Json → Option α} {written : α → Json}

theorem nullable?_of_ne_null {j : Json} (notNull : j ≠ .null) :
    nullable? value? j = (value? j).map some := by
  unfold nullable?
  split
  case h_1 => exact absurd rfl notNull
  case h_2 => rfl

/-- A field that may be missing is read by its presence or its absence. -/
theorem optional_map (notNull : ∀ a, written a ≠ .null) (value : Option α) :
    optional value? (value.map written) = value.mapM fun a => value? (written a) := by
  cases value with
  | none => rfl
  | some a => exact nullable?_of_ne_null (notNull a)

theorem optional_map_self (notNull : ∀ a, written a ≠ .null)
    (each : ∀ a, value? (written a) = some a) (value : Option α) :
    optional value? (value.map written) = some value := by
  rw [optional_map notNull, funext each]
  cases value with
  | none => rfl
  | some a => rfl

theorem isSome_mapM_option_iff {β : Type} {f : α → Option β} {value : Option α} :
    (value.mapM f).isSome = true ↔ ∀ a, value = some a → (f a).isSome = true := by
  cases value with
  | none => simp
  | some a =>
    rw [Option.mapM_some]
    cases found : f a <;> simp [found]

/-- A choice that may be missing is read as what is read of it. -/
theorem exists_mapM_rel {β : Type} {f : α → Option β} {R : α → β → Prop} {value : Option α}
    (each : ∀ a, value = some a → ∃ b, f a = some b ∧ R a b) :
    ∃ read, value.mapM f = some read ∧ Option.Rel R value read := by
  cases value with
  | none => exact ⟨none, rfl, .none⟩
  | some a =>
    obtain ⟨b, found, related⟩ := each a rfl
    refine ⟨some b, ?_, .some related⟩
    rw [Option.mapM_some, found]
    rfl

end Options

/-! ### Maps -/

/-- What is read of the members keeps their names. -/
theorem nodup_filterMap_members {α : Type} {value? : Json → Option α}
    {members : List (String × Json)} (distinct : (members.map (·.1)).Nodup) :
    ((members.filterMap fun e => (value? e.2).map fun a => (e.1, a)).map (·.1)).Nodup := by
  refine distinct.sublist ?_
  clear distinct
  induction members with
  | nil => exact .slnil
  | cons e rest ih =>
    cases found : value? e.2 with
    | none =>
      rw [List.filterMap_cons_none (by rw [found]; rfl), List.map_cons]
      exact ih.cons _
    | some a =>
      rw [List.filterMap_cons_some (by rw [found]; rfl), List.map_cons, List.map_cons]
      exact ih.cons_cons _

/-- Members of different names are read as the same map in whatever order. -/
theorem map?_eq_of_perm {α : Type} {value? : Json → Option α} {a b : List (String × Json)}
    (perm : a.Perm b) (distinct : (a.map (·.1)).Nodup) :
    (object a).map? value? = (object b).map? value? := by
  rw [map?, map?, members?, members?]
  by_cases all : ∀ e ∈ a, ((value? e.2).map fun x => (e.1, x)).isSome = true
  · have allB : ∀ e ∈ b, ((value? e.2).map fun x => (e.1, x)).isSome = true :=
      fun e mem => all e (perm.mem_iff.mpr mem)
    rw [mapM_eq_some_filterMap all, mapM_eq_some_filterMap allB, Option.map_some, Option.map_some,
      NameMap.ofList_eq_of_perm (perm.filterMap _) (nodup_filterMap_members distinct)]
  · have notAllB : ¬ ∀ e ∈ b, ((value? e.2).map fun x => (e.1, x)).isSome = true :=
      fun allB => all fun e mem => allB e (perm.mem_iff.mp mem)
    rw [← isSome_mapM_iff, Option.not_isSome_iff_eq_none] at all notAllB
    rw [all, notAllB]

/-- A map is read from its members in whatever order. -/
theorem map?_of_perm {α : Type} {value? : Json → Option α} {written : α → Json}
    (each : ∀ a, value? (written a) = some a) {m : NameMap α} {members : List (String × Json)}
    (perm : members.Perm (m.entries.map fun e => (e.1, written e.2))) :
    (object members).map? value? = some m := by
  have read : ∀ e : String × α,
      ((value? (written e.2)).map fun a => (e.1, a)) = some e := by
    intro e
    rw [each, Option.map_some]
  have all : ∀ d ∈ members, ((value? d.2).map fun a => (d.1, a)).isSome = true := by
    intro d mem
    obtain ⟨e, -, rfl⟩ := List.mem_map.mp (perm.mem_iff.mp mem)
    exact Option.isSome_iff_exists.mpr ⟨e, read e⟩
  have entries := perm.filterMap fun d => (value? d.2).map fun a => (d.1, a)
  rw [List.filterMap_map] at entries
  have same := entries.trans (.of_eq ((List.filterMap_congr fun e _ => read e).trans
    List.filterMap_some))
  rw [map?, members?, mapM_eq_some_filterMap all, Option.map_some,
    NameMap.ofList_of_perm m same]

/-! ### Records that are carried -/

section Carried

variable {f : Json → Json} (carries : Carries f)
include carries

theorem Carries.legible {fields : List (String × Option Json)}
    (legible : ∀ e ∈ present fields, e.2.readable = true) :
    ∀ e ∈ present (arriving f fields), e.2.readable = true := by
  rw [present_arriving]
  intro e mem
  obtain ⟨d, given, rfl⟩ := List.mem_map.mp mem
  exact carries.readable (legible d given)

/-- The fields of a record are read as they are carried. -/
theorem Carries.fields?_present (fields : List (String × Option Json))
    (distinct : (fields.map (·.1)).Nodup) :
    fields? (fields.map (·.1)) (f (.object (present fields))) =
      some (fields.map fun e => e.2.map f) := by
  obtain ⟨arrived, received, perm⟩ := carries.object_present distinct
  rw [← names_arriving f] at distinct
  rw [received, ← names_arriving f, fields?_of_perm perm distinct, values_arriving]

/-- The kind of a record is read, and its fields from the rest. -/
theorem Carries.tagged?_present (held : Bool) {tag kind : String} {kinds : List String}
    (fields : List (String × Option Json)) (known : kind ∈ kinds)
    (distinct : (tag :: fields.map (·.1)).Nodup)
    (legible : ∀ e ∈ present fields, e.2.readable = true) :
    ∃ rest, tagged? held tag kinds (f (.object ((tag, .string kind) :: present fields))) =
        some (kind, rest) ∧
      fields? (fields.map (·.1)) rest = some (fields.map fun e => e.2.map f) := by
  obtain ⟨arrived, received, perm⟩ :=
    @Carries.object_present f carries ((tag, some (.string kind)) :: fields) distinct
  rw [present_cons_some] at received
  have tagFirst : arriving f ((tag, some (.string kind)) :: fields) =
      (tag, some (.string kind)) :: arriving f fields := by
    simp only [arriving, List.map_cons, Option.map_some, carries.string]
  rw [tagFirst, present_cons_some] at perm
  obtain ⟨fresh, distinct⟩ := List.nodup_cons.mp distinct
  rw [← names_arriving f] at fresh distinct
  obtain ⟨rest, read, perm⟩ := tagged?_of_perm held perm known fresh (carries.legible legible)
  refine ⟨_, received ▸ read, ?_⟩
  rw [← names_arriving f, fields?_of_perm perm distinct, values_arriving]

/-- An object does not arrive as `null`. -/
theorem Carries.object_ne_null {members : List (String × Json)}
    (distinct : (members.map (·.1)).Nodup) : f (.object members) ≠ .null := by
  obtain ⟨arrived, received, -⟩ := carries.object distinct
  rw [received]
  exact Json.noConfusion

/-- A list is read element by element. -/
theorem Carries.list?_ofList {α : Type} (item? : Json → Option α) (toJson : α → Json)
    (items : List α) :
    list? item? (f (ofList toJson items)) = items.mapM fun a => item? (f (toJson a)) := by
  rw [ofList, carries.array, List.map_map, list?, List.mapM_map]
  rfl

theorem Carries.list?_ofList_self {α : Type} {item? : Json → Option α} {toJson : α → Json}
    (each : ∀ a, item? (f (toJson a)) = some a) (items : List α) :
    list? item? (f (ofList toJson items)) = some items := by
  rw [carries.list?_ofList, mapM_eq_some_map fun a _ => each a, List.map_id']

/-- A value or nothing is read as it was written. -/
theorem Carries.nullable?_ofOption {α : Type} {value? : Json → Option α} {toJson : α → Json}
    (notNull : ∀ a, f (toJson a) ≠ .null) (each : ∀ a, value? (f (toJson a)) = some a)
    (value : Option α) : nullable? value? (f (ofOption toJson value)) = some value := by
  cases value with
  | none =>
    rw [ofOption, carries.null]
    rfl
  | some a =>
    rw [ofOption, nullable?_of_ne_null (notNull a), each a]
    rfl

/-- A text that may be missing is read as it was written. -/
theorem Carries.optional_string (value : Option String) :
    optional string? (value.map fun s => f (.string s)) = some value := by
  refine optional_map_self (fun s => ?_) (fun s => ?_) value
  · rw [carries.string]
    exact Json.noConfusion
  · rw [carries.string]
    rfl

/-- A map is read as it was written. -/
theorem Carries.map?_ofMap {α : Type} {value? : Json → Option α} {toJson : α → Json}
    (each : ∀ a, value? (f (toJson a)) = some a) (m : NameMap α) :
    (f (ofMap toJson m)).map? value? = some m := by
  have names : ((m.entries.map fun e => (e.1, toJson e.2)).map (·.1)).Nodup := by
    rw [List.map_map]
    exact m.nodup_names
  obtain ⟨arrived, received, perm⟩ := carries.object names
  rw [List.map_map] at perm
  rw [ofMap, received]
  exact map?_of_perm each perm

end Carried

end Footprint.Json
