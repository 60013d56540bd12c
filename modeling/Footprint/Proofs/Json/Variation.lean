import Footprint.Proofs.Json.Reordered

/-!
Documents that say the same.

What a reader asks of a part of a document leaves room: the members of an object may stand in any
order, and there may be further members that the reader does not declare. A `Variation` says in
which ways a part may vary, and a reader that reads the same of all variants is kept by it
(`Variation.Keeps`).

* `Variation.order`, `Variation.list`, `Variation.record`, `Variation.tagged`: how single values and
  free parts, lists, records and values of several kinds vary.
* `fields?_vary`, `tagged?_vary`, `openFields?_vary`: the fields that are read of variants vary as
  declared.
* `record_keeps`, `tagged_keeps`, `Variation.Keeps.list`: so a reader is kept when the readers of
  its parts are.
-/

namespace Footprint.Json

/-- In which ways a part of a document may vary: in the order of members at least, and never in
whether it is readable or `null`. -/
structure Variation where
  Allows : Json → Json → Prop
  of_reordered {a b : Json} : Reordered a b → Allows a b
  readable_eq {a b : Json} : Allows a b → a.readable = b.readable
  null_iff {a b : Json} : Allows a b → (a = .null ↔ b = .null)

namespace Variation

/-- Nothing but the order of members varies. -/
def order : Variation := ⟨Reordered, id, Reordered.readable_eq, Reordered.null_iff⟩

theorem allows_refl (v : Variation) (j : Json) : v.Allows j j := v.of_reordered (.refl j)

/-! ### Parts of containers -/

/-- How the value of a member varies: as declared, and else in the order of members. -/
def ofName (fields : List (String × Variation)) (name : String) : Variation :=
  ((fields.find? fun f => f.1 = name).map (·.2)).getD order

/-- The members of `a` have values that vary as declared, readable members of other names than the
declared ones are added, and the order is another. -/
def MembersVary (fields : List (String × Variation)) (a b : List (String × Json)) : Prop :=
  ∃ kept added, List.Forall₂ (Paired fun name => (ofName fields name).Allows) a kept ∧
    (∀ e ∈ added, e.1 ∉ fields.map (·.1) ∧ e.2.readable = true) ∧ b.Perm (kept ++ added)

/-- The items keep their places. The first ones vary as declared, further ones in the order of
members. -/
inductive ItemsVary : List Variation → List Json → List Json → Prop where
  | nil {declared : List Variation} : ItemsVary declared [] []
  | declared {v : Variation} {vs : List Variation} {a b : Json} {as bs : List Json} :
      v.Allows a b → ItemsVary vs as bs → ItemsVary (v :: vs) (a :: as) (b :: bs)
  | further {a b : Json} {as bs : List Json} :
      Reordered a b → ItemsVary [] as bs → ItemsVary [] (a :: as) (b :: bs)

section Parts

variable {fields : List (String × Variation)} {name : String} {v : Variation}

theorem ofName_cons_self (name : String) (v : Variation) (fields : List (String × Variation)) :
    ofName ((name, v) :: fields) name = v := by
  simp [ofName]

theorem ofName_cons_of_ne {other : String} (different : other ≠ name) :
    ofName ((name, v) :: fields) other = ofName fields other := by
  simp [ofName, different.symm]

/-- Different fields vary as each of them is declared. -/
theorem map_ofName (distinct : (fields.map (·.1)).Nodup) :
    (fields.map (·.1)).map (ofName fields) = fields.map (·.2) := by
  induction fields with
  | nil => rfl
  | cons f rest ih =>
    obtain ⟨name, v⟩ := f
    obtain ⟨fresh, distinct⟩ := List.nodup_cons.mp distinct
    have others : (rest.map (·.1)).map (ofName ((name, v) :: rest)) =
        (rest.map (·.1)).map (ofName rest) := by
      refine List.map_congr_left fun other mem => ofName_cons_of_ne ?_
      rintro rfl
      exact fresh mem
    rw [List.map_cons, List.map_cons, List.map_cons, ofName_cons_self, others, ih distinct]

theorem membersVary_of_reordered {a kept b : List (String × Json)}
    (paired : List.Forall₂ (Paired fun _ => Reordered) a kept) (perm : b.Perm kept) :
    MembersVary fields a b := by
  refine ⟨kept, [], ?_, ?_, ?_⟩
  · exact paired.imp fun d e pair => ⟨pair.name, (ofName fields d.1).of_reordered pair.value⟩
  · intro e mem
    cases mem
  · rwa [List.append_nil]

theorem itemsVary_of_reordered {a b : List Json} (items : List.Forall₂ Reordered a b)
    (declared : List Variation) : ItemsVary declared a b := by
  induction items generalizing declared with
  | nil => exact .nil
  | cons first _ ih =>
    cases declared with
    | nil => exact .further first (ih [])
    | cons v vs => exact .declared (v.of_reordered first) (ih vs)

theorem readable_iff_of_paired {R : String → Json → Json → Prop}
    (keeps : ∀ name a b, R name a b → a.readable = b.readable) {a b : List (String × Json)}
    (paired : List.Forall₂ (Paired R) a b) :
    (∀ e ∈ a, e.2.readable = true) ↔ ∀ e ∈ b, e.2.readable = true := by
  induction paired with
  | nil => exact Iff.rfl
  | cons first _ ih =>
    rw [List.forall_mem_cons, List.forall_mem_cons, ih, keeps _ _ _ first.value]

theorem MembersVary.readable_eq {a b : List (String × Json)} (vary : MembersVary fields a b) :
    readableMembers a = readableMembers b := by
  obtain ⟨kept, added, paired, fresh, perm⟩ := vary
  have keeps := readable_iff_of_paired (fun name _ _ => (ofName fields name).readable_eq) paired
  rw [Bool.eq_iff_iff, readableMembers_iff, readableMembers_iff, keeps]
  constructor
  · intro all e mem
    rcases List.mem_append.mp (perm.mem_iff.mp mem) with old | new
    · exact all e old
    · exact (fresh e new).2
  · intro all e mem
    exact all e (perm.mem_iff.mpr (List.mem_append_left _ mem))

theorem ItemsVary.readable_eq {declared : List Variation} {a b : List Json}
    (vary : ItemsVary declared a b) : readableItems a = readableItems b := by
  induction vary with
  | nil => rfl
  | @declared v _ _ _ _ _ first _ ih => rw [readableItems, readableItems, v.readable_eq first, ih]
  | further first _ ih => rw [readableItems, readableItems, first.readable_eq, ih]

theorem ItemsVary.length_eq {declared : List Variation} {items others : List Json}
    (vary : ItemsVary declared items others) : items.length = others.length := by
  induction vary with
  | nil => rfl
  | declared _ _ ih => rw [List.length_cons, List.length_cons, ih]
  | further _ _ ih => rw [List.length_cons, List.length_cons, ih]

/-- Without one of its declared members an object varies as without its declaration. -/
theorem MembersVary.filter_ne {a b : List (String × Json)}
    (vary : MembersVary ((name, v) :: fields) a b) :
    MembersVary fields (a.filter fun e => e.1 ≠ name) (b.filter fun e => e.1 ≠ name) := by
  obtain ⟨kept, added, paired, fresh, perm⟩ := vary
  refine ⟨kept.filter fun e => e.1 ≠ name, added.filter fun e => e.1 ≠ name, ?_, ?_, ?_⟩
  · clear fresh perm
    induction paired with
    | nil => exact .nil
    | @cons d e _ _ first _ ih =>
      by_cases here : d.1 = name
      · have hereToo : e.1 = name := first.name ▸ here
        rwa [List.filter_cons_of_neg (by simpa using here),
          List.filter_cons_of_neg (by simpa using hereToo)]
      · have notHere : e.1 ≠ name := first.name ▸ here
        rw [List.filter_cons_of_pos (by simpa using here),
          List.filter_cons_of_pos (by simpa using notHere)]
        refine .cons ⟨first.name, ?_⟩ ih
        rw [← ofName_cons_of_ne here]
        exact first.value
  · intro e mem
    obtain ⟨undeclared, legible⟩ := fresh e (List.mem_filter.mp mem).1
    exact ⟨fun declared => undeclared (List.mem_cons_of_mem _ declared), legible⟩
  · rw [← List.filter_append]
    exact perm.filter _

end Parts

/-! ### Containers -/

/-- A container whose parts vary as `ofMembers` and `ofItems` declare it for what it contains. -/
inductive ContainerVaries (ofMembers : List (String × Json) → List (String × Variation))
    (ofItems : List Json → List Variation) : Json → Json → Prop where
  | single {j : Json} : j.levels = 0 → ContainerVaries ofMembers ofItems j j
  | object {a b : List (String × Json)} : MembersVary (ofMembers a) a b →
      ContainerVaries ofMembers ofItems (.object a) (.object b)
  | array {a b : List Json} : ItemsVary (ofItems a) a b →
      ContainerVaries ofMembers ofItems (.array a) (.array b)

/-- The variation of such containers. -/
def container (ofMembers : List (String × Json) → List (String × Variation))
    (ofItems : List Json → List Variation) : Variation where
  Allows := ContainerVaries ofMembers ofItems
  of_reordered same := by
    cases same.parts with
    | single flat => exact .single flat
    | object paired perm => exact .object (membersVary_of_reordered paired perm)
    | array items => exact .array (itemsVary_of_reordered items _)
  readable_eq varies := by
    cases varies with
    | single => rfl
    | object vary => exact vary.readable_eq
    | array vary => exact vary.readable_eq
  null_iff varies := by
    cases varies with
    | single => exact Iff.rfl
    | object => exact ⟨Json.noConfusion, Json.noConfusion⟩
    | array => exact ⟨Json.noConfusion, Json.noConfusion⟩

/-- A list whose items vary as `v` allows. -/
inductive ListVaries (v : Variation) : Json → Json → Prop where
  | reordered {a b : Json} : Reordered a b → ListVaries v a b
  | array {a b : List Json} : List.Forall₂ v.Allows a b → ListVaries v (.array a) (.array b)

/-- The variation of such lists. -/
def list (v : Variation) : Variation where
  Allows := ListVaries v
  of_reordered := .reordered
  readable_eq varies := by
    cases varies with
    | reordered same => exact same.readable_eq
    | array items =>
      induction items with
      | nil => rfl
      | cons first _ ih =>
        show (_ && _) = (_ && _)
        rw [v.readable_eq first]
        exact congrArg _ ih
  null_iff varies := by
    cases varies with
    | reordered same => exact same.null_iff
    | array => exact ⟨Json.noConfusion, Json.noConfusion⟩

/-- The variation of a record with these fields. -/
def record (fields : List (String × Variation)) : Variation :=
  container (fun _ => fields) fun _ => fields.map (·.2)

/-- The kinds of a value: the name of the member that tells them, their names, and the fields of
each of them. -/
structure Kinds where
  tag : String
  names : List String
  fieldsOf : String → List (String × Variation)
  distinct : ∀ kind, (tag :: (fieldsOf kind).map (·.1)).Nodup

/-- What a value with these members declares: its kind, and the fields of the kind that it names. -/
def Kinds.ofMembers (kinds : Kinds) (held : Bool) (members : List (String × Json)) :
    List (String × Variation) :=
  let kind := (memberOnce? kinds.tag members).bind fun value => value.bind (kind? held kinds.names)
  (kinds.tag, order) :: kind.elim [] kinds.fieldsOf

/-- The same for a value whose parts are listed, its kind first. -/
def Kinds.ofItems (kinds : Kinds) (held : Bool) : List Json → List Variation
  | [] => []
  | first :: _ => order :: ((kind? held kinds.names first).elim [] kinds.fieldsOf).map (·.2)

/-- The variation of a value of several kinds. -/
def tagged (kinds : Kinds) (held : Bool) : Variation :=
  container (kinds.ofMembers held) (kinds.ofItems held)

/-! ### Fields -/

/-- A field that is missing or varies. -/
def FieldVaries (v : Variation) : Option Json → Option Json → Prop :=
  Option.Rel fun a b => NamesOnce a ∧ v.Allows a b

/-- Fields that are missing or vary, each in its own way. -/
inductive FieldsVary : List Variation → List (Option Json) → List (Option Json) → Prop where
  | nil : FieldsVary [] [] []
  | cons {v : Variation} {vs : List Variation} {x y : Option Json} {xs ys : List (Option Json)} :
      FieldVaries v x y → FieldsVary vs xs ys → FieldsVary (v :: vs) (x :: xs) (y :: ys)

/-- What is read does not vary. -/
def Keeps {α : Type} (v : Variation) (value? : Json → Option α) : Prop :=
  ∀ a b, NamesOnce a → v.Allows a b → value? a = value? b

/-- Listed fields vary as declared; fields that are not listed are missing. -/
theorem fieldsVary_items {declared : List Variation} {items others : List Json}
    (vary : ItemsVary declared items others) (each : ∀ item ∈ items, NamesOnce item)
    (room : items.length ≤ declared.length) :
    FieldsVary declared
      (items.map some ++ List.replicate (declared.length - items.length) none)
      (others.map some ++ List.replicate (declared.length - others.length) none) := by
  induction vary with
  | @nil declared =>
    show FieldsVary declared (List.replicate declared.length none)
      (List.replicate declared.length none)
    clear room
    induction declared with
    | nil => exact .nil
    | cons v vs ih => exact .cons .none ih
  | declared first _ ih =>
    obtain ⟨once, each⟩ := List.forall_mem_cons.mp each
    simp only [List.length_cons, Nat.add_le_add_iff_right, Nat.add_sub_add_right] at room ih ⊢
    exact .cons (.some ⟨once, first⟩) (ih each room)
  | further => exact absurd room (Nat.not_succ_le_zero _)

section Keeps

variable {α : Type} {v : Variation} {value? : Json → Option α}

theorem order_keeps (reads : ReadsSingle value?) : order.Keeps value? :=
  fun _ _ _ same => same.value?_eq reads

theorem Keeps.required_eq (keeps : v.Keeps value?) {x y : Option Json} (field : FieldVaries v x y) :
    required value? x = required value? y := by
  cases field with
  | none => rfl
  | some varies => exact keeps _ _ varies.1 varies.2

theorem Keeps.defaulted_eq (keeps : v.Keeps value?) {x y : Option Json}
    (field : FieldVaries v x y) (default : α) :
    defaulted default value? x = defaulted default value? y := by
  cases field with
  | none => rfl
  | some varies => exact keeps _ _ varies.1 varies.2

theorem Keeps.optional_eq (keeps : v.Keeps value?) {x y : Option Json} (field : FieldVaries v x y) :
    optional value? x = optional value? y := by
  cases field with
  | none => rfl
  | @some a b varies =>
    show nullable? value? a = nullable? value? b
    by_cases null : a = .null
    · rw [null, (v.null_iff varies.2).mp null]
    · have other : b ≠ .null := fun same => null ((v.null_iff varies.2).mpr same)
      rw [nullable?_of_ne_null null, nullable?_of_ne_null other, keeps a b varies.1 varies.2]

theorem Keeps.list (keeps : v.Keeps value?) : (list v).Keeps (list? value?) := by
  intro a b once varies
  have items : ∀ {as bs : List Json}, List.Forall₂ v.Allows as bs → (∀ item ∈ as, NamesOnce item) →
      as.mapM value? = bs.mapM value? := by
    intro as bs vary each
    refine mapM_eq_of_forall₂ (((List.forall₂_and_left as bs).mpr ⟨each, vary⟩).imp ?_)
    exact fun item other both => keeps item other both.1 both.2
  cases varies with
  | array vary => exact items vary (namesOnce_array_iff.mp once)
  | reordered same =>
    cases same.parts with
    | single => rfl
    | array vary =>
      exact items (vary.imp fun _ _ => v.of_reordered) (namesOnce_array_iff.mp once)
    | object => rfl

end Keeps

end Variation

open Variation

/-! ### Members -/

/-- A name is found in both lists or in none of them. -/
theorem memberOnce?_paired {R : String → Json → Json → Prop} {a b : List (String × Json)}
    (paired : List.Forall₂ (Paired R) a b) (distinct : (a.map (·.1)).Nodup) (name : String) :
    ∃ x y, memberOnce? name a = some x ∧ memberOnce? name b = some y ∧
      Option.Rel (fun j k => (name, j) ∈ a ∧ R name j k) x y := by
  induction paired with
  | nil => exact ⟨none, none, rfl, rfl, .none⟩
  | @cons d e as bs first rest ih =>
    obtain ⟨own, j⟩ := d
    obtain ⟨_, k⟩ := e
    obtain ⟨rfl, related⟩ := first
    obtain ⟨fresh, others⟩ := List.nodup_cons.mp distinct
    by_cases here : own = name
    · subst here
      have freshB : own ∉ bs.map (·.1) := names_of_paired rest ▸ fresh
      exact ⟨some j, some k, memberOnce?_cons_self fresh, memberOnce?_cons_self freshB,
        .some ⟨List.mem_cons_self, related⟩⟩
    · obtain ⟨x, y, foundA, foundB, found⟩ := ih others
      refine ⟨x, y, (memberOnce?_cons_of_ne here).trans foundA,
        (memberOnce?_cons_of_ne here).trans foundB, ?_⟩
      cases found with
      | none => exact .none
      | some both => exact .some ⟨List.mem_cons_of_mem _ both.1, both.2⟩

section Vary

variable {fields : List (String × Variation)} {a b : List (String × Json)}

/-- A declared field is found in both lists of members or in none of them. -/
theorem memberOnce?_vary (vary : MembersVary fields a b) (once : NamesOnce (.object a))
    {name : String} (declared : name ∈ fields.map (·.1)) :
    ∃ x y, memberOnce? name a = some x ∧ memberOnce? name b = some y ∧
      FieldVaries (ofName fields name) x y := by
  obtain ⟨kept, added, paired, fresh, perm⟩ := vary
  obtain ⟨distinct, each⟩ := namesOnce_object_iff.mp once
  obtain ⟨x, y, foundA, foundKept, found⟩ := memberOnce?_paired paired distinct name
  have absent : name ∉ added.map (·.1) := by
    intro mem
    obtain ⟨e, given, rfl⟩ := List.mem_map.mp mem
    exact (fresh e given).1 declared
  have foundB : memberOnce? name b = some y :=
    memberOnce?_of_perm perm ((memberOnce?_append absent).trans foundKept)
  refine ⟨x, y, foundA, foundB, ?_⟩
  cases found with
  | none => exact .none
  | some both => exact .some ⟨each _ both.1, both.2⟩

theorem exists_fieldsVary_members (vary : MembersVary fields a b) (once : NamesOnce (.object a))
    {chosen : List String} (sub : ∀ name ∈ chosen, name ∈ fields.map (·.1)) :
    ∃ xs ys, chosen.mapM (fun name => memberOnce? name a) = some xs ∧
      chosen.mapM (fun name => memberOnce? name b) = some ys ∧
      FieldsVary (chosen.map (ofName fields)) xs ys := by
  induction chosen with
  | nil => exact ⟨[], [], rfl, rfl, .nil⟩
  | cons name rest ih =>
    obtain ⟨declared, others⟩ := List.forall_mem_cons.mp sub
    obtain ⟨x, y, foundA, foundB, field⟩ := memberOnce?_vary vary once declared
    obtain ⟨xs, ys, restA, restB, fields⟩ := ih others
    refine ⟨x :: xs, y :: ys, ?_, ?_, .cons field fields⟩
    · rw [List.mapM_cons, foundA, restA]
      rfl
    · rw [List.mapM_cons, foundB, restB]
      rfl

/-- The declared fields of a record vary as declared. -/
theorem fields?_vary (distinct : (fields.map (·.1)).Nodup) {j k : Json} (once : NamesOnce j)
    (varies : (record fields).Allows j k) :
    Option.Rel (FieldsVary (fields.map (·.2))) (fields? (fields.map (·.1)) j)
      (fields? (fields.map (·.1)) k) := by
  cases varies with
  | single flat =>
    cases j with
    | array | object => cases flat
    | null | bool | int | float | string | unreadable => exact .none
  | object vary =>
    obtain ⟨xs, ys, foundA, foundB, related⟩ := exists_fieldsVary_members vary once fun _ mem => mem
    rw [fields?, fields?, foundA, foundB]
    rw [map_ofName distinct] at related
    exact .some related
  | @array items others vary =>
    have length := vary.length_eq
    rw [fields?, fields?]
    by_cases room : items.length ≤ (fields.map (·.1)).length
    · have each := namesOnce_array_iff.mp once
      have related := fieldsVary_items vary each (by rwa [List.length_map] at room ⊢)
      rw [if_pos room, if_pos (length ▸ room)]
      rw [List.length_map] at related ⊢
      exact .some related
    · rw [if_neg room, if_neg (length ▸ room)]
      exact .none

/-- Steps that go on alike from related values end alike. -/
theorem bind_eq_of_rel {α β : Type} {R : α → α → Prop} {x y : Option α} {f : α → Option β}
    (related : Option.Rel R x y) (step : ∀ a b, R a b → f a = f b) : x.bind f = y.bind f := by
  cases related with
  | none => rfl
  | some both => exact step _ _ both

/-- A reader of declared fields is kept when what it makes of them does not vary. -/
theorem record_keeps {α : Type} {read : List (Option Json) → Option α}
    (distinct : (fields.map (·.1)).Nodup)
    (step : ∀ xs ys, FieldsVary (fields.map (·.2)) xs ys → read xs = read ys) :
    (record fields).Keeps fun j => (fields? (fields.map (·.1)) j).bind read :=
  fun _ _ once varies => bind_eq_of_rel (fields?_vary distinct once varies) step

/-! ### Kinds -/

theorem readsSingle_kind? (held : Bool) (kinds : List String) : ReadsSingle (kind? held kinds) :=
  ⟨fun _ => rfl, fun _ => rfl⟩

/-- Two values of one kind, whose fields vary. -/
structure SameKind (kinds : Kinds) (p q : String × Json) : Prop where
  kind : p.1 = q.1
  once : NamesOnce p.2
  rest : (record (kinds.fieldsOf p.1)).Allows p.2 q.2

theorem tagged?_object (held : Bool) (kinds : Kinds) (members : List (String × Json)) :
    tagged? held kinds.tag kinds.names (.object members) =
      ((memberOnce? kinds.tag members).bind fun value => value.bind (kind? held kinds.names)).bind
        fun kind => if readableMembers (members.filter fun e => e.1 ≠ kinds.tag) then
          some (kind, .object (members.filter fun e => e.1 ≠ kinds.tag)) else none := by
  cases found : memberOnce? kinds.tag members <;> simp [tagged?, found]

/-- One kind, and parts that are readable alike, make values of one kind. -/
theorem sameKind_of_kind {kinds : Kinds} {kind : Option String} {legible : Bool} {j k : Json}
    (once : NamesOnce j)
    (vary : ∀ name, kind = some name → (record (kinds.fieldsOf name)).Allows j k) :
    Option.Rel (SameKind kinds) (kind.bind fun name => if legible then some (name, j) else none)
      (kind.bind fun name => if legible then some (name, k) else none) := by
  cases kind with
  | none => exact .none
  | some name =>
    rw [Option.bind_some, Option.bind_some]
    split
    · exact .some ⟨rfl, once, vary name rfl⟩
    · exact .none

/-- Variants of a value have the same kind, and their fields vary as its kind declares. -/
theorem tagged?_vary {kinds : Kinds} {held : Bool} {j k : Json} (once : NamesOnce j)
    (varies : (tagged kinds held).Allows j k) :
    Option.Rel (SameKind kinds) (tagged? held kinds.tag kinds.names j)
      (tagged? held kinds.tag kinds.names k) := by
  cases varies with
  | single flat =>
    cases j with
    | array | object => cases flat
    | null | bool | int | float | string | unreadable => exact .none
  | @object a b vary =>
    obtain ⟨x, y, foundA, foundB, field⟩ := memberOnce?_vary vary once List.mem_cons_self
    have kind : x.bind (kind? held kinds.names) = y.bind (kind? held kinds.names) := by
      rw [Kinds.ofMembers, ofName_cons_self] at field
      cases field with
      | none => rfl
      | some varies => exact varies.2.value?_eq (readsSingle_kind? held kinds.names)
    have rest := vary.filter_ne
    rw [tagged?_object, tagged?_object, foundA, foundB, Option.bind_some, Option.bind_some, ← kind,
      ← rest.readable_eq]
    refine sameKind_of_kind once.filter ?_
    intro name named
    rw [foundA, Option.bind_some, named] at rest
    exact .object rest
  | @array items others vary =>
    cases items with
    | nil =>
      cases vary
      exact .none
    | cons first rest =>
      cases vary with
      | declared same vary =>
        have kind := Reordered.value?_eq (readsSingle_kind? held kinds.names) same
        have each := (List.forall_mem_cons.mp (namesOnce_array_iff.mp once)).2
        simp only [tagged?, Option.bind_eq_bind, ← kind, ← vary.readable_eq]
        refine sameKind_of_kind (.array each) ?_
        intro name named
        rw [named] at vary
        exact .array vary

/-- The fields of values of one kind vary as the kind declares. -/
theorem SameKind.fields?_vary {kinds : Kinds} {p q : String × Json} (same : SameKind kinds p q) :
    Option.Rel (FieldsVary ((kinds.fieldsOf p.1).map (·.2)))
      (fields? ((kinds.fieldsOf p.1).map (·.1)) p.2)
      (fields? ((kinds.fieldsOf p.1).map (·.1)) q.2) :=
  Json.fields?_vary (List.nodup_cons.mp (kinds.distinct p.1)).2 same.once same.rest

/-- A reader of several kinds is kept when for each kind what it makes of the fields does not
vary. -/
theorem tagged_keeps {α : Type} {kinds : Kinds} {held : Bool} {read : String × Json → Option α}
    (step : ∀ kind rest others,
      Option.Rel (FieldsVary ((kinds.fieldsOf kind).map (·.2)))
        (fields? ((kinds.fieldsOf kind).map (·.1)) rest)
        (fields? ((kinds.fieldsOf kind).map (·.1)) others) →
      read (kind, rest) = read (kind, others)) :
    (tagged kinds held).Keeps fun j => (tagged? held kinds.tag kinds.names j).bind read := by
  intro j k once varies
  refine bind_eq_of_rel (tagged?_vary once varies) ?_
  rintro ⟨kind, rest⟩ ⟨other, others⟩ same
  obtain rfl : kind = other := same.kind
  exact step kind rest others same.fields?_vary

/-! ### Open rests -/

/-- A field of the members `a` that varies, and the other members, which vary as declared. -/
structure SameRest (name : String) (v : Variation) (fields : List (String × Variation))
    (a : List (String × Json)) (p q : List (Option Json) × List (String × Json)) : Prop where
  field : FieldsVary [v] p.1 q.1
  rest_eq : p.2 = a.filter fun e => e.1 ≠ name
  rest : MembersVary fields p.2 q.2

theorem openFields?_singleton (name : String) (members : List (String × Json)) :
    openFields? [name] (.object members) = (memberOnce? name members).bind fun x =>
      if readableMembers (members.filter fun e => e.1 ≠ name) then
        some ([x], members.filter fun e => e.1 ≠ name)
      else none := by
  cases found : memberOnce? name members <;> simp [openFields?, found]

theorem openFields?_vary {name : String} {v : Variation}
    (vary : MembersVary ((name, v) :: fields) a b) (once : NamesOnce (.object a)) :
    Option.Rel (SameRest name v fields a) (openFields? [name] (.object a))
      (openFields? [name] (.object b)) := by
  obtain ⟨x, y, foundA, foundB, field⟩ := memberOnce?_vary vary once List.mem_cons_self
  have rest := vary.filter_ne
  have legible := rest.readable_eq
  rw [ofName_cons_self] at field
  rw [openFields?_singleton, openFields?_singleton, foundA, foundB, Option.bind_some,
    Option.bind_some, ← legible]
  split
  · exact .some ⟨.cons field .nil, rfl, rest⟩
  · exact .none

end Vary

end Footprint.Json
