import Footprint.Proofs.Json.Open

/-!
Requests and catalog factors in documents.

Both are records with free members: the filters of a request and the details of a factor. A free
member that is named like a declared one is written beside it, or in its place when the declared
one is left out, and cannot be told from it when the text is read.

* `freeMembers_keptApart`: the text of a record gives the record back unless a free member is named
  like a declared one, and only then. Filters may be added in any order.
-/

namespace Footprint

open Json (NamesOnce Plain freeMembers present)

/-- The free members of a record are told apart from its declared ones. -/
structure Json.KeptApart {α : Type} (ofJson? : Json → Option α) (toJson : α → Json)
    (declared : List String) (free : NameMap Json.Value) (a : α) : Prop where
  /-- The text of the record gives it back exactly if no free member has a declared name. -/
  readBack : (Json.read? (toJson a).compact).bind ofJson? = some a ↔ free.Avoids declared
  /-- Then no name stands twice in the text. -/
  once : free.Avoids declared → NamesOnce (toJson a)

/-- The numbers of free members are whole, and leave a level of containers for the record. -/
def NameMap.Whole (m : NameMap Json.Value) : Prop := ∀ e ∈ m.entries, Plain 126 e.2.tree

theorem Json.KeptApart.of_fields {α : Type} {ofJson? : Json → Option α} {toJson : α → Json}
    {fields : List (String × Option Json)} {free : NameMap Json.Value} {a : α}
    (written : toJson a = .object (present fields ++ freeMembers free))
    (distinct : (fields.map (·.1)).Nodup)
    (each : ∀ f ∈ fields, ∀ value, f.2 = some value → Plain 126 value ∧ NamesOnce value)
    (whole : free.Whole) (back : free.Avoids (fields.map (·.1)) → ofJson? (toJson a) = some a)
    (apart : ofJson? (toJson a) = some a → free.Avoids (fields.map (·.1))) :
    KeptApart ofJson? toJson (fields.map (·.1)) free a where
  readBack := by
    have plain : Plain maxLevels (toJson a) := by
      rw [written]
      exact plain_free (fun f mem value found => (each f mem value found).1) whole
    rw [read?_compact plain, Option.bind_some]
    exact ⟨apart, back⟩
  once avoids := by
    rw [written]
    exact namesOnce_free distinct (fun f mem value found => (each f mem value found).2) avoids

/-! ### Requests -/

theorem Json.uint32?_toNat (n : UInt32) : Json.uint32? (.int n.toNat) = some n := by
  have below := n.toNat_lt
  rw [uint32?, int?, Option.bind_some, if_pos (by omega), Int.toNat_natCast, UInt32.ofNat_toNat]

theorem Json.plain_uint32 (n : UInt32) : Plain 126 (.int n.toNat) := by
  have below := n.toNat_lt
  exact .int ⟨by omega, by omega⟩

namespace SearchRequest

/-- The declared members of a request. -/
def declared : List String := ["query", "unitType", "page", "resultsPerPage"]

/-- The declared members with their values; without unit types there is no list. -/
def fields (r : SearchRequest) : List (String × Option Json) :=
  [("query", r.query.map .string),
    ("unitType", if r.unitTypes.isEmpty then none else some (Json.ofList .string r.unitTypes)),
    ("page", some (.int r.page.toNat)), ("resultsPerPage", some (.int r.resultsPerPage.toNat))]

variable {r : SearchRequest}

theorem nodup_fields (r : SearchRequest) : (r.fields.map (·.1)).Nodup := by
  simp [fields]

theorem toJson_eq (r : SearchRequest) :
    r.toJson = .object (present r.fields ++ freeMembers r.filters) := by
  obtain ⟨query, unitTypes, page, resultsPerPage, filters⟩ := r
  cases query <;> cases unitTypes <;> rfl

theorem forall_fields (r : SearchRequest) :
    ∀ f ∈ r.fields, ∀ value, f.2 = some value → Plain 126 value ∧ NamesOnce value := by
  intro f mem value found
  simp only [fields, List.mem_cons, List.not_mem_nil, or_false] at mem
  rcases mem with rfl | rfl | rfl | rfl
  · obtain ⟨_, -, rfl⟩ := Option.map_eq_some_iff.mp found
    exact ⟨.string, .single rfl⟩
  · obtain ⟨-, ⟨⟩⟩ := Option.ite_none_left_eq_some.mp found
    refine ⟨.array fun item mem => ?_, Json.namesOnce_ofList fun _ _ => .single rfl⟩
    obtain ⟨_, -, rfl⟩ := List.mem_map.mp mem
    exact .string
  · cases found
    exact ⟨Json.plain_uint32 r.page, .single rfl⟩
  · cases found
    exact ⟨Json.plain_uint32 r.resultsPerPage, .single rfl⟩

/-- A request is read from its document if its filters avoid the declared names. -/
theorem ofJson?_toJson (apart : r.filters.Avoids declared) : ofJson? r.toJson = some r := by
  obtain ⟨rest, opened, free⟩ := Json.exists_openFields?_free r.nodup_fields apart
  have query : Json.optional Json.string? (r.query.map .string) = some r.query :=
    Json.carries_id.optional_string r.query
  have names : ∀ names, Json.list? Json.string? (id (Json.ofList .string names)) = some names :=
    Json.carries_id.list?_ofList_self fun _ => rfl
  have types : Json.defaulted [] (Json.list? Json.string?)
      (if r.unitTypes.isEmpty then none else some (Json.ofList .string r.unitTypes)) =
        some r.unitTypes := by
    cases r.unitTypes with
    | nil => rfl
    | cons first rest => exact names (first :: rest)
  rw [← toJson_eq] at opened
  simp only [fields, List.map_cons, List.map_nil] at opened
  simp only [ofJson?, opened, query, types, free, Json.required, Json.uint32?_toNat,
    Option.bind_eq_bind, Option.bind_some]
  rfl

theorem avoids_of_ofJson? {j : Json} (read : ofJson? j = some r) : r.filters.Avoids declared := by
  obtain ⟨⟨values, rest⟩, opened, read⟩ := Option.bind_eq_some_iff.mp read
  split at read
  case h_1 same =>
    cases same
    simp only [Option.bind_eq_bind, Option.bind_eq_some_iff] at read
    obtain ⟨_, -, _, -, _, -, _, -, m, free, done⟩ := read
    cases done
    exact Json.avoids_of_openFields? opened free
  case h_2 => cases read

theorem keptApart (r : SearchRequest) (whole : r.filters.Whole) :
    Json.KeptApart ofJson? toJson declared r.filters r :=
  .of_fields r.toJson_eq r.nodup_fields r.forall_fields whole ofJson?_toJson avoids_of_ofJson?

/-- The request with some more filters, added one after the other. -/
def addingAll (r : SearchRequest) (added : List (String × Json.Value)) : SearchRequest :=
  added.foldl (fun r e => r.adding e.1 e.2) r

theorem adding_comm (r : SearchRequest) {a b : String} (other : a ≠ b) (x y : Json.Value) :
    (r.adding a x).adding b y = (r.adding b y).adding a x :=
  congrArg (fun filters => { r with filters := filters }) (r.filters.insert_comm other x y)

/-- Filters of different names may be added in any order. -/
theorem addingAll_of_perm (r : SearchRequest) {added other : List (String × Json.Value)}
    (distinct : (added.map (·.1)).Nodup) (perm : added.Perm other) :
    r.addingAll added = r.addingAll other := by
  refine perm.foldl_eq' (fun e given d given' r => ?_) r
  by_cases same : e = d
  · rw [same]
  · have apart := fun names => same (List.inj_on_of_nodup_map distinct given given' names)
    exact adding_comm r apart ..

end SearchRequest

/-! ### Catalog factors -/

namespace CatalogFactor

/-- The declared members of a catalog factor. -/
def declared : List String := ["id", "name", "unit_type"]

/-- The declared members with their values. -/
def fields (f : CatalogFactor) : List (String × Option Json) :=
  [("id", some (.string f.id)), ("name", some (.string f.name)),
    ("unit_type", some (.string f.unitType))]

variable {f : CatalogFactor}

theorem nodup_fields (f : CatalogFactor) : (f.fields.map (·.1)).Nodup := by
  simp [fields]

theorem toJson_eq (f : CatalogFactor) :
    f.toJson = .object (present f.fields ++ freeMembers f.details) := rfl

theorem forall_fields (f : CatalogFactor) :
    ∀ e ∈ f.fields, ∀ value, e.2 = some value → Plain 126 value ∧ NamesOnce value := by
  intro e mem value found
  simp only [fields, List.mem_cons, List.not_mem_nil, or_false] at mem
  rcases mem with rfl | rfl | rfl <;> cases found <;> exact ⟨.string, .single rfl⟩

/-- A factor is read from its document if its details avoid the declared names. -/
theorem ofJson?_toJson (apart : f.details.Avoids declared) : ofJson? f.toJson = some f := by
  obtain ⟨rest, opened, free⟩ := Json.exists_openFields?_free f.nodup_fields apart
  rw [← toJson_eq] at opened
  simp only [fields, List.map_cons, List.map_nil] at opened
  simp only [ofJson?, opened, free, Json.required, Json.string?, Option.bind_eq_bind,
    Option.bind_some]
  rfl

theorem avoids_of_ofJson? {j : Json} (read : ofJson? j = some f) : f.details.Avoids declared := by
  obtain ⟨⟨values, rest⟩, opened, read⟩ := Option.bind_eq_some_iff.mp read
  split at read
  case h_1 same =>
    cases same
    simp only [Option.bind_eq_bind, Option.bind_eq_some_iff] at read
    obtain ⟨_, -, _, -, _, -, m, free, done⟩ := read
    cases done
    exact Json.avoids_of_openFields? opened free
  case h_2 => cases read

theorem keptApart (f : CatalogFactor) (whole : f.details.Whole) :
    Json.KeptApart ofJson? toJson declared f.details f :=
  .of_fields f.toJson_eq f.nodup_fields f.forall_fields whole ofJson?_toJson avoids_of_ofJson?

end CatalogFactor

/-! ### Free members beside declared ones -/

/-- Adding filters of different names in another order gives the same text. -/
def SearchRequest.OrderFree (r : SearchRequest) : Prop :=
  ∀ start added other, (added.map (·.1)).Nodup → added.Perm other →
    addingAll start added = r → (start.addingAll other).toJson.compact = r.toJson.compact

/-- A request or a factor is read back from its text unless a free member has a declared name. -/
theorem freeMembers_keptApart :
    (∀ r : SearchRequest, r.filters.Whole →
      Json.KeptApart SearchRequest.ofJson? SearchRequest.toJson SearchRequest.declared r.filters r ∧
        r.OrderFree) ∧
    ∀ f : CatalogFactor, f.details.Whole →
      Json.KeptApart CatalogFactor.ofJson? CatalogFactor.toJson CatalogFactor.declared
        f.details f := by
  refine ⟨fun r whole => ⟨r.keptApart whole, ?_⟩, fun f whole => f.keptApart whole⟩
  rintro start added other distinct perm rfl
  rw [start.addingAll_of_perm distinct perm]

/-- A request without a query, and a filter of that name. -/
def queryAsFilter : SearchRequest where
  query := none
  unitTypes := ["Weight"]
  page := 1
  resultsPerPage := 20
  filters := NameMap.empty.insert "query" ⟨.string "diesel", rfl, rfl⟩

/-- A factor with the region and the years that it is meant for. -/
def regionalFactor : CatalogFactor where
  id := "road-eu"
  name := "Road freight"
  unitType := "WeightOverDistance"
  details := (NameMap.empty.insert "region" ⟨.string "EU", rfl, rfl⟩).insert "years"
    ⟨.array [.int 2023, .int 2024], by decide, by decide⟩

/-- The filter is lost and the details are kept. -/
theorem queryAsFilter_regionalFactor_keptApart :
    queryAsFilter.filters.Whole ∧ regionalFactor.details.Whole ∧
      (Json.read? queryAsFilter.toJson.compact).bind SearchRequest.ofJson? ≠ some queryAsFilter ∧
      (Json.read? regionalFactor.toJson.compact).bind CatalogFactor.ofJson? =
        some regionalFactor ∧
      NamesOnce regionalFactor.toJson := by
  have filters : queryAsFilter.filters.Whole := by
    intro e mem
    obtain rfl := List.mem_singleton.mp mem
    exact .string
  have details : regionalFactor.details.Whole := by
    intro e mem
    rcases List.mem_pair.mp mem with rfl | rfl
    · exact .string
    · refine .array (List.forall_mem_cons.mpr ⟨.int (by decide), ?_⟩)
      exact List.forall_mem_singleton.mpr (.int (by decide))
  have shadows : ¬ queryAsFilter.filters.Avoids SearchRequest.declared := fun apart =>
    apart _ (List.mem_singleton_self _) List.mem_cons_self
  have apart : regionalFactor.details.Avoids CatalogFactor.declared := by
    intro e mem
    rcases List.mem_pair.mp mem with rfl | rfl <;> decide
  have request := freeMembers_keptApart.1 queryAsFilter filters
  have factor := freeMembers_keptApart.2 regionalFactor details
  exact ⟨filters, details, fun back => shadows (request.1.readBack.mp back),
    factor.readBack.mpr apart, factor.once apart⟩

end Footprint
