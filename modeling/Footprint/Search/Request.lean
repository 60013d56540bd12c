import Footprint.Json.Writer
import Footprint.Rule.Check

/-!
Searching the factor catalog.

A request restricts the search to the unit types of a rule, so that only factors of the right
dimension are found; for an unsupported dimension there is no request. Requests and factors have
members that the library does not know, kept in the order of their names.
-/

namespace Footprint

/-- A request to the factor catalog. -/
structure SearchRequest where
  query : Option String
  unitTypes : List String
  page : UInt32
  resultsPerPage : UInt32
  filters : NameMap Json.Value

/-- A factor as the catalog lists it. -/
structure CatalogFactor where
  id : String
  name : String
  unitType : String
  details : NameMap Json.Value

/-- What the catalog answers. -/
structure SearchAnswer where
  results : List CatalogFactor
  possibleFilters : NameMap Json.Value

/-- How the catalog is searched: how long a trigger has to stay the last one, in milliseconds, and
how many results a page has. -/
structure SearchSettings where
  debounce : Nat := 300
  resultsPerPage : UInt32 := 20
deriving DecidableEq, Repr, Inhabited

/-- The members of a free map. -/
def Json.freeMembers (m : NameMap Json.Value) : List (String × Json) :=
  m.entries.map fun e => (e.1, e.2.tree)

/-- Read the members of a record that it does not declare. -/
def Json.freeMap? (members : List (String × Json)) : Option (NameMap Json.Value) :=
  (Json.object members).map? Json.Value.ofJson?

namespace SearchRequest

/-- The request for factors of the eligible unit types, if the dimension is supported. A blank
query is left out and pages count from one. -/
def restrictedTo? (eligible : Eligibility) (query : Option String) (page : UInt32)
    (settings : SearchSettings) : Option SearchRequest :=
  eligible.names?.map fun names =>
    { query := query.filter fun q => !Text.isAllBlank q
      unitTypes := names
      page := max page 1
      resultsPerPage := settings.resultsPerPage
      filters := NameMap.empty }

/-- The request with one more filter; one of the same name is replaced. -/
def adding (r : SearchRequest) (name : String) (value : Json.Value) : SearchRequest :=
  { r with filters := r.filters.insert name value }

/-- Read a request. -/
def ofJson? (j : Json) : Option SearchRequest := do
  match ← j.openFields? ["query", "unitType", "page", "resultsPerPage"] with
  | ([query, unitTypes, page, resultsPerPage], rest) =>
    return ⟨← Json.optional Json.string? query,
      ← Json.defaulted [] (Json.list? Json.string?) unitTypes,
      ← Json.required Json.uint32? page, ← Json.required Json.uint32? resultsPerPage,
      ← Json.freeMap? rest⟩
  | _ => none

/-- Write a request. The filters follow the declared members, whatever their names. -/
def toJson (r : SearchRequest) : Json :=
  .object (Json.optionalMember "query" .string r.query ++
    (if r.unitTypes.isEmpty then [] else [("unitType", Json.ofList .string r.unitTypes)]) ++
    [("page", .int r.page.toNat), ("resultsPerPage", .int r.resultsPerPage.toNat)] ++
    Json.freeMembers r.filters)

end SearchRequest

namespace CatalogFactor

/-- The factor of a rule that refers to a catalog entry; the dimension of its unit type is
recorded. -/
def asFactor (f : CatalogFactor) (registry : Registry) : EmissionFactor :=
  .external (some f.id) ((registry.get? f.unitType).map (·.dim))

/-- Read a catalog entry. -/
def ofJson? (j : Json) : Option CatalogFactor := do
  match ← j.openFields? ["id", "name", "unit_type"] with
  | ([id, name, unitType], rest) =>
    return ⟨← Json.required Json.string? id, ← Json.required Json.string? name,
      ← Json.required Json.string? unitType, ← Json.freeMap? rest⟩
  | _ => none

/-- Write a catalog entry. -/
def toJson (f : CatalogFactor) : Json :=
  .object ([("id", .string f.id), ("name", .string f.name), ("unit_type", .string f.unitType)] ++
    Json.freeMembers f.details)

end CatalogFactor

namespace SearchAnswer

/-- Read an answer of the catalog. -/
def ofJson? (j : Json) : Option SearchAnswer := do
  match ← j.fields? ["results", "possibleFilters"] with
  | [results, possibleFilters] =>
    return ⟨← Json.required (Json.list? CatalogFactor.ofJson?) results,
      ← Json.defaulted NameMap.empty (Json.map? Json.Value.ofJson?) possibleFilters⟩
  | _ => none

/-- Write an answer of the catalog. -/
def toJson (r : SearchAnswer) : Json :=
  .object [("results", Json.ofList CatalogFactor.toJson r.results),
    ("possibleFilters", .object (Json.freeMembers r.possibleFilters))]

end SearchAnswer

end Footprint
