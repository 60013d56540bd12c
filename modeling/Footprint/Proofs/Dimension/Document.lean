import Footprint.Dimension.Document
import Footprint.Proofs.Dimension.Sum
import Footprint.Proofs.Json.Record

/-!
Dimensions in documents.

A dimension is written as the object of its entries, and is what the entries add up to, so it is
read back whatever carries the document.

* `ofJson?_object`: every object from names to exponents is read, the last of equal names counting.
* `ofJson?_carried`: a dimension is read as it was written.
-/

namespace Footprint.Dimension

open Json (Carries Written)

/-! ### Entries -/

theorem clampExponent_toInt (e : Int32) : clampExponent e.toInt = e := by
  have low := Int32.le_toInt e
  have high := Int32.toInt_lt e
  unfold clampExponent
  rw [if_neg (by omega), if_neg (by omega), Int32.ofInt_toInt]

/-- The exponent of a base after some entries: those of this base, in order. -/
theorem exponent_foldl_addClamped (entries : List (String × Int32)) (d : Dimension)
    (base : String) : (entries.foldl (fun d e => d.addClamped e.1 e.2) d).exponent base =
      (entries.filter fun e => e.1 = base).foldl
        (fun sum e => clampExponent (sum.toInt + e.2.toInt)) (d.exponent base) := by
  induction entries generalizing d with
  | nil => rfl
  | cons head rest ih =>
    rw [List.foldl_cons, ih, addClamped, exponent_set]
    by_cases same : head.1 = base
    · rw [List.filter_cons_of_pos (by simpa using same), List.foldl_cons, if_pos same.symm, same]
    · rw [List.filter_cons_of_neg (by simpa using same), if_neg (Ne.symm same)]

theorem filter_name_of_ascending {entries : List (String × Int32)}
    (ascending : entries.Pairwise fun a b => a.1 < b.1) (base : String) :
    (entries.filter fun e => e.1 = base) =
      ((NameMap.lookupEntry base entries).map fun e => (base, e)).toList := by
  induction entries with
  | nil => rfl
  | cons head rest ih =>
    obtain ⟨first, tail⟩ := List.pairwise_cons.mp ascending
    obtain ⟨name, e⟩ := head
    by_cases same : name = base
    · subst same
      have none : rest.filter (fun e => e.1 = name) = [] := by
        apply List.filter_eq_nil_iff.mpr
        intro other mem equal
        have after := first other mem
        rw [of_decide_eq_true equal] at after
        exact String.lt_irrefl name after
      rw [List.filter_cons_of_pos (by simp), none]
      simp [NameMap.lookupEntry]
    · rw [List.filter_cons_of_neg (by simpa using same), ih tail]
      simp [NameMap.lookupEntry, Ne.symm same]

/-- The dimension with the entries of a map has the exponents of the map. -/
theorem exponent_ofEntries_entries (m : NameMap Int32) (base : String) :
    (ofEntries m.entries).exponent base = (m.get? base).getD 0 := by
  rw [ofEntries, exponent_foldl_addClamped, filter_name_of_ascending m.ascending, exponent_one]
  show _ = (NameMap.lookupEntry base m.entries).getD 0
  cases NameMap.lookupEntry base m.entries with
  | none => rfl
  | some e =>
    show clampExponent (0 + e.toInt) = e
    rw [Int.zero_add, clampExponent_toInt]

/-- A dimension is made of its own entries. -/
theorem ofEntries_entries (d : Dimension) : ofEntries d.entries = d :=
  ext_exponent (exponent_ofEntries_entries d.exponents)

/-! ### Documents -/

theorem int32?_int (e : Int32) : Json.int32? (.int e.toInt) = some e :=
  fitExponent?_eq_some_iff.mpr rfl

/-- Every object from names to exponents is read; of members with equal names the last one
counts. -/
theorem ofJson?_object (members : List (String × Int32)) :
    ofJson? (.object (members.map fun e => (e.1, .int e.2.toInt))) =
      some (ofEntries (NameMap.ofList members).entries) := by
  have read : (members.map fun e => (e.1, Json.int e.2.toInt)).mapM
      (fun e => (Json.int32? e.2).map fun a => (e.1, a)) = some members := by
    rw [List.mapM_map]
    exact (Json.mapM_eq_some_map fun e _ => by simp [int32?_int]).trans
      (congrArg some (List.map_id members))
  simp only [ofJson?, Json.map?, Json.members?, read, Option.map_some]

theorem written_toJson {fractions : Prop} (d : Dimension) : Written fractions 1 d.toJson := by
  refine .object ?_
  intro e mem
  obtain ⟨entry, -, rfl⟩ := List.mem_map.mp mem
  obtain ⟨low, high⟩ := exponentRange_toInt entry.2
  exact .int ⟨by omega, by omega⟩

variable {f : Json → Json} (carries : Carries f) (d : Dimension)
include carries

theorem carried_ne_null : f d.toJson ≠ .null := by
  refine carries.object_ne_null ?_
  rw [List.map_map]
  exact d.exponents.nodup_names

theorem ofJson?_carried : ofJson? (f d.toJson) = some d := by
  have each : ∀ e : Int32, Json.int32? (f (.int e.toInt)) = some e := by
    intro e
    obtain ⟨low, high⟩ := exponentRange_toInt e
    rw [carries.int ⟨by omega, by omega⟩, int32?_int]
  have exponents : (f d.toJson).map? Json.int32? = some d.exponents :=
    carries.map?_ofMap each d.exponents
  rw [ofJson?, exponents]
  exact congrArg some (ofEntries_entries d)

end Footprint.Dimension
