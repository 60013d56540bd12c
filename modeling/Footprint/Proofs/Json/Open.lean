import Footprint.Proofs.Json.Reordered
import Footprint.Search.Request

/-!
Records with free members.

A record may have members of any names beside its declared fields. They stand in one object with
the declared ones, so they are told apart by their names only.

* `exists_openFields?_free`: free members that avoid the declared names are read back.
* `avoids_of_openFields?`: what is read as free members avoids the declared names.
* `namesOnce_free`: members that avoid each other stand once.
-/

namespace Footprint

/-! ### Names of entries -/

namespace NameMap

variable {α : Type}

/-- No entry has one of the names. -/
def Avoids (m : NameMap α) (names : List String) : Prop := ∀ e ∈ m.entries, e.1 ∉ names

/-- The names of a map are among those of the entries it is made of. -/
theorem avoids_ofList {pairs : List (String × α)} {names : List String}
    (apart : ∀ e ∈ pairs, e.1 ∉ names) : (ofList pairs).Avoids names := by
  intro e mem listed
  have found : (ofList pairs).get? e.1 = some e.2 := get?_eq_some_iff.mpr mem
  have none : lookupEntry e.1 pairs.reverse = none := by
    refine lookupEntry_eq_none fun d given same => ?_
    exact apart d (List.mem_reverse.mp given) (same ▸ listed)
  rw [get?_ofList, none] at found
  cases found

theorem insert_comm (m : NameMap α) {a b : String} (other : a ≠ b) (x y : α) :
    (m.insert a x).insert b y = (m.insert b y).insert a x := by
  refine ext_get? fun name => ?_
  rw [get?_insert, get?_insert, get?_insert, get?_insert]
  by_cases first : name = a
  · subst first
    rw [if_neg other, if_pos rfl, if_pos rfl]
  · rw [if_neg first, if_neg first]

end NameMap

namespace Json

/-! ### Reading maps -/

theorem exists_of_mem_mapM {α β : Type} {f : α → Option β} {items : List α} {read : List β}
    (done : items.mapM f = some read) {b : β} (mem : b ∈ read) : ∃ a ∈ items, f a = some b := by
  induction items generalizing read with
  | nil =>
    cases done
    cases mem
  | cons a rest ih =>
    rw [List.mapM_cons] at done
    obtain ⟨first, found, done⟩ := Option.bind_eq_some_iff.mp done
    obtain ⟨others, all, done⟩ := Option.bind_eq_some_iff.mp done
    cases done
    rcases List.mem_cons.mp mem with rfl | mem
    · exact ⟨a, List.mem_cons_self, found⟩
    · obtain ⟨c, given, same⟩ := ih all mem
      exact ⟨c, List.mem_cons_of_mem _ given, same⟩

theorem avoids_of_map? {α : Type} {value? : Json → Option α} {members : List (String × Json)}
    {m : NameMap α} {names : List String} (read : (Json.object members).map? value? = some m)
    (apart : ∀ e ∈ members, e.1 ∉ names) : m.Avoids names := by
  obtain ⟨pairs, done, rfl⟩ := Option.map_eq_some_iff.mp read
  refine NameMap.avoids_ofList fun e mem => ?_
  obtain ⟨d, given, found⟩ := exists_of_mem_mapM done mem
  obtain ⟨_, -, rfl⟩ := Option.map_eq_some_iff.mp found
  exact apart d given

/-! ### Free members -/

/-- The free members of a record, as fields. -/
def freeFields (m : NameMap Value) : List (String × Option Json) :=
  m.entries.map fun e => (e.1, some e.2.tree)

section Free

variable {m : NameMap Value} {fields : List (String × Option Json)}

theorem freeMembers_eq_present (m : NameMap Value) : freeMembers m = present (freeFields m) := by
  rw [freeMembers, present, freeFields, List.filterMap_map, ← List.filterMap_eq_map]
  rfl

theorem names_freeFields (m : NameMap Value) :
    (freeFields m).map (·.1) = m.entries.map (·.1) := by
  rw [freeFields, List.map_map]
  rfl

theorem nodup_free (distinct : (fields.map (·.1)).Nodup) (apart : m.Avoids (fields.map (·.1))) :
    ((freeFields m ++ fields).map (·.1)).Nodup := by
  rw [List.map_append, names_freeFields]
  refine m.nodup_names.append distinct fun name mem declared => ?_
  obtain ⟨e, given, rfl⟩ := List.mem_map.mp mem
  exact apart e given declared

/-- Free members that avoid the declared names are read back beside the declared fields. -/
theorem exists_openFields?_free (distinct : (fields.map (·.1)).Nodup)
    (apart : m.Avoids (fields.map (·.1))) :
    ∃ rest, openFields? (fields.map (·.1)) (.object (present fields ++ freeMembers m)) =
        some (fields.map (·.2), rest) ∧ freeMap? rest = some m := by
  have perm : (present fields ++ freeMembers m).Perm (present (freeFields m ++ fields)) := by
    rw [freeMembers_eq_present, present_append]
    exact List.perm_append_comm
  have readable : ∀ e ∈ present (freeFields m), e.2.readable = true := by
    intro e mem
    rw [← freeMembers_eq_present] at mem
    obtain ⟨d, -, rfl⟩ := List.mem_map.mp mem
    exact d.2.readable
  obtain ⟨rest, opened, free⟩ := openFields?_of_perm perm (nodup_free distinct apart) readable
  refine ⟨rest, opened, ?_⟩
  rw [← freeMembers_eq_present] at free
  exact map?_of_perm Value.ofJson?_tree free

/-- What is read as free members avoids the declared names. -/
theorem avoids_of_openFields? {names : List String} {j : Json} {values : List (Option Json)}
    {rest : List (String × Json)} (opened : openFields? names j = some (values, rest))
    (read : freeMap? rest = some m) : m.Avoids names := by
  cases j with
  | object members =>
    obtain ⟨found, -, kept⟩ := Option.bind_eq_some_iff.mp opened
    dsimp only at kept
    split at kept
    · cases kept
      exact avoids_of_map? read fun e mem => of_decide_eq_true (List.mem_filter.mp mem).2
    · cases kept
  | null | bool | int | float | string | array | unreadable => cases opened

/-- Members that avoid each other stand once. -/
theorem namesOnce_free (distinct : (fields.map (·.1)).Nodup)
    (each : ∀ f ∈ fields, ∀ value, f.2 = some value → NamesOnce value)
    (apart : m.Avoids (fields.map (·.1))) :
    NamesOnce (.object (present fields ++ freeMembers m)) := by
  rw [freeMembers_eq_present, ← present_append]
  have moved : ((freeFields m ++ fields).map (·.1)).Perm ((fields ++ freeFields m).map (·.1)) :=
    List.perm_append_comm.map _
  have names := moved.nodup_iff.mp (nodup_free distinct apart)
  refine namesOnce_present names fun f mem value found => ?_
  rcases List.mem_append.mp mem with mem | mem
  · exact each f mem value found
  · obtain ⟨e, -, rfl⟩ := List.mem_map.mp mem
    cases found
    exact namesOnce_of_ordered e.2.ordered

theorem plain_free {levels : Nat}
    (each : ∀ f ∈ fields, ∀ value, f.2 = some value → Plain levels value)
    (free : ∀ e ∈ m.entries, Plain levels e.2.tree) :
    Plain (levels + 1) (.object (present fields ++ freeMembers m)) := by
  refine .object fun e mem => ?_
  rcases List.mem_append.mp mem with mem | mem
  · exact each _ (mem_present_iff.mp mem) _ rfl
  · obtain ⟨d, given, rfl⟩ := List.mem_map.mp mem
    exact free d given

end Free

end Json

end Footprint
