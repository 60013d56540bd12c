import Footprint.Proofs.Double.Reread
import Footprint.Proofs.Json.Read
import Mathlib.Data.List.Nodup

/-!
Trees on their way.

Between being written and being read, a tree may change: its numbers are read from their texts, and
an answer to a host lists the members of its objects by name. `Carries f` says what a reader can
rely on when `f` is what happens: single values arrive as they are, fractions apart, items arrive
one by one, and the members of an object in any order.

* `carries_id`, `carries_reread`, `carries_sorted`, and `Carries.comp` for one after the other.
* `levels_sorted_le`: sorting adds no level.
* `NameMap.ofList_eq_of_perm`, `NameMap.ofList_of_perm`: the order of its entries makes no
  difference to a map.
-/

namespace Footprint

/-! ### Entries in any order -/

namespace NameMap

variable {α : Type}

/-- A new name is put between the others. -/
theorem insertEntry_perm {name : String} {value : α} {entries : List (String × α)}
    (fresh : name ∉ entries.map (·.1)) :
    (insertEntry name value entries).Perm ((name, value) :: entries) := by
  induction entries with
  | nil => exact .refl _
  | cons head rest ih =>
    obtain ⟨other, kept⟩ := head
    simp only [List.map_cons, List.mem_cons, not_or] at fresh
    unfold insertEntry
    split
    · exact .refl _
    · rw [if_neg fresh.1]
      exact ((ih fresh.2).cons _).trans (.swap ..)

/-- New names are put between the others one by one. -/
theorem foldl_insertEntry_perm (pairs entries : List (String × α))
    (distinct : ((entries ++ pairs).map (·.1)).Nodup) :
    (pairs.foldl (fun placed e => insertEntry e.1 e.2 placed) entries).Perm (entries ++ pairs) := by
  induction pairs generalizing entries with
  | nil =>
    rw [List.append_nil]
    exact .refl _
  | cons head rest ih =>
    have moved : (entries ++ head :: rest).Perm (head :: entries ++ rest) := List.perm_middle
    have distinct := (moved.map (·.1)).nodup_iff.mp distinct
    have fresh : head.1 ∉ entries.map (·.1) := by
      rw [List.cons_append, List.map_cons, List.nodup_cons, List.map_append] at distinct
      exact fun mem => distinct.1 (List.mem_append_left _ mem)
    have step := (@insertEntry_perm α head.1 head.2 entries fresh).append_right rest
    have others := ih _ ((step.map (·.1)).nodup_iff.mpr distinct)
    exact (others.trans step).trans moved.symm

theorem entries_foldl_insert_eq (pairs : List (String × α)) (m : NameMap α) :
    (pairs.foldl (fun m e => m.insert e.1 e.2) m).entries =
      pairs.foldl (fun placed e => insertEntry e.1 e.2 placed) m.entries := by
  induction pairs generalizing m with
  | nil => rfl
  | cons head rest ih => exact ih _

/-- Entries in strictly ascending order are determined by what they are. -/
theorem eq_of_perm {a b : NameMap α} (perm : a.entries.Perm b.entries) : a = b := by
  have same : a.entries = b.entries :=
    perm.eq_of_pairwise (fun x y _ _ less more =>
      absurd (String.lt_trans less more) (String.lt_irrefl _)) a.ascending b.ascending
  cases a
  cases b
  cases same
  rfl

/-- Entries in strictly ascending order have different names. -/
theorem nodup_of_ascending {entries : List (String × α)}
    (ascending : entries.Pairwise fun a b => a.1 < b.1) : (entries.map (·.1)).Nodup := by
  refine List.pairwise_map.mpr (ascending.imp fun less same => ?_)
  rw [same] at less
  exact String.lt_irrefl _ less

theorem nodup_names (m : NameMap α) : (m.entries.map (·.1)).Nodup :=
  nodup_of_ascending m.ascending

/-- Entries of different names are all kept. -/
theorem entries_ofList_perm {pairs : List (String × α)} (distinct : (pairs.map (·.1)).Nodup) :
    (ofList pairs).entries.Perm pairs := by
  rw [ofList, entries_foldl_insert_eq]
  exact foldl_insertEntry_perm pairs [] distinct

/-- Entries of different names make the same map in whatever order. -/
theorem ofList_eq_of_perm {pairs others : List (String × α)} (perm : pairs.Perm others)
    (distinct : (pairs.map (·.1)).Nodup) : ofList pairs = ofList others := by
  have distinctOthers := (perm.map (·.1)).nodup_iff.mp distinct
  refine eq_of_perm ((entries_ofList_perm distinct).trans ?_)
  exact perm.trans (entries_ofList_perm distinctOthers).symm

/-- The entries of a map list this map, in whatever order. -/
theorem ofList_of_perm {pairs : List (String × α)} (m : NameMap α)
    (perm : pairs.Perm m.entries) : ofList pairs = m := by
  have distinct := (perm.map (·.1)).nodup_iff.mpr m.nodup_names
  exact eq_of_perm ((entries_ofList_perm distinct).trans perm)

end NameMap

namespace Json

/-! ### Sorted trees -/

theorem sortedItems_eq_map (items : List Json) : sortedItems items = items.map sorted := by
  induction items with
  | nil => rfl
  | cons item rest ih => rw [sortedItems, ih, List.map_cons]

theorem sortedMembers_eq_foldl (members placed : List (String × Json)) :
    sortedMembers placed members = (members.map fun e => (e.1, e.2.sorted)).foldl
      (fun placed e => NameMap.insertEntry e.1 e.2 placed) placed := by
  induction members generalizing placed with
  | nil => rfl
  | cons e rest ih => exact ih _

/-- Members of different names are all kept. -/
theorem sortedMembers_perm {members : List (String × Json)}
    (distinct : (members.map (·.1)).Nodup) :
    (sortedMembers [] members).Perm (members.map fun e => (e.1, e.2.sorted)) := by
  rw [sortedMembers_eq_foldl]
  refine NameMap.foldl_insertEntry_perm _ [] ?_
  rwa [List.nil_append, List.map_map]

theorem levels_sortedMembers_le {n : Nat} (members placed : List (String × Json))
    (each : ∀ e ∈ members, e.2.sorted.levels ≤ n) (before : levelsMembers placed ≤ n) :
    levelsMembers (sortedMembers placed members) ≤ n := by
  induction members generalizing placed with
  | nil => exact before
  | cons e rest ih =>
    obtain ⟨name, value⟩ := e
    refine ih _ (fun e mem => each e (List.mem_cons_of_mem _ mem)) ?_
    refine levelsMembers_le_iff.mpr fun e mem => ?_
    rcases NameMap.mem_insertEntry mem with rfl | mem
    · exact each (name, value) List.mem_cons_self
    · exact levelsMembers_le_iff.mp before e mem

/-- Sorting adds no level. -/
theorem levels_sorted_le (j : Json) : j.sorted.levels ≤ j.levels := by
  induction j using tree_induction with
  | null | bool | int | float | string | unreadable => exact Nat.le_refl _
  | array items ih =>
    have all := levelsItems_le_iff.mp (Nat.le_refl (levelsItems items))
    rw [sorted, sortedItems_eq_map]
    refine Nat.succ_le_succ (levelsItems_le_iff.mpr fun item mem => ?_)
    obtain ⟨j, given, rfl⟩ := List.mem_map.mp mem
    exact (ih j given).trans (all j given)
  | object members ih =>
    have all := levelsMembers_le_iff.mp (Nat.le_refl (levelsMembers members))
    rw [sorted]
    refine Nat.succ_le_succ (levels_sortedMembers_le members [] (fun e mem => ?_) (Nat.zero_le _))
    exact (ih e mem).trans (all e mem)

/-! ### What arrives -/

/-- What a reader can rely on when `f` happens to a tree on its way. -/
structure Carries (f : Json → Json) : Prop where
  null : f .null = .null
  bool (b : Bool) : f (.bool b) = .bool b
  int {i : Int} : IntRange i → f (.int i) = .int i
  string (s : String) : f (.string s) = .string s
  array (items : List Json) : f (.array items) = .array (items.map f)
  /-- Members of different names all arrive, in whatever order. -/
  object {members : List (String × Json)} : (members.map (·.1)).Nodup →
    ∃ arrived, f (.object members) = .object arrived ∧
      arrived.Perm (members.map fun e => (e.1, f e.2))
  readable {j : Json} : j.readable = true → (f j).readable = true

/-- Nothing happens. -/
theorem carries_id : Carries id where
  null := rfl
  bool _ := rfl
  int _ := rfl
  string _ := rfl
  array items := by rw [List.map_id]; rfl
  object {members} _ := ⟨members, rfl, .of_eq (List.map_id members).symm⟩
  readable legible := legible

theorem readable_reread {j : Json} (legible : j.readable = true) : j.reread.readable = true := by
  induction j using tree_induction with
  | null | bool | string => rfl
  | unreadable => exact absurd legible Bool.false_ne_true
  | int i =>
    rw [reread, Numeral.toJson_ofInt (of_decide_eq_true legible)]
    exact legible
  | float x =>
    obtain ⟨y, read, -⟩ := x.exists_reread
    rw [reread, read]
    rfl
  | array items ih =>
    have each := readableItems_iff.mp legible
    rw [reread, rereadItems_eq_map]
    refine readableItems_iff.mpr fun item mem => ?_
    obtain ⟨j, given, rfl⟩ := List.mem_map.mp mem
    exact ih j given (each j given)
  | object members ih =>
    have each := readableMembers_iff.mp legible
    rw [reread, rereadMembers_eq_map]
    refine readableMembers_iff.mpr fun e mem => ?_
    obtain ⟨d, given, rfl⟩ := List.mem_map.mp mem
    exact ih d given (each d given)

/-- The tree is written and read. -/
theorem carries_reread : Carries reread where
  null := rfl
  bool _ := rfl
  int inRange := Numeral.toJson_ofInt inRange
  string _ := rfl
  array items := by rw [reread, rereadItems_eq_map]
  object {members} _ := ⟨_, rfl, by rw [rereadMembers_eq_map]⟩
  readable := readable_reread

/-- The members of all objects are sorted by name. -/
theorem carries_sorted : Carries sorted where
  null := rfl
  bool _ := rfl
  int _ := rfl
  string _ := rfl
  array items := by rw [sorted, sortedItems_eq_map]
  object {members} distinct := ⟨_, rfl, sortedMembers_perm distinct⟩
  readable {j} legible := readable_sorted j legible

/-- One after the other. -/
theorem Carries.comp {f g : Json → Json} (first : Carries f) (next : Carries g) :
    Carries fun j => g (f j) where
  null := by rw [first.null, next.null]
  bool b := by rw [first.bool, next.bool]
  int inRange := by rw [first.int inRange, next.int inRange]
  string s := by rw [first.string, next.string]
  array items := by rw [first.array, next.array, List.map_map]; rfl
  object {members} distinct := by
    obtain ⟨between, sent, perm⟩ := first.object distinct
    have names : (between.map (·.1)).Perm (members.map (·.1)) := by
      have mapped := perm.map (·.1)
      rwa [List.map_map] at mapped
    obtain ⟨arrived, received, perm'⟩ := next.object (names.nodup_iff.mpr distinct)
    refine ⟨arrived, by rw [sent, received], perm'.trans ?_⟩
    have mapped := perm.map fun e => (e.1, g e.2)
    rwa [List.map_map] at mapped
  readable legible := next.readable (first.readable legible)

end Json

end Footprint
