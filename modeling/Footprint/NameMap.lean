/-!
Finite maps from names, kept in ascending order of the names.

The entries are stored once per name and sorted, so equality of maps is equality of entries:

* `NameMap.ext_get?`: two maps that answer every look-up alike are equal;
* `get?_insert`, `get?_erase`: what an update does, seen through look-up;
* `NameMap.ofList` reads a list of pairs, the last of equal names winning (`get?_ofList`).

Names are compared by code points, which is the order of their UTF-8 bytes.
-/

namespace Footprint

/-- A map from names to values: one entry per name, in ascending order of the names. -/
structure NameMap (α : Type) where
  entries : List (String × α)
  ascending : entries.Pairwise fun a b => a.1 < b.1
deriving DecidableEq, Repr

namespace NameMap

variable {α : Type}

/-! ### Sorted lists of entries -/

/-- Put `value` under `name` into a sorted list, replacing what stood there. -/
def insertEntry (name : String) (value : α) : List (String × α) → List (String × α)
  | [] => [(name, value)]
  | (other, kept) :: rest =>
    if name < other then (name, value) :: (other, kept) :: rest
    else if name = other then (name, value) :: rest
    else (other, kept) :: insertEntry name value rest

/-- The value under `name` in a list of entries. -/
def lookupEntry (name : String) : List (String × α) → Option α
  | [] => none
  | (other, value) :: rest => if name = other then some value else lookupEntry name rest

theorem mem_insertEntry {name : String} {value : α} {entries : List (String × α)}
    {e : String × α} (h : e ∈ insertEntry name value entries) :
    e = (name, value) ∨ e ∈ entries := by
  induction entries with
  | nil => simpa [insertEntry] using h
  | cons head rest ih =>
    simp only [insertEntry] at h
    split at h
    · simpa using h
    · split at h
      · rcases List.mem_cons.mp h with h | h
        · exact .inl h
        · exact .inr (List.mem_cons_of_mem _ h)
      · rcases List.mem_cons.mp h with h | h
        · exact .inr (h ▸ List.mem_cons_self)
        · exact (ih h).imp id (List.mem_cons_of_mem _)

theorem pairwise_insertEntry {name : String} {value : α} {entries : List (String × α)}
    (h : entries.Pairwise fun a b => a.1 < b.1) :
    (insertEntry name value entries).Pairwise fun a b => a.1 < b.1 := by
  induction entries with
  | nil => simp [insertEntry]
  | cons head rest ih =>
    obtain ⟨first, tail⟩ := List.pairwise_cons.mp h
    simp only [insertEntry]
    split
    · rename_i before
      refine List.pairwise_cons.mpr ⟨fun e he => ?_, h⟩
      rcases List.mem_cons.mp he with he | he
      · exact he ▸ before
      · exact String.lt_trans before (first e he)
    · split
      · rename_i same
        exact List.pairwise_cons.mpr ⟨fun e he => same ▸ first e he, tail⟩
      · rename_i notBefore notSame
        refine List.pairwise_cons.mpr ⟨fun e he => ?_, ih tail⟩
        rcases mem_insertEntry he with he | he
        · subst he
          exact Std.lt_of_le_of_ne (String.not_lt.mp notBefore) (Ne.symm notSame)
        · exact first e he

/-- A name after all others is put at the end. -/
theorem insertEntry_of_last {name : String} {value : α} {entries : List (String × α)}
    (last : ∀ e ∈ entries, e.1 < name) :
    insertEntry name value entries = entries ++ [(name, value)] := by
  induction entries with
  | nil => rfl
  | cons head rest ih =>
    have before := last head List.mem_cons_self
    have notSame : name ≠ head.1 := fun same => String.lt_irrefl name (by rwa [← same] at before)
    rw [insertEntry, if_neg (String.lt_asymm before), if_neg notSame,
      ih fun e mem => last e (List.mem_cons_of_mem _ mem), List.cons_append]

theorem lookupEntry_insertEntry (name other : String) (value : α) (entries : List (String × α)) :
    lookupEntry other (insertEntry name value entries) =
      if other = name then some value else lookupEntry other entries := by
  induction entries with
  | nil => simp [insertEntry, lookupEntry]
  | cons head rest ih =>
    simp only [insertEntry]
    split
    · simp [lookupEntry]
    · split
      · rename_i same
        simp only [lookupEntry, ← same]
        split <;> rfl
      · rename_i notSame
        simp only [lookupEntry, ih]
        split
        · rename_i atHead
          simp [atHead, Ne.symm notSame]
        · rfl

theorem lookupEntry_eq_none {name : String} {entries : List (String × α)}
    (h : ∀ e ∈ entries, e.1 ≠ name) : lookupEntry name entries = none := by
  induction entries with
  | nil => rfl
  | cons head rest ih =>
    simp only [lookupEntry]
    rw [if_neg fun same => h head List.mem_cons_self same.symm]
    exact ih fun e he => h e (List.mem_cons_of_mem _ he)

theorem lookupEntry_eq_some_iff {name : String} {value : α} {entries : List (String × α)}
    (h : entries.Pairwise fun a b => a.1 < b.1) :
    lookupEntry name entries = some value ↔ (name, value) ∈ entries := by
  induction entries with
  | nil => simp [lookupEntry]
  | cons head rest ih =>
    obtain ⟨first, tail⟩ := List.pairwise_cons.mp h
    obtain ⟨other, kept⟩ := head
    simp only [lookupEntry]
    split
    · rename_i same
      subst same
      constructor
      · intro found
        cases found
        exact List.mem_cons_self
      · intro found
        rcases List.mem_cons.mp found with found | found
        · cases found
          rfl
        · exact absurd (first _ found) (String.lt_irrefl _)
    · rename_i notSame
      rw [ih tail]
      simp [notSame]

theorem eq_of_lookupEntry_eq {a b : List (String × α)}
    (ha : a.Pairwise fun x y => x.1 < y.1) (hb : b.Pairwise fun x y => x.1 < y.1)
    (h : ∀ name, lookupEntry name a = lookupEntry name b) : a = b := by
  have members : ∀ e, e ∈ a ↔ e ∈ b := fun e => by
    rw [← lookupEntry_eq_some_iff ha, ← lookupEntry_eq_some_iff hb, h]
  clear h
  induction a generalizing b with
  | nil =>
    cases b with
    | nil => rfl
    | cons y ys => exact absurd ((members y).mpr List.mem_cons_self) (by simp)
  | cons x xs ih =>
    cases b with
    | nil => exact absurd ((members x).mp List.mem_cons_self) (by simp)
    | cons y ys =>
      obtain ⟨xFirst, xTail⟩ := List.pairwise_cons.mp ha
      obtain ⟨yFirst, yTail⟩ := List.pairwise_cons.mp hb
      have same : x = y := by
        rcases List.mem_cons.mp ((members x).mp List.mem_cons_self) with hx | hx
        · exact hx
        · rcases List.mem_cons.mp ((members y).mpr List.mem_cons_self) with hy | hy
          · exact hy.symm
          · exact absurd (String.lt_trans (xFirst y hy) (yFirst x hx)) (String.lt_irrefl _)
      subst same
      congr 1
      refine ih xTail yTail fun e => ⟨fun he => ?_, fun he => ?_⟩
      · rcases List.mem_cons.mp ((members e).mp (List.mem_cons_of_mem _ he)) with h | h
        · exact absurd (xFirst e he) (h ▸ String.lt_irrefl _)
        · exact h
      · rcases List.mem_cons.mp ((members e).mpr (List.mem_cons_of_mem _ he)) with h | h
        · exact absurd (yFirst e he) (h ▸ String.lt_irrefl _)
        · exact h

/-! ### Maps -/

/-- The map without entries. -/
def empty : NameMap α := ⟨[], .nil⟩

instance : Inhabited (NameMap α) := ⟨empty⟩

/-- The value under `name`. -/
def get? (m : NameMap α) (name : String) : Option α := lookupEntry name m.entries

/-- `m` with `value` under `name`. -/
def insert (m : NameMap α) (name : String) (value : α) : NameMap α :=
  ⟨insertEntry name value m.entries, pairwise_insertEntry m.ascending⟩

/-- `m` without an entry under `name`. -/
def erase (m : NameMap α) (name : String) : NameMap α :=
  ⟨m.entries.filter (fun e => e.1 ≠ name), m.ascending.filter _⟩

/-- The entries of a list of pairs; of pairs with equal names the last one counts. -/
def ofList (pairs : List (String × α)) : NameMap α :=
  pairs.foldl (fun m e => m.insert e.1 e.2) empty

@[simp] theorem get?_empty (name : String) : (empty : NameMap α).get? name = none := rfl

theorem get?_insert (m : NameMap α) (name other : String) (value : α) :
    (m.insert name value).get? other = if other = name then some value else m.get? other :=
  lookupEntry_insertEntry name other value m.entries

theorem get?_eq_some_iff {m : NameMap α} {name : String} {value : α} :
    m.get? name = some value ↔ (name, value) ∈ m.entries :=
  lookupEntry_eq_some_iff m.ascending

theorem get?_erase (m : NameMap α) (name other : String) :
    (m.erase name).get? other = if other = name then none else m.get? other := by
  apply Option.ext
  intro value
  rw [get?_eq_some_iff]
  by_cases h : other = name
  · simp [erase, h]
  · simp [erase, h, get?_eq_some_iff]

theorem lookupEntry_append (name : String) (a b : List (String × α)) :
    lookupEntry name (a ++ b) = (lookupEntry name a).or (lookupEntry name b) := by
  induction a with
  | nil => rfl
  | cons head rest ih =>
    simp only [List.cons_append, lookupEntry, ih]
    split <;> rfl

theorem get?_foldl_insert (m : NameMap α) (pairs : List (String × α)) (name : String) :
    (pairs.foldl (fun m e => m.insert e.1 e.2) m).get? name =
      (lookupEntry name pairs.reverse).or (m.get? name) := by
  induction pairs generalizing m with
  | nil => rfl
  | cons head rest ih =>
    rw [List.foldl_cons, ih, get?_insert, List.reverse_cons, lookupEntry_append]
    cases lookupEntry name rest.reverse with
    | some _ => rfl
    | none =>
      simp only [lookupEntry, Option.none_or]
      split <;> rfl

/-- Of pairs with equal names the last one is found. -/
theorem get?_ofList (pairs : List (String × α)) (name : String) :
    (ofList pairs).get? name = lookupEntry name pairs.reverse := by
  rw [ofList, get?_foldl_insert, get?_empty, Option.or_none]

/-- Maps are equal when every look-up agrees. -/
theorem ext_get? {a b : NameMap α} (h : ∀ name, a.get? name = b.get? name) : a = b := by
  have same := eq_of_lookupEntry_eq a.ascending b.ascending h
  cases a
  cases b
  cases same
  rfl

end NameMap

end Footprint
