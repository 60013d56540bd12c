import Footprint.NameMap
import Footprint.Double.Basic

/-!
Document trees.

`Json` is what a document says. A document can be well formed and still say something that has no
value: a number beyond the range of doubles, a text with half of a surrogate pair, an object with
such a name, or a container below the deepest level. Such a part is read as `unreadable`, and does
no harm where it is skipped. A part without one is `readable`.

`Json.Value` is a tree whose objects list their members once and by name. It is what a free part
of a document is kept as; `Json.Value.ofJson?` makes one of any readable tree.
-/

namespace Footprint

-- Powers are those of the core library, whichever instances a reader of the module has in scope.
attribute [local instance (high)] instPowNat

/-- A document tree. Whole numbers are those of 64 bits, with or without sign; members of objects
are in the order of the text. -/
inductive Json where
  | null
  | bool (b : Bool)
  | int (i : Int)
  | float (x : Double)
  | string (s : String)
  | array (items : List Json)
  | object (members : List (String × Json))
  | unreadable
deriving Inhabited

namespace Json

/-- The whole numbers that are kept exact. -/
def IntRange (i : Int) : Prop := -2 ^ (63 : Nat) ≤ i ∧ i < 2 ^ (64 : Nat)

instance (i : Int) : Decidable (IntRange i) := inferInstanceAs (Decidable (_ ∧ _))

/-! ### Readable trees -/

mutual

/-- Whether every part of the tree has a value. -/
def readable : Json → Bool
  | .null | .bool _ | .float _ | .string _ => true
  | .int i => decide (IntRange i)
  | .array items => readableItems items
  | .object members => readableMembers members
  | .unreadable => false

/-- Whether all items are readable. -/
def readableItems : List Json → Bool
  | [] => true
  | item :: rest => item.readable && readableItems rest

/-- Whether all members are readable. -/
def readableMembers : List (String × Json) → Bool
  | [] => true
  | (_, value) :: rest => value.readable && readableMembers rest

end

/-! ### Sorted trees -/

mutual

/-- The tree with the members of each object sorted by name; of members with equal names the last
one stays. -/
def sorted : Json → Json
  | .array items => .array (sortedItems items)
  | .object members => .object (sortedMembers [] members)
  | .null => .null
  | .bool b => .bool b
  | .int i => .int i
  | .float x => .float x
  | .string s => .string s
  | .unreadable => .unreadable

/-- Each item sorted. -/
def sortedItems : List Json → List Json
  | [] => []
  | item :: rest => item.sorted :: sortedItems rest

/-- The members put one by one into the sorted list `placed`. -/
def sortedMembers (placed : List (String × Json)) : List (String × Json) → List (String × Json)
  | [] => placed
  | (name, value) :: rest => sortedMembers (NameMap.insertEntry name value.sorted placed) rest

end

mutual

/-- Whether each object lists its members in strictly ascending order of their names. -/
def ordered : Json → Bool
  | .array items => orderedItems items
  | .object members => decide (members.Pairwise fun a b => a.1 < b.1) && orderedMembers members
  | _ => true

/-- Whether all items are ordered. -/
def orderedItems : List Json → Bool
  | [] => true
  | item :: rest => item.ordered && orderedItems rest

/-- Whether all members are ordered. -/
def orderedMembers : List (String × Json) → Bool
  | [] => true
  | (_, value) :: rest => value.ordered && orderedMembers rest

end

theorem readableMembers_iff {members : List (String × Json)} :
    readableMembers members = true ↔ ∀ e ∈ members, e.2.readable = true := by
  induction members with
  | nil => simp [readableMembers]
  | cons head rest ih =>
    obtain ⟨name, value⟩ := head
    simp [readableMembers, ih]

theorem orderedMembers_iff {members : List (String × Json)} :
    orderedMembers members = true ↔ ∀ e ∈ members, e.2.ordered = true := by
  induction members with
  | nil => simp [orderedMembers]
  | cons head rest ih =>
    obtain ⟨name, value⟩ := head
    simp [orderedMembers, ih]

mutual

theorem ordered_sorted : (j : Json) → j.sorted.ordered = true
  | .array items => by
    simp only [sorted, ordered]
    exact orderedItems_sorted items
  | .object members => by
    have h := ordered_sortedMembers members [] .nil (by simp)
    simp only [sorted, ordered, Bool.and_eq_true, decide_eq_true_eq]
    exact ⟨h.1, orderedMembers_iff.mpr h.2⟩
  | .null | .bool _ | .int _ | .float _ | .string _ | .unreadable => rfl

theorem orderedItems_sorted : (items : List Json) → orderedItems (sortedItems items) = true
  | [] => rfl
  | item :: rest => by
    simp only [sortedItems, orderedItems, Bool.and_eq_true]
    exact ⟨ordered_sorted item, orderedItems_sorted rest⟩

theorem ordered_sortedMembers : (members placed : List (String × Json)) →
    placed.Pairwise (fun a b => a.1 < b.1) → (∀ e ∈ placed, e.2.ordered = true) →
    (sortedMembers placed members).Pairwise (fun a b => a.1 < b.1) ∧
      ∀ e ∈ sortedMembers placed members, e.2.ordered = true
  | [], _, h, all => ⟨h, all⟩
  | (name, value) :: rest, placed, h, all => by
    simp only [sortedMembers]
    refine ordered_sortedMembers rest _ (NameMap.pairwise_insertEntry h) fun e he => ?_
    rcases NameMap.mem_insertEntry he with he | he
    · exact he ▸ ordered_sorted value
    · exact all e he

end

mutual

theorem sorted_of_ordered : (j : Json) → j.ordered = true → j.sorted = j
  | .array items, h => by
    simp only [ordered] at h
    rw [sorted, sortedItems_of_ordered items h]
  | .object members, h => by
    simp only [ordered, Bool.and_eq_true, decide_eq_true_eq] at h
    rw [sorted, sortedMembers_of_ordered members [] h.1 h.2, List.nil_append]
  | .null, _ | .bool _, _ | .int _, _ | .float _, _ | .string _, _ | .unreadable, _ => rfl

theorem sortedItems_of_ordered : (items : List Json) → orderedItems items = true →
    sortedItems items = items
  | [], _ => rfl
  | item :: rest, h => by
    simp only [orderedItems, Bool.and_eq_true] at h
    rw [sortedItems, sorted_of_ordered item h.1, sortedItems_of_ordered rest h.2]

theorem sortedMembers_of_ordered : (members placed : List (String × Json)) →
    (placed ++ members).Pairwise (fun a b => a.1 < b.1) → orderedMembers members = true →
    sortedMembers placed members = placed ++ members
  | [], placed, _, _ => (List.append_nil placed).symm
  | (name, value) :: rest, placed, ascending, h => by
    simp only [orderedMembers, Bool.and_eq_true] at h
    have last : ∀ e ∈ placed, e.1 < name := fun e mem =>
      (List.pairwise_append.mp ascending).2.2 e mem (name, value) List.mem_cons_self
    rw [sortedMembers, sorted_of_ordered value h.1, NameMap.insertEntry_of_last last,
      sortedMembers_of_ordered rest _ (by rwa [List.append_assoc]) h.2, List.append_assoc,
      List.singleton_append]

end

mutual

theorem readable_sorted : (j : Json) → j.readable = true → j.sorted.readable = true
  | .array items, h => by
    simp only [sorted, readable] at h ⊢
    exact readableItems_sorted items h
  | .object members, h => by
    simp only [sorted, readable] at h ⊢
    exact readableMembers_iff.mpr
      (readable_sortedMembers members [] (readableMembers_iff.mp h) (by simp))
  | .int _, h => h
  | .unreadable, h => h
  | .null, _ | .bool _, _ | .float _, _ | .string _, _ => rfl

theorem readableItems_sorted : (items : List Json) → readableItems items = true →
    readableItems (sortedItems items) = true
  | [], _ => rfl
  | item :: rest, h => by
    simp only [sortedItems, readableItems, Bool.and_eq_true] at h ⊢
    exact ⟨readable_sorted item h.1, readableItems_sorted rest h.2⟩

theorem readable_sortedMembers : (members placed : List (String × Json)) →
    (∀ e ∈ members, e.2.readable = true) → (∀ e ∈ placed, e.2.readable = true) →
    ∀ e ∈ sortedMembers placed members, e.2.readable = true
  | [], _, _, all => all
  | (name, value) :: rest, placed, h, all => by
    simp only [sortedMembers]
    refine readable_sortedMembers rest _ (fun e he => h e (List.mem_cons_of_mem _ he))
      fun e he => ?_
    rcases NameMap.mem_insertEntry he with he | he
    · exact he ▸ readable_sorted value (h (name, value) List.mem_cons_self)
    · exact all e he

end

/-! ### Free values -/

/-- A readable tree whose objects list their members once and by name. -/
structure Value where
  tree : Json
  readable : tree.readable = true
  ordered : tree.ordered = true

/-- The free value of a tree without unreadable parts. -/
def Value.ofJson? (j : Json) : Option Value :=
  if h : j.readable = true then some ⟨j.sorted, readable_sorted j h, ordered_sorted j⟩ else none

theorem Value.ofJson?_tree (v : Value) : ofJson? v.tree = some v := by
  obtain ⟨tree, readable, ordered⟩ := v
  simp only [ofJson?, readable, sorted_of_ordered tree ordered, dite_true]

/-- The value `null`. -/
def Value.null : Value := ⟨.null, rfl, rfl⟩

instance : Inhabited Value := ⟨Value.null⟩

/-- The object with the entries of a map as its members. -/
def ofMap {α : Type} (toJson : α → Json) (m : NameMap α) : Json :=
  .object (m.entries.map fun e => (e.1, toJson e.2))

/-- A value or nothing, `null` standing for nothing. -/
def ofOption {α : Type} (toJson : α → Json) : Option α → Json
  | none => .null
  | some a => toJson a

/-- An array of values. -/
def ofList {α : Type} (toJson : α → Json) (items : List α) : Json := .array (items.map toJson)

end Json

end Footprint
