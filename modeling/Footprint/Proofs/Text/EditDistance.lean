import Footprint.Text.EditDistance
import Mathlib.Data.List.Basic

/-!
The edit distance is the least number of edits.

`Edits n a b` says that `n` insertions, deletions and substitutions of single characters, one after
the other, turn `a` into `b`. Their least number is computed from the first characters on by
`distance`. Edits can be read backwards, so it can be computed from the last characters on as well
(`distance_concat`), and this is what a row of `editDistance` does: it holds the distances from what
has been read of the first text to the initial parts of the second one.

* `Text.fewestEdits_distance`: no fewer edits than `distance` will do;
* `Text.editDistance_eq`, `Text.fewestEdits_editDistance`: the rows compute it.
-/

namespace Footprint.Text

/-! ### Edits -/

/-- A single character is inserted, deleted or replaced by another one. -/
inductive Edit : List Char → List Char → Prop
  | insert (before after : List Char) (c : Char) : Edit (before ++ after) (before ++ c :: after)
  | delete (before after : List Char) (c : Char) : Edit (before ++ c :: after) (before ++ after)
  | substitute (before after : List Char) (c d : Char) :
      Edit (before ++ c :: after) (before ++ d :: after)

/-- So many edits, one after the other, turn the first text into the second one. -/
inductive Edits : Nat → List Char → List Char → Prop
  | none (a : List Char) : Edits 0 a a
  | step {n : Nat} {a b c : List Char} : Edit a b → Edits n b c → Edits (n + 1) a c

/-- So many edits are needed to turn the first text into the second one, and they are enough. -/
structure FewestEdits (a b : List Char) (n : Nat) : Prop where
  enough : Edits n a b
  least : ∀ m, Edits m a b → n ≤ m

section Edits

variable {a b c : List Char} {n m : Nat}

theorem FewestEdits.unique (first : FewestEdits a b n) (second : FewestEdits a b m) : n = m :=
  Nat.le_antisymm (first.least m second.enough) (second.least n first.enough)

theorem Edit.cons (first : Char) (edit : Edit a b) : Edit (first :: a) (first :: b) := by
  cases edit with
  | insert before after c => exact .insert (first :: before) after c
  | delete before after c => exact .delete (first :: before) after c
  | substitute before after c d => exact .substitute (first :: before) after c d

theorem Edit.reverse (edit : Edit a b) : Edit a.reverse b.reverse := by
  cases edit with
  | insert before after c =>
    have edit := Edit.insert after.reverse before.reverse c
    simpa using edit
  | delete before after c =>
    have edit := Edit.delete after.reverse before.reverse c
    simpa using edit
  | substitute before after c d =>
    have edit := Edit.substitute after.reverse before.reverse c d
    simpa using edit

theorem Edits.cons (first : Char) (edits : Edits n a b) : Edits n (first :: a) (first :: b) := by
  induction edits with
  | none => exact .none _
  | step edit _ ih => exact .step (edit.cons first) ih

theorem Edits.reverse (edits : Edits n a b) : Edits n a.reverse b.reverse := by
  induction edits with
  | none => exact .none _
  | step edit _ ih => exact .step edit.reverse ih

theorem FewestEdits.reverse (fewest : FewestEdits a b n) : FewestEdits a.reverse b.reverse n where
  enough := fewest.enough.reverse
  least := by
    intro m edits
    refine fewest.least m ?_
    simpa using edits.reverse

theorem edits_insertAll (b : List Char) : Edits b.length [] b := by
  induction b with
  | nil => exact .none []
  | cons c rest ih => exact .step (.insert [] [] c) (ih.cons c)

theorem edits_deleteAll (a : List Char) : Edits a.length a [] := by
  induction a with
  | nil => exact .none []
  | cons c rest ih => exact .step (.delete [] rest c) ih

end Edits

/-! ### The least number of edits -/

/-- The distance of two texts, from their first characters on: either these are paired, or the first
character of one of the texts has no partner. -/
def distance : List Char → List Char → Nat
  | [], b => b.length
  | a, [] => a.length
  | c :: a, d :: b =>
    min (min (distance a b + if c = d then 0 else 1) (distance a (d :: b) + 1))
      (distance (c :: a) b + 1)
termination_by a b => a.length + b.length

section Distance

variable {a b : List Char}

theorem distance_nil_left (b : List Char) : distance [] b = b.length := by
  rw [distance]

theorem distance_nil_right (a : List Char) : distance a [] = a.length := by
  cases a with
  | nil => rw [distance]
  | cons c a => rw [distance]; simp

theorem distance_cons_cons (c d : Char) (a b : List Char) : distance (c :: a) (d :: b) =
    min (min (distance a b + if c = d then 0 else 1) (distance a (d :: b) + 1))
      (distance (c :: a) b + 1) := by
  rw [distance]

/-- The first characters are equal, or one is replaced, deleted or inserted. -/
theorem distance_cons_cons_cases (c d : Char) (a b : List Char) :
    (c = d ∧ distance (c :: a) (d :: b) = distance a b) ∨
      distance (c :: a) (d :: b) = distance a b + 1 ∨
      distance (c :: a) (d :: b) = distance a (d :: b) + 1 ∨
      distance (c :: a) (d :: b) = distance (c :: a) b + 1 := by
  rw [distance_cons_cons]
  split
  case isTrue same =>
    simp only [same, true_and]
    omega
  case isFalse different =>
    simp only [different, false_and, false_or]
    omega

theorem distance_replace_le (c d : Char) (a b : List Char) :
    distance (c :: a) (d :: b) ≤ distance a b + 1 := by
  rw [distance_cons_cons]
  split <;> omega

theorem distance_keep_le (c : Char) (a b : List Char) :
    distance (c :: a) (c :: b) ≤ distance a b := by
  rw [distance_cons_cons, if_pos rfl]
  omega

theorem distance_delete_le (c : Char) (a b : List Char) :
    distance (c :: a) b ≤ distance a b + 1 := by
  cases b with
  | nil =>
    rw [distance_nil_right, distance_nil_right]
    exact Nat.le_refl _
  | cons d b =>
    rw [distance_cons_cons]
    omega

theorem distance_insert_le (d : Char) (a b : List Char) :
    distance a (d :: b) ≤ distance a b + 1 := by
  cases a with
  | nil =>
    rw [distance_nil_left, distance_nil_left]
    exact Nat.le_refl _
  | cons c a =>
    rw [distance_cons_cons]
    omega

/-- So many edits as the distance are enough. -/
theorem edits_distance (a b : List Char) : Edits (distance a b) a b := by
  fun_induction distance a b with
  | case1 b => exact edits_insertAll b
  | case2 a => exact edits_deleteAll a
  | case3 c a d b keep delete insert =>
    rw [← distance_cons_cons]
    rcases distance_cons_cons_cases c d a b with ⟨same, equal⟩ | equal | equal | equal
    · rw [equal, same]
      exact keep.cons d
    · rw [equal]
      exact .step (.substitute [] a c d) (keep.cons d)
    · rw [equal]
      exact .step (.delete [] a c) delete
    · rw [equal]
      exact .step (.insert [] (c :: a) d) (insert.cons d)

/-- Of two texts the one with a character more in front is not much nearer to a third one. -/
theorem distance_le_of_insert (c : Char) (a b : List Char) :
    distance a b ≤ distance (c :: a) b + 1 := by
  induction b with
  | nil =>
    rw [distance_nil_right, distance_nil_right, List.length_cons]
    omega
  | cons d b ih =>
    have insert := distance_insert_le d a b
    have cases := distance_cons_cons_cases c d a b
    omega

theorem distance_le_of_substitute (c d : Char) (a b : List Char) :
    distance (c :: a) b ≤ distance (d :: a) b + 1 := by
  induction b with
  | nil =>
    rw [distance_nil_right, distance_nil_right, List.length_cons, List.length_cons]
    omega
  | cons e b ih =>
    have replace := distance_replace_le c e a b
    have delete := distance_delete_le c a (e :: b)
    have insert := distance_insert_le e (c :: a) b
    have cases := distance_cons_cons_cases d e a b
    omega

/-- A common first character keeps texts near. -/
theorem distance_cons_le (first : Char) (near : ∀ c, distance a c ≤ distance b c + 1)
    (c : List Char) : distance (first :: a) c ≤ distance (first :: b) c + 1 := by
  induction c with
  | nil =>
    have lengths := near []
    rw [distance_nil_right, distance_nil_right] at lengths ⊢
    rw [List.length_cons, List.length_cons]
    omega
  | cons d c ih =>
    have replace := distance_replace_le first d a c
    have delete := distance_delete_le first a (d :: c)
    have insert := distance_insert_le d (first :: a) c
    have tail := near c
    have whole := near (d :: c)
    rcases distance_cons_cons_cases first d b c with ⟨rfl, equal⟩ | equal
    · have keep := distance_keep_le first a c
      omega
    · omega

theorem distance_append_le (before : List Char) (near : ∀ c, distance a c ≤ distance b c + 1)
    (c : List Char) : distance (before ++ a) c ≤ distance (before ++ b) c + 1 := by
  induction before generalizing c with
  | nil => exact near c
  | cons first before ih => exact distance_cons_le first ih c

/-- An edit changes the distance from a text by at most one. -/
theorem distance_le_of_edit (edit : Edit a b) (c : List Char) :
    distance a c ≤ distance b c + 1 := by
  cases edit with
  | insert before after d => exact distance_append_le before (distance_le_of_insert d after) c
  | delete before after d => exact distance_append_le before (distance_delete_le d after) c
  | substitute before after d e =>
    exact distance_append_le before (distance_le_of_substitute d e after) c

theorem distance_self (a : List Char) : distance a a = 0 := by
  induction a with
  | nil => rw [distance_nil_left, List.length_nil]
  | cons c a ih =>
    rw [distance_cons_cons, ih]
    simp

theorem distance_le_of_edits {n : Nat} (edits : Edits n a b) : distance a b ≤ n := by
  induction edits with
  | none a => exact Nat.le_of_eq (distance_self a)
  | step edit _ ih => exact Nat.le_trans (distance_le_of_edit edit _) (Nat.succ_le_succ ih)

/-- The distance is the least number of edits. -/
theorem fewestEdits_distance (a b : List Char) : FewestEdits a b (distance a b) where
  enough := edits_distance a b
  least := fun _ => distance_le_of_edits

theorem distance_reverse (a b : List Char) : distance a.reverse b.reverse = distance a b :=
  (fewestEdits_distance _ _).unique (fewestEdits_distance a b).reverse

theorem distance_concat_nil (c : Char) (a : List Char) :
    distance (a ++ [c]) [] = distance a [] + 1 := by
  rw [distance_nil_right, distance_nil_right, List.length_append, List.length_singleton]

/-- From the last characters on the distance is computed in the same way. -/
theorem distance_concat (c d : Char) (a b : List Char) : distance (a ++ [c]) (b ++ [d]) =
    min (min (distance a b + if c = d then 0 else 1) (distance a (b ++ [d]) + 1))
      (distance (a ++ [c]) b + 1) := by
  rw [← distance_reverse, ← distance_reverse a b, ← distance_reverse a, ← distance_reverse _ b,
    List.reverse_concat', List.reverse_concat', distance_cons_cons]

end Distance

/-! ### Rows -/

/-- The values at the initial parts of a text, from one on: `before` and all longer ones. -/
def cells (f : List Char → Nat) : (before rest : List Char) → List Nat
  | before, [] => [f before]
  | before, b :: rest => f before :: cells f (before ++ [b]) rest

section Rows

theorem cells_eq_cons (f : List Char → Nat) (before rest : List Char) :
    ∃ tail, cells f before rest = f before :: tail := by
  cases rest with
  | nil => exact ⟨[], rfl⟩
  | cons b rest => exact ⟨_, rfl⟩

theorem getLastD_cells (f : List Char → Nat) (before rest : List Char) :
    (cells f before rest).getLastD 0 = f (before ++ rest) := by
  induction rest generalizing before with
  | nil => rw [List.append_nil]; rfl
  | cons b rest ih =>
    obtain ⟨tail, next⟩ := cells_eq_cons f (before ++ [b]) rest
    have last := ih (before ++ [b])
    rw [List.append_assoc, List.singleton_append, next] at last
    rw [cells, next, ← last]
    rfl

theorem cells_length (before rest : List Char) :
    cells List.length before rest = List.range' before.length (rest.length + 1) := by
  induction rest generalizing before with
  | nil => rfl
  | cons b rest ih =>
    rw [cells, ih, List.length_append, List.length_singleton]
    rfl

/-- The first row holds the distances from the empty text. -/
theorem firstRow_eq (second : List Char) :
    List.range (second.length + 1) = cells (distance []) [] second := by
  have lengths : distance [] = List.length := funext distance_nil_left
  rw [lengths, cells_length, List.range_eq_range', List.length_nil]

variable (done : List Char) (c : Char)

/-- The rest of a row, where the cells in front of it hold distances. -/
theorem rowFrom_eq (before rest : List Char) :
    distance (done ++ [c]) before ::
        rowFrom c (distance (done ++ [c]) before) rest (cells (distance done) before rest) =
      cells (distance (done ++ [c])) before rest := by
  induction rest generalizing before with
  | nil => rfl
  | cons b rest ih =>
    obtain ⟨tail, next⟩ := cells_eq_cons (distance done) (before ++ [b]) rest
    have here := distance_concat c b done before
    have others := ih (before ++ [b])
    rw [next, here] at others
    rw [cells, next, rowFrom, others]
    rfl

theorem nextRow_eq (second : List Char) : nextRow second (cells (distance done) [] second) c =
    cells (distance (done ++ [c])) [] second := by
  obtain ⟨tail, first⟩ := cells_eq_cons (distance done) [] second
  have row := rowFrom_eq done c [] second
  rw [distance_concat_nil] at row
  rw [← row, nextRow, first]
  rfl

/-- After some characters the row holds the distances from what has been read. -/
theorem foldl_nextRow_eq (second todo : List Char) :
    todo.foldl (nextRow second) (cells (distance done) [] second) =
      cells (distance (done ++ todo)) [] second := by
  induction todo generalizing done with
  | nil => rw [List.append_nil]; rfl
  | cons c todo ih =>
    rw [List.foldl_cons, nextRow_eq, ih, List.append_assoc, List.singleton_append]

end Rows

theorem editDistance_eq (first second : List Char) :
    editDistance first second = distance first second := by
  rw [editDistance, firstRow_eq, foldl_nextRow_eq, getLastD_cells, List.nil_append, List.nil_append]

/-- What the rows compute is the least number of edits. -/
theorem fewestEdits_editDistance (first second : List Char) :
    FewestEdits first second (editDistance first second) := by
  rw [editDistance_eq]
  exact fewestEdits_distance first second

end Footprint.Text
