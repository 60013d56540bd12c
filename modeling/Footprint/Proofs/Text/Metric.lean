import Footprint.Proofs.Text.EditDistance
import Mathlib.Data.List.Induction

/-!
The edit distance is a metric, and it can be computed in place.

Edits can be undone and put one after the other, so their least number is a metric on texts. It is
also the one function with the usual recursion on last characters (`LastCharacters`), whose values
stand in the cells of a row (`RowAfter`).

A program may keep two rows only, and fill the second one cell by cell, from the left, over
placeholders. `inPlace?` is that loop. It reads and writes cells by their places, and has no outcome
once a place is outside of its row. To say that it has one therefore says that none ever is.

* `Text.lastCharacters_iff`: the recursion determines the edit distance;
* `Text.inPlace?_eq`: the loop over two rows computes it;
* `Text.editDistance_metric`: both together, with the laws of a metric and the bounds by lengths.
-/

namespace Footprint.Text

/-! ### Edits as ways from text to text -/

section Edits

variable {a b c : List Char} {n m : Nat}

theorem Edit.symm (edit : Edit a b) : Edit b a := by
  cases edit with
  | insert before after c => exact .delete before after c
  | delete before after c => exact .insert before after c
  | substitute before after c d => exact .substitute before after d c

theorem Edits.trans (first : Edits n a b) (second : Edits m b c) : Edits (n + m) a c := by
  induction first with
  | none => rwa [Nat.zero_add]
  | step edit _ ih =>
    rw [Nat.add_right_comm]
    exact .step edit (ih second)

theorem Edits.symm (edits : Edits n a b) : Edits n b a := by
  induction edits with
  | none a => exact .none a
  | step edit _ ih => exact ih.trans (.step edit.symm (.none _))

theorem Edits.eq_of_zero (edits : Edits 0 a b) : a = b := by
  cases edits
  rfl

/-- An edit adds a character at most. -/
theorem Edit.length_le (edit : Edit a b) : b.length ≤ a.length + 1 := by
  cases edit <;> simp only [List.length_append, List.length_cons] <;> omega

theorem Edits.length_le (edits : Edits n a b) : b.length ≤ a.length + n := by
  induction edits with
  | none => exact Nat.le_refl _
  | step edit _ ih =>
    have one := edit.length_le
    omega

end Edits

/-! ### Laws -/

section Laws

variable (a b c : List Char)

theorem editDistance_eq_zero_iff : editDistance a b = 0 ↔ a = b := by
  constructor
  · intro zero
    have edits := (fewestEdits_editDistance a b).enough
    rw [zero] at edits
    exact edits.eq_of_zero
  · rintro rfl
    rw [editDistance_eq, distance_self]

theorem editDistance_comm : editDistance a b = editDistance b a := by
  have oneWay := fewestEdits_editDistance a b
  have otherWay := fewestEdits_editDistance b a
  exact Nat.le_antisymm (oneWay.least _ otherWay.enough.symm) (otherWay.least _ oneWay.enough.symm)

theorem editDistance_triangle : editDistance a c ≤ editDistance a b + editDistance b c :=
  (fewestEdits_editDistance a c).least _
    ((fewestEdits_editDistance a b).enough.trans (fewestEdits_editDistance b c).enough)

theorem difference_le_editDistance :
    ((a.length : Int) - b.length).natAbs ≤ editDistance a b := by
  have edits := (fewestEdits_editDistance a b).enough
  have added := edits.length_le
  have removed := edits.symm.length_le
  omega

theorem distance_le_max : distance a b ≤ max a.length b.length := by
  induction a generalizing b with
  | nil =>
    rw [distance_nil_left]
    exact Nat.le_max_right ..
  | cons c a ih =>
    cases b with
    | nil =>
      rw [distance_nil_right]
      exact Nat.le_max_left ..
    | cons d b =>
      have replace := distance_replace_le c d a b
      have rest := ih b
      rw [List.length_cons, List.length_cons]
      omega

end Laws

/-! ### The recursion on last characters -/

/-- The last characters are paired, or that of one text has no partner. -/
structure LastCharacters (lev : List Char → List Char → Nat) : Prop where
  nil_left : ∀ b, lev [] b = b.length
  nil_right : ∀ a, lev a [] = a.length
  concat : ∀ a c b d, lev (a ++ [c]) (b ++ [d]) =
    min (min (lev a b + if c = d then 0 else 1) (lev a (b ++ [d]) + 1)) (lev (a ++ [c]) b + 1)

section Recursion

theorem lastCharacters_editDistance : LastCharacters editDistance where
  nil_left := by
    intro b
    rw [editDistance_eq, distance_nil_left]
  nil_right := by
    intro a
    rw [editDistance_eq, distance_nil_right]
  concat := by
    intro a c b d
    simp only [editDistance_eq]
    exact distance_concat c d a b

variable {f g : List Char → List Char → Nat}

/-- The recursion determines the function. -/
theorem LastCharacters.eq (first : LastCharacters f) (second : LastCharacters g)
    (a b : List Char) : f a b = g a b := by
  -- The first text gets shorter for every second one, since its last character may have no partner.
  induction a using List.reverseRecOn generalizing b with
  | nil => rw [first.nil_left, second.nil_left]
  | append_singleton a c shorterFirst =>
    induction b using List.reverseRecOn with
    | nil => rw [first.nil_right, second.nil_right]
    | append_singleton b d shorterSecond =>
      rw [first.concat, second.concat, shorterFirst, shorterFirst, shorterSecond]

theorem lastCharacters_iff {lev : List Char → List Char → Nat} :
    LastCharacters lev ↔ lev = editDistance := by
  constructor
  · intro recursion
    exact funext fun a => funext fun b => recursion.eq lastCharacters_editDistance a b
  · rintro rfl
    exact lastCharacters_editDistance

end Recursion

/-! ### Two rows, in place -/

/-- Write a cell of a row. -/
def put? (row : List Nat) (place value : Nat) : Option (List Nat) :=
  if place < row.length then some (row.set place value) else none

/-- Fill the cell behind a place of the current row, from the cells around it. -/
def fillCell? (c : Char) (previous current : List Nat) : Char × Nat → Option (List Nat)
  | (d, place) => do
    let corner ← previous[place]?
    let above ← previous[place + 1]?
    let left ← current[place]?
    put? current (place + 1) (min (min (corner + if c = d then 0 else 1) (above + 1)) (left + 1))

/-- The row of one more character of the first text, whose place is given. The placeholder is that
place and one, as the first cell has to be. -/
def fillRow? (second : List Char) (previous : List Nat) : Char × Nat → Option (List Nat)
  | (c, place) =>
    second.zipIdx.foldlM (fillCell? c previous) (List.replicate (second.length + 1) (place + 1))

/-- The edit distance, by a loop that keeps two rows. -/
def inPlace? (first second : List Char) : Option Nat := do
  let last ← first.zipIdx.foldlM (fillRow? second) (List.range (second.length + 1))
  last[second.length]?

section Cells

variable (f : List Char → Nat) (start : List Char)

theorem length_cells (rest : List Char) : (cells f start rest).length = rest.length + 1 := by
  induction rest generalizing start with
  | nil => rfl
  | cons b rest ih => rw [cells, List.length_cons, ih, List.length_cons]

theorem getElem?_cells (before after : List Char) :
    (cells f start (before ++ after))[before.length]? = some (f (start ++ before)) := by
  induction before generalizing start with
  | nil =>
    obtain ⟨tail, first⟩ := cells_eq_cons f start after
    rw [List.nil_append, first, List.append_nil]
    rfl
  | cons b before ih =>
    rw [List.cons_append, cells, List.length_cons, List.getElem?_cons_succ, ih, List.append_assoc,
      List.singleton_append]

theorem cells_concat (rest : List Char) (d : Char) :
    cells f start (rest ++ [d]) = cells f start rest ++ [f (start ++ (rest ++ [d]))] := by
  induction rest generalizing start with
  | nil => rfl
  | cons b rest ih =>
    rw [List.cons_append, cells, ih, cells, List.cons_append, List.append_assoc,
      List.singleton_append]

end Cells

/-- A row has one cell for each initial part of the second text, with its distance from what has
been read of the first one. -/
structure RowAfter (done second : List Char) (row : List Nat) : Prop where
  length : row.length = second.length + 1
  cell : ∀ before after, second = before ++ after →
    row[before.length]? = some (editDistance done before)

theorem rowAfter_foldl (done second : List Char) :
    RowAfter done second (done.foldl (nextRow second) (List.range (second.length + 1))) := by
  rw [firstRow_eq, foldl_nextRow_eq, List.nil_append]
  constructor
  case length => exact length_cells (distance done) [] second
  case cell =>
    rintro before after rfl
    rw [getElem?_cells, List.nil_append, editDistance_eq]

section Loop

variable (done : List Char) (c : Char)

/-- A cell is written where the cells in front of it end. -/
theorem put?_append (row rest : List Nat) (old value : Nat) :
    put? (row ++ old :: rest) row.length value = some (row ++ value :: rest) := by
  have inside : row.length < (row ++ old :: rest).length := by
    rw [List.length_append, List.length_cons]
    omega
  rw [put?, if_pos inside, List.set_append_right _ _ (Nat.le_refl _), Nat.sub_self,
    List.set_cons_zero]

/-- One cell more holds a distance, and one placeholder less is left. -/
theorem fillCell?_eq (filled rest : List Char) (d : Char) (placeholder : Nat) :
    fillCell? c (cells (distance done) [] (filled ++ d :: rest))
        (cells (distance (done ++ [c])) [] filled ++ List.replicate (rest.length + 1) placeholder)
        (d, filled.length) =
      some (cells (distance (done ++ [c])) [] (filled ++ [d]) ++
        List.replicate rest.length placeholder) := by
  have corner : (cells (distance done) [] (filled ++ d :: rest))[filled.length]? =
      some (distance done filled) := getElem?_cells (distance done) [] filled (d :: rest)
  have above : (cells (distance done) [] (filled ++ d :: rest))[filled.length + 1]? =
      some (distance done (filled ++ [d])) := by
    simpa using getElem?_cells (distance done) [] (filled ++ [d]) rest
  have left : (cells (distance (done ++ [c])) [] filled)[filled.length]? =
      some (distance (done ++ [c]) filled) := by
    simpa using getElem?_cells (distance (done ++ [c])) [] filled []
  have size := length_cells (distance (done ++ [c])) [] filled
  rw [fillCell?, corner, above, List.getElem?_append_left (by omega), left]
  simp only [Option.bind_eq_bind, Option.bind_some]
  rw [← distance_concat, ← size, List.replicate_succ, put?_append, cells_concat, List.append_assoc,
    List.singleton_append, List.nil_append]

/-- All cells that are left hold distances in the end. -/
theorem foldlM_fillCell?_eq (filled rest : List Char) (placeholder : Nat) :
    (rest.zipIdx filled.length).foldlM (fillCell? c (cells (distance done) [] (filled ++ rest)))
        (cells (distance (done ++ [c])) [] filled ++ List.replicate rest.length placeholder) =
      some (cells (distance (done ++ [c])) [] (filled ++ rest)) := by
  -- The row before stays the same while one character after the other passes to what is filled.
  induction rest generalizing filled with
  | nil => simp
  | cons d rest ih =>
    have others := ih (filled ++ [d])
    rw [List.append_assoc, List.singleton_append, List.length_append, List.length_singleton]
      at others
    rw [List.zipIdx_cons, List.foldlM_cons, List.length_cons, fillCell?_eq, Option.bind_eq_bind,
      Option.bind_some, others]

/-- The placeholder is what the first cell has to hold. -/
theorem fillRow?_eq (second : List Char) :
    fillRow? second (cells (distance done) [] second) (c, done.length) =
      some (cells (distance (done ++ [c])) [] second) := by
  have first : distance (done ++ [c]) [] = done.length + 1 := by
    rw [distance_concat_nil, distance_nil_right]
  have row := foldlM_fillCell?_eq done c [] second (done.length + 1)
  rw [cells, first] at row
  exact row

theorem foldlM_fillRow?_eq (second todo : List Char) :
    (todo.zipIdx done.length).foldlM (fillRow? second) (cells (distance done) [] second) =
      some (cells (distance (done ++ todo)) [] second) := by
  induction todo generalizing done with
  | nil => simp
  | cons c todo ih =>
    have others := ih (done ++ [c])
    rw [List.append_assoc, List.singleton_append, List.length_append, List.length_singleton]
      at others
    rw [List.zipIdx_cons, List.foldlM_cons, fillRow?_eq, Option.bind_eq_bind, Option.bind_some,
      others]

/-- No place that the loop reads or writes is outside of its row, and it computes the distance. -/
theorem inPlace?_eq (first second : List Char) :
    inPlace? first second = some (editDistance first second) := by
  have rows := foldlM_fillRow?_eq [] second first
  have last : (cells (distance first) [] second)[second.length]? =
      some (distance first second) := by
    simpa using getElem?_cells (distance first) [] second []
  rw [List.length_nil, ← firstRow_eq, List.nil_append] at rows
  rw [inPlace?, rows, Option.bind_eq_bind, Option.bind_some, last, editDistance_eq]

end Loop

/-! ### The metric -/

/-- A metric on texts, between the difference of their lengths and the longer one. -/
structure Metric (d : List Char → List Char → Nat) : Prop where
  eq_zero_iff : ∀ a b, d a b = 0 ↔ a = b
  comm : ∀ a b, d a b = d b a
  triangle : ∀ a b c, d a c ≤ d a b + d b c
  difference_le : ∀ a b, ((a.length : Int) - b.length).natAbs ≤ d a b
  le_longer : ∀ a b, d a b ≤ max a.length b.length

/-- The edit distance is the one function with the recursion on last characters. It is computed row
by row, also in place without leaving a row, and it is a metric. -/
theorem editDistance_metric :
    (∀ lev, LastCharacters lev ↔ lev = editDistance) ∧
      (∀ done second,
        RowAfter done second (done.foldl (nextRow second) (List.range (second.length + 1)))) ∧
      (∀ first second, inPlace? first second = some (editDistance first second)) ∧
      Metric editDistance := by
  refine ⟨fun lev => lastCharacters_iff, rowAfter_foldl, inPlace?_eq, ?_⟩
  constructor
  case eq_zero_iff => exact editDistance_eq_zero_iff
  case comm => exact editDistance_comm
  case triangle => exact editDistance_triangle
  case difference_le => exact difference_le_editDistance
  case le_longer =>
    intro a b
    rw [editDistance_eq]
    exact distance_le_max a b

/-- Replace `k` and `e`, and put `g` at the end. -/
example : inPlace? "kitten".toList "sitting".toList = some 3 := by decide

end Footprint.Text
