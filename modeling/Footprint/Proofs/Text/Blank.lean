import Footprint.Text.Blank
import Mathlib.Data.List.DropRight

/-!
Texts with blanks around them.

* `trim_eq_iff`: trimming leaves a word that has no blanks at its ends exactly if the text is this
  word between blanks.
* `isAllBlank_iff`: a blank text is the empty word between blanks.
-/

namespace Footprint.Text

/-- The text is the word with blanks before and behind it. -/
def Padded (word text : String) : Prop :=
  ∃ before after, (∀ c ∈ before, isBlank c = true) ∧ (∀ c ∈ after, isBlank c = true) ∧
    text.toList = before ++ word.toList ++ after

/-- Neither end is blank. -/
def Bare (word : List Char) : Prop :=
  word.head?.any isBlank = false ∧ word.getLast?.any isBlank = false

theorem dropWhile_append_bare {blanks rest : List Char} (blank : ∀ c ∈ blanks, isBlank c = true)
    (bare : rest.head?.any isBlank = false) :
    (blanks ++ rest).dropWhile isBlank = rest := by
  rw [List.dropWhile_append_of_pos blank]
  cases rest with
  | nil => rfl
  | cons c tail =>
    have notBlank : isBlank c = false := bare
    exact List.dropWhile_cons_of_neg (ne_true_of_eq_false notBlank)

theorem trimChars_of_padded {before word after : List Char}
    (blankBefore : ∀ c ∈ before, isBlank c = true) (blankAfter : ∀ c ∈ after, isBlank c = true)
    (bare : Bare word) : trimChars (before ++ word ++ after) = word := by
  unfold trimChars
  cases word with
  | nil =>
    have blank : ∀ c ∈ before ++ after, isBlank c = true := by
      intro c mem
      exact (List.mem_append.mp mem).elim (blankBefore c) (blankAfter c)
    have none : (before ++ after ++ []).dropWhile isBlank = [] :=
      dropWhile_append_bare blank rfl
    rw [List.append_nil] at none ⊢
    rw [none]
    rfl
  | cons c tail =>
    have first : (before ++ (c :: tail ++ after)).dropWhile isBlank = c :: tail ++ after :=
      dropWhile_append_bare blankBefore bare.1
    have last : (after.reverse ++ (c :: tail).reverse).dropWhile isBlank = (c :: tail).reverse := by
      refine dropWhile_append_bare (fun d mem => blankAfter d (List.mem_reverse.mp mem)) ?_
      rw [List.head?_reverse]
      exact bare.2
    rw [List.append_assoc, first, List.reverse_append, last, List.reverse_reverse]

/-- What is trimmed are blanks at the ends. -/
theorem exists_padding (text : List Char) :
    ∃ before after, (∀ c ∈ before, isBlank c = true) ∧ (∀ c ∈ after, isBlank c = true) ∧
      text = before ++ trimChars text ++ after := by
  refine ⟨text.takeWhile isBlank,
    ((text.dropWhile isBlank).reverse.takeWhile isBlank).reverse,
    fun c mem => List.mem_takeWhile_imp mem,
    fun c mem => List.mem_takeWhile_imp (List.mem_reverse.mp mem), ?_⟩
  rw [List.append_assoc, trimChars, ← List.reverse_append, List.takeWhile_append_dropWhile,
    List.reverse_reverse, List.takeWhile_append_dropWhile]

theorem trim_eq_iff {word text : String} (bare : Bare word.toList) :
    trim text = word ↔ Padded word text := by
  constructor
  · rintro rfl
    rw [Padded, trim, String.toList_ofList]
    exact exists_padding text.toList
  · rintro ⟨before, after, blankBefore, blankAfter, split⟩
    rw [trim, split, trimChars_of_padded blankBefore blankAfter bare, String.ofList_toList]

theorem isAllBlank_iff {text : String} : isAllBlank text = true ↔ Padded "" text := by
  unfold isAllBlank Padded
  rw [List.all_eq_true]
  constructor
  · intro blank
    exact ⟨[], text.toList, nofun, blank, rfl⟩
  · rintro ⟨before, after, blankBefore, blankAfter, split⟩ c mem
    rw [split, String.toList_empty, List.append_nil] at mem
    exact (List.mem_append.mp mem).elim (blankBefore c) (blankAfter c)

end Footprint.Text
