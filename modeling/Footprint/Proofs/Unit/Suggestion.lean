import Footprint.Proofs.Text.EditDistance
import Footprint.Proofs.Unit.Reading

/-!
What is suggested for a text that names no unit.

A known name or symbol is suggested if few edits lead from the text to it, where neither side's case
counts: the first one that needs the fewest edits (`MeasureUnit.Nearest`). Edits are counted by
`Text.Edits` here, not as the search computes them.

* `MeasureUnit.exists_leastBy?`: the search finds the first of the least;
* `MeasureUnit.resolve_suggests`: what is suggested for a text that is rejected.
-/

namespace Footprint.MeasureUnit

open Text

/-! ### The first of the least -/

section Least

variable {α : Type} {measure : α → Nat} {items : List α} {a : α}

/-- The element measures least, and less than those in front of it. -/
def FirstLeast (measure : α → Nat) (items : List α) (a : α) : Prop :=
  ∃ before after, items = before ++ a :: after ∧ (∀ b ∈ before, measure a < measure b) ∧
    ∀ b ∈ after, measure a ≤ measure b

theorem FirstLeast.mem (least : FirstLeast measure items a) : a ∈ items := by
  obtain ⟨before, after, rfl, -, -⟩ := least
  exact List.mem_append_right _ List.mem_cons_self

theorem FirstLeast.le (least : FirstLeast measure items a) :
    ∀ b ∈ items, measure a ≤ measure b := by
  obtain ⟨before, after, rfl, less, notMore⟩ := least
  intro b mem
  rcases List.mem_append.mp mem with front | rest
  · exact Nat.le_of_lt (less b front)
  · rcases List.mem_cons.mp rest with rfl | behind
    · exact Nat.le_refl _
    · exact notMore b behind

theorem FirstLeast.cons {first : α} (least : FirstLeast measure items a)
    (less : measure a < measure first) : FirstLeast measure (first :: items) a := by
  obtain ⟨before, after, rfl, front, behind⟩ := least
  refine ⟨first :: before, after, rfl, ?_, behind⟩
  intro b mem
  rcases List.mem_cons.mp mem with rfl | mem
  · exact less
  · exact front b mem

theorem exists_leastBy? (nonempty : items ≠ []) :
    ∃ a, leastBy? measure items = some (measure a, a) ∧ FirstLeast measure items a := by
  induction items with
  | nil => exact absurd rfl nonempty
  | cons first rest ih =>
    cases rest with
    | nil => exact ⟨first, rfl, [], [], rfl, nofun, nofun⟩
    | cons second others =>
      obtain ⟨a, found, least⟩ := ih (List.cons_ne_nil _ _)
      rw [leastBy?, found]
      by_cases less : measure a < measure first
      · exact ⟨a, if_pos less, least.cons less⟩
      · refine ⟨first, if_neg less, [], second :: others, rfl, nofun, ?_⟩
        intro b mem
        exact Nat.le_trans (Nat.le_of_not_lt less) (least.le b mem)

end Least

/-! ### Suggestions -/

/-- So many edits lead from the text to the candidate in lower case, and no fewer will do.
Candidates in front of it need more edits, those behind it not fewer. -/
structure Nearest (text candidate : String) (n : Nat) : Prop where
  fewest : FewestEdits text.toList (lower candidate).toList n
  first : ∃ before after, suggestions = before ++ candidate :: after ∧
    (∀ other ∈ before, ∀ m, Edits m text.toList (lower other).toList → n < m) ∧
    ∀ other ∈ after, ∀ m, Edits m text.toList (lower other).toList → n ≤ m

/-- Some known name or symbol is at most two edits away from the text. -/
def IsNear (text : String) : Prop :=
  ∃ candidate ∈ suggestions, ∃ n ≤ 2, Edits n text.toList (lower candidate).toList

/-- What is suggested for a text in lower case. -/
structure Suggests (text suggestion : String) : Prop where
  /-- The nearest candidate, if it is near and the text is not empty; it names a unit. -/
  near : text ≠ "" → IsNear text → ∃ candidate n, Nearest text candidate n ∧ n ≤ 2 ∧
    suggestion = "Did you mean '" ++ candidate ++ "'?" ∧ ∃ u, resolve candidate = .ok u
  /-- Otherwise to look at the spelling. -/
  far : ¬ (text ≠ "" ∧ IsNear text) → suggestion = "Check the unit name spelling"

section Suggestions

variable {text candidate : String} {n : Nat}

theorem suggestions_ne_nil : suggestions ≠ [] := nofun

/-- Whatever is suggested names a unit. -/
theorem exists_resolve_of_mem (mem : candidate ∈ suggestions) :
    ∃ u, resolve candidate = .ok u := by
  obtain ⟨e, listed, own⟩ := List.mem_flatMap.mp mem
  have reads : e.Reads candidate := by
    rcases List.mem_cons.mp own with rfl | symbol
    · exact UnitEntry.reads_name listed
    · rw [List.mem_singleton.mp symbol]
      exact UnitEntry.reads_symbol listed
  exact ⟨e.unit, resolve_eq_ok_iff.mpr ⟨e, listed, rfl, reads⟩⟩

/-- How far a candidate is from the text, as the search counts it. -/
def distanceFrom (text candidate : String) : Nat :=
  editDistance text.toList (lower candidate).toList

/-- What the search counts is the least number of edits. -/
theorem fewestEdits_distanceFrom (text candidate : String) :
    FewestEdits text.toList (lower candidate).toList (distanceFrom text candidate) :=
  fewestEdits_editDistance _ _

/-- The first candidate of the least distance is the nearest one. -/
theorem nearest_of_firstLeast (least : FirstLeast (distanceFrom text) suggestions candidate) :
    Nearest text candidate (distanceFrom text candidate) := by
  refine ⟨fewestEdits_distanceFrom text candidate, ?_⟩
  obtain ⟨before, after, split, less, notMore⟩ := least
  refine ⟨before, after, split, ?_, ?_⟩
  · intro other mem m edits
    exact Nat.lt_of_lt_of_le (less other mem) ((fewestEdits_distanceFrom text other).least m edits)
  · intro other mem m edits
    exact Nat.le_trans (notMore other mem) ((fewestEdits_distanceFrom text other).least m edits)

theorem isNear_iff (least : FirstLeast (distanceFrom text) suggestions candidate) :
    IsNear text ↔ distanceFrom text candidate ≤ 2 := by
  constructor
  · rintro ⟨other, mem, m, few, edits⟩
    calc distanceFrom text candidate
      _ ≤ distanceFrom text other := least.le other mem
      _ ≤ m := (fewestEdits_distanceFrom text other).least m edits
      _ ≤ 2 := few
  · intro few
    exact ⟨candidate, least.mem, _, few, (fewestEdits_distanceFrom text candidate).enough⟩

/-- The first candidate of the least distance is meant, if it is near and the text is not empty. -/
theorem exists_meant?_eq (text : String) :
    ∃ candidate, FirstLeast (distanceFrom text) suggestions candidate ∧
      meant? text =
        if distanceFrom text candidate ≤ 2 ∧ text ≠ "" then some candidate else none := by
  obtain ⟨candidate, found, least⟩ : ∃ candidate,
      leastBy? (fun c => editDistance text.toList (lower c).toList) suggestions =
        some (distanceFrom text candidate, candidate) ∧
          FirstLeast (distanceFrom text) suggestions candidate :=
    exists_leastBy? suggestions_ne_nil
  refine ⟨candidate, least, ?_⟩
  -- The search must not be evaluated where its outcome is put in.
  unfold meant?
  generalize leastBy? _ suggestions = best at found ⊢
  rw [found]

theorem suggests_meant? (text : String) : Suggests text (Error.suggestion (meant? text)) := by
  obtain ⟨candidate, least, meant⟩ := exists_meant?_eq text
  constructor
  · intro nonempty near
    have few := (isNear_iff least).mp near
    rw [meant, if_pos ⟨few, nonempty⟩]
    exact ⟨candidate, _, nearest_of_firstLeast least, few, rfl, exists_resolve_of_mem least.mem⟩
  · intro far
    rw [meant, if_neg fun both => far ⟨both.2, (isNear_iff least).mpr both.1⟩]
    rfl

theorem eq_unknownUnit_of_resolve {e : Error} (unknown : resolve text = .error e) :
    e = .unknownUnit (trim text) (meant? (lower (trim text))) := by
  unfold resolve at unknown
  simp only at unknown
  split at unknown
  · cases unknown
  · exact (Except.error.inj unknown).symm

end Suggestions

/-- For a text that is rejected the best suggestion is made. -/
theorem resolve_suggests {text : String} {e : Error} (unknown : resolve text = .error e) :
    ∃ meant, e = .unknownUnit (trim text) meant ∧
      Suggests (lower (trim text)) (Error.suggestion meant) :=
  ⟨_, eq_unknownUnit_of_resolve unknown, suggests_meant? _⟩

/-- No unit is called so, in any case. -/
theorem kilogrm_not_read :
    ∀ e ∈ UnitEntry.table, (lower (trim " Kilogrm")).toList ∉ e.readings := by
  decide +kernel

/-- A letter is missing, and the suggestion is the best one. -/
theorem kilogrm_suggests : ∃ e, resolve " Kilogrm" = .error e ∧
    ∃ meant, e = .unknownUnit (trim " Kilogrm") meant ∧
      Suggests (lower (trim " Kilogrm")) (Error.suggestion meant) := by
  cases unknown : resolve " Kilogrm" with
  | error e => exact ⟨e, rfl, resolve_suggests unknown⟩
  | ok u =>
    obtain ⟨e, mem, -, reads⟩ := resolve_eq_ok_iff.mp unknown
    exact absurd (UnitEntry.mem_readings_of_reads reads) (kilogrm_not_read e mem)

end Footprint.MeasureUnit
