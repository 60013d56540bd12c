import Footprint.Dimension.Display
import Footprint.Proofs.Dimension.Combined
import Footprint.Proofs.Text.Digits
import Mathlib.Data.List.Basic

/-!
Reading the text of a dimension.

The text has three marks: a slash in front of the negative exponents, stars between terms, and a
`^` between a base and the size of its exponent. As long as no name of a base holds one of them, or
looks like the `1` of an empty side, the text is cut at the marks into what it was made of. The side
of the slash is the sign of an exponent and the number its size, so the exponent is known as well,
even the least one, whose size is no exponent.

* `Dimension.display_eq_iff`: dimensions of one text are equal, and only that of a pure number is
  shown as `1`.
-/

namespace Footprint.Dimension

/-! ### Terms -/

/-- The name of a base does not look like a part of the text around it. The empty name does not
either. -/
structure Legible (base : String) : Prop where
  notOne : base ≠ "1"
  noStar : '*' ∉ base.toList
  noSlash : '/' ∉ base.toList
  noPower : '^' ∉ base.toList

theorem legible_iff {base : String} : Legible base ↔
    base ≠ "1" ∧ '*' ∉ base.toList ∧ '/' ∉ base.toList ∧ '^' ∉ base.toList :=
  ⟨fun h => ⟨h.notOne, h.noStar, h.noSlash, h.noPower⟩, fun h => ⟨h.1, h.2.1, h.2.2.1, h.2.2.2⟩⟩

instance (base : String) : Decidable (Legible base) := decidable_of_iff' _ legible_iff

section Terms

variable {base other : String} {size otherSize : Nat}

/-- A text without a mark is none of those that are put together around it. -/
theorem ne_append_mark {mark : Char} {text before after : List Char} (noMark : mark ∉ text) :
    text ≠ before ++ mark :: after := by
  rintro rfl
  exact noMark (List.mem_append_right _ List.mem_cons_self)

theorem not_mem_termText {c : Char} (notInBase : c ∉ base.toList) (notPower : c ≠ '^')
    (notDigit : c.isDigit = false) : c ∉ termText base size := by
  intro mem
  unfold termText at mem
  split at mem
  · exact notInBase mem
  · rcases List.mem_append.mp mem with inBase | inPower
    · exact notInBase inBase
    · rcases List.mem_cons.mp inPower with same | inSize
      · exact notPower same
      · rw [Digits.isDigit_of_mem_toDigits c inSize] at notDigit
        cases notDigit

theorem star_not_mem_termText (legible : Legible base) : '*' ∉ termText base size :=
  not_mem_termText legible.noStar (by decide) rfl

theorem slash_not_mem_termText (legible : Legible base) : '/' ∉ termText base size :=
  not_mem_termText legible.noSlash (by decide) rfl

/-- No term looks like an empty side. -/
theorem termText_ne_one (legible : Legible base) : termText base size ≠ ['1'] := by
  intro one
  unfold termText at one
  split at one
  · exact legible.notOne (String.toList_inj.mp one)
  · have noPower : '^' ∉ ['1'] := by decide
    exact ne_append_mark noPower one.symm

theorem power_not_mem_toDigits (n : Nat) : '^' ∉ Nat.toDigits 10 n := by
  intro mem
  cases Digits.isDigit_of_mem_toDigits '^' mem

/-- A term is read at its `^`; without one the size is one. -/
theorem termText_inj (legible : Legible base) (legibleOther : Legible other)
    (same : termText base size = termText other otherSize) : base = other ∧ size = otherSize := by
  unfold termText at same
  split at same <;> split at same
  case isTrue.isTrue one oneOther =>
    exact ⟨String.toList_inj.mp same, one.trans oneOther.symm⟩
  case isTrue.isFalse => exact absurd same (ne_append_mark legible.noPower)
  case isFalse.isTrue => exact absurd same.symm (ne_append_mark legibleOther.noPower)
  case isFalse.isFalse =>
    obtain ⟨bases, -, digits⟩ := (List.append_cons_inj_of_notMem legible.noPower
      (power_not_mem_toDigits size)).mp same
    exact ⟨String.toList_inj.mp bases, Digits.toDigits_inj digits⟩

end Terms

/-! ### Sides of the slash -/

/-- The bases of one side with the sizes of their exponents. -/
def sizes (side : List (String × Int32)) : List (String × Nat) :=
  side.map fun e => (e.1, e.2.toInt.natAbs)

/-- The texts of the terms of one side, or the `1` of an empty one. -/
def termTexts : List (String × Int32) → List (List Char)
  | [] => [['1']]
  | e :: rest => (e :: rest).map fun e => termText e.1 e.2.toInt.natAbs

section Sides

variable {side other : List (String × Int32)}

theorem productText_eq (side : List (String × Int32)) :
    productText side = ['*'].intercalate (termTexts side) := by
  induction side with
  | nil => rfl
  | cons e rest ih =>
    cases rest with
    | nil => exact (List.intercalate_singleton ..).symm
    | cons f rest =>
      rw [productText, ih]
      · rfl
      · simp

theorem mem_termTexts {text : List Char} (mem : text ∈ termTexts side) :
    text = ['1'] ∨ ∃ e ∈ side, text = termText e.1 e.2.toInt.natAbs := by
  cases side with
  | nil => exact .inl (List.mem_singleton.mp mem)
  | cons e rest =>
    obtain ⟨f, listed, rfl⟩ := List.mem_map.mp mem
    exact .inr ⟨f, listed, rfl⟩

/-- The terms are read at the stars. -/
theorem splitOn_productText (legible : ∀ e ∈ side, Legible e.1) :
    (productText side).splitOn '*' = termTexts side := by
  have noStars : ∀ text ∈ termTexts side, '*' ∉ text := by
    intro text mem
    rcases mem_termTexts mem with rfl | ⟨e, listed, rfl⟩
    · decide
    · exact star_not_mem_termText (legible e listed)
  have nonempty : termTexts side ≠ [] := by
    cases side <;> simp [termTexts]
  rw [productText_eq, List.splitOn_intercalate _ noStars nonempty]

theorem slash_not_mem_productText (legible : ∀ e ∈ side, Legible e.1) :
    '/' ∉ productText side := by
  fun_induction productText side with
  | case1 => decide
  | case2 e => exact slash_not_mem_termText (legible e List.mem_cons_self)
  | case3 e rest _ ih =>
    intro mem
    rcases List.mem_append.mp mem with inTerm | behind
    · exact slash_not_mem_termText (legible e List.mem_cons_self) inTerm
    · rcases List.mem_cons.mp behind with same | inRest
      · cases same
      · exact ih (fun f listed => legible f (List.mem_cons_of_mem _ listed)) inRest

theorem sizes_eq_of_map_eq (legible : ∀ e ∈ side, Legible e.1)
    (legibleOther : ∀ e ∈ other, Legible e.1)
    (same : side.map (fun e => termText e.1 e.2.toInt.natAbs) =
      other.map fun e => termText e.1 e.2.toInt.natAbs) : sizes side = sizes other := by
  induction side generalizing other with
  | nil => rw [List.map_eq_nil_iff.mp same.symm]
  | cons e rest ih =>
    cases other with
    | nil => cases same
    | cons f others =>
      obtain ⟨first, tail⟩ := List.cons.inj same
      obtain ⟨base, size⟩ := termText_inj (legible e List.mem_cons_self)
        (legibleOther f List.mem_cons_self) first
      have others := ih (fun e mem => legible e (List.mem_cons_of_mem _ mem))
        (fun f mem => legibleOther f (List.mem_cons_of_mem _ mem)) tail
      show (e.1, e.2.toInt.natAbs) :: sizes rest = (f.1, f.2.toInt.natAbs) :: sizes _
      rw [base, size, others]

/-- Sides of one text have the same terms. -/
theorem sizes_eq_of_productText_eq (legible : ∀ e ∈ side, Legible e.1)
    (legibleOther : ∀ e ∈ other, Legible e.1) (same : productText side = productText other) :
    sizes side = sizes other := by
  have texts : termTexts side = termTexts other := by
    rw [← splitOn_productText legible, same, splitOn_productText legibleOther]
  cases side with
  | nil =>
    cases other with
    | nil => rfl
    | cons f others =>
      exact absurd (List.cons.inj texts).1.symm
        (termText_ne_one (legibleOther f List.mem_cons_self))
  | cons e rest =>
    cases other with
    | nil => exact absurd (List.cons.inj texts).1 (termText_ne_one (legible e List.mem_cons_self))
    | cons f others => exact sizes_eq_of_map_eq legible legibleOther texts

/-- Where the size of an exponent decides it, so does the text. -/
theorem mem_of_sizes_eq (same : sizes side = sizes other) {e : String × Int32}
    (decides : ∀ f ∈ other, f.2.toInt.natAbs = e.2.toInt.natAbs → f.2.toInt = e.2.toInt)
    (mem : e ∈ side) : e ∈ other := by
  have listed : (e.1, e.2.toInt.natAbs) ∈ sizes other := by
    rw [← same]
    exact List.mem_map_of_mem mem
  obtain ⟨f, listed, equal⟩ := List.mem_map.mp listed
  obtain ⟨base, size⟩ := Prod.mk.inj equal
  have exponent := Int32.toInt_inj.mp (decides f listed size)
  have found : f = e := Prod.ext base exponent
  rwa [← found]

end Sides

/-! ### Dimensions -/

/-- All bases have legible names. -/
def IsLegible (d : Dimension) : Prop := ∀ e ∈ d.entries, Legible e.1

instance (d : Dimension) : Decidable d.IsLegible :=
  inferInstanceAs (Decidable (∀ e ∈ d.entries, _))

/-- The entries in front of the slash. -/
def above (d : Dimension) : List (String × Int32) := d.entries.filter fun e => 0 < e.2.toInt

/-- The entries behind the slash. -/
def below (d : Dimension) : List (String × Int32) := d.entries.filter fun e => ¬ 0 < e.2.toInt

section Dimensions

variable {a b : Dimension}

theorem IsLegible.above (legible : a.IsLegible) : ∀ e ∈ a.above, Legible e.1 :=
  fun e mem => legible e (List.mem_filter.mp mem).1

theorem IsLegible.below (legible : a.IsLegible) : ∀ e ∈ a.below, Legible e.1 :=
  fun e mem => legible e (List.mem_filter.mp mem).1

theorem displayChars_eq (d : Dimension) : d.displayChars =
    if d.below = [] then productText d.above
    else productText d.above ++ '/' :: productText d.below := by
  unfold displayChars
  simp only
  split
  case h_1 none =>
    have nothingBelow : d.below = [] := none
    rw [if_pos nothingBelow, above]
  case h_2 some =>
    have somethingBelow : d.below ≠ [] := some
    rw [if_neg somethingBelow, above, below]

/-- The sides are read at the slash. -/
theorem sizes_eq_of_displayChars_eq (legibleA : a.IsLegible) (legibleB : b.IsLegible)
    (same : a.displayChars = b.displayChars) :
    sizes a.above = sizes b.above ∧ sizes a.below = sizes b.below := by
  have noSlash := slash_not_mem_productText legibleA.above
  have noSlashBelow := slash_not_mem_productText legibleA.below
  have noSlashOther := slash_not_mem_productText legibleB.above
  rw [displayChars_eq, displayChars_eq] at same
  split at same <;> split at same
  case isTrue.isTrue none noneOther =>
    refine ⟨sizes_eq_of_productText_eq legibleA.above legibleB.above same, ?_⟩
    rw [none, noneOther]
  case isTrue.isFalse => exact absurd same (ne_append_mark noSlash)
  case isFalse.isTrue => exact absurd same.symm (ne_append_mark noSlashOther)
  case isFalse.isFalse =>
    obtain ⟨aboves, -, belows⟩ := (List.append_cons_inj_of_notMem noSlash noSlashBelow).mp same
    exact ⟨sizes_eq_of_productText_eq legibleA.above legibleB.above aboves,
      sizes_eq_of_productText_eq legibleA.below legibleB.below belows⟩

theorem mem_entries_of_sizes_eq (aboves : sizes a.above = sizes b.above)
    (belows : sizes a.below = sizes b.below) {e : String × Int32} (mem : e ∈ a.entries) :
    e ∈ b.entries := by
  by_cases positive : 0 < e.2.toInt
  · have listed : e ∈ a.above := List.mem_filter.mpr ⟨mem, decide_eq_true positive⟩
    refine (List.mem_filter.mp (mem_of_sizes_eq aboves ?_ listed)).1
    intro f listed size
    have positive' : 0 < f.2.toInt := of_decide_eq_true (List.mem_filter.mp listed).2
    omega
  · have listed : e ∈ a.below := List.mem_filter.mpr ⟨mem, decide_eq_true positive⟩
    refine (List.mem_filter.mp (mem_of_sizes_eq belows ?_ listed)).1
    intro f listed size
    have positive' : ¬ 0 < f.2.toInt := of_decide_eq_true (List.mem_filter.mp listed).2
    omega

theorem eq_of_sizes_eq (aboves : sizes a.above = sizes b.above)
    (belows : sizes a.below = sizes b.below) : a = b := by
  apply ext_exponent
  intro base
  have stored : a.exponents.get? base = b.exponents.get? base := by
    apply Option.ext
    intro e
    rw [NameMap.get?_eq_some_iff, NameMap.get?_eq_some_iff]
    exact ⟨mem_entries_of_sizes_eq aboves belows,
      mem_entries_of_sizes_eq aboves.symm belows.symm⟩
  rw [exponent, stored, exponent]

/-- Dimensions with legible names have the same text only if they are equal. -/
theorem eq_of_display_eq (legibleA : a.IsLegible) (legibleB : b.IsLegible)
    (same : a.display = b.display) : a = b := by
  obtain ⟨aboves, belows⟩ :=
    sizes_eq_of_displayChars_eq legibleA legibleB (String.ofList_inj.mp same)
  exact eq_of_sizes_eq aboves belows

theorem display_one : one.display = "1" := rfl

theorem isLegible_one : one.IsLegible := by decide

/-- The text of a dimension with legible names tells it from every other one, and from that of a
pure number. -/
theorem display_eq_iff (legibleA : a.IsLegible) (legibleB : b.IsLegible) :
    (a.display = b.display ↔ a = b) ∧ (a.display = "1" ↔ a = one) := by
  refine ⟨⟨eq_of_display_eq legibleA legibleB, congrArg display⟩, ?_, ?_⟩
  · intro shown
    exact eq_of_display_eq legibleA isLegible_one (shown.trans display_one.symm)
  · rintro rfl
    exact display_one

end Dimensions

/-- The least exponent of the mass, and nothing above the slash. -/
def leastMass : Dimension := ofEntries [(mass, Int32.minValue), (time, -1)]

/-- The largest exponent of the mass, and nothing below the slash. -/
def largestMass : Dimension := ofEntries [(mass, Int32.maxValue), (time, 1)]

/-- At both ends of the range dimensions are told apart. -/
theorem leastMass_display_eq_iff : leastMass.IsLegible ∧ largestMass.IsLegible ∧
    (leastMass.display = largestMass.display ↔ leastMass = largestMass) ∧
      (leastMass.display = "1" ↔ leastMass = one) := by
  have least : leastMass.IsLegible := by decide
  have largest : largestMass.IsLegible := by decide
  exact ⟨least, largest, display_eq_iff least largest⟩

/-- The size of the least exponent is written, though it is no exponent itself. -/
example : leastMass.display = "1/[mass]^2147483648*[time]" := by decide

end Footprint.Dimension
