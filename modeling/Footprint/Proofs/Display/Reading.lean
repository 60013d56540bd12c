import Footprint.Proofs.Display.Number

/-!
Reading the text of a number.

The text is read at its marks: the sign counts, the characters that are digits are those of both
parts, and what stands behind the decimal point is the fraction. So the text of a number determines
the number that it denotes (`Display.Parts.value_eq_of_chars_eq`).

* `Display.number_eq_iff`: numbers are shown alike exactly if they round to the same number;
* `Display.count_sign_number`: the sign stands for a rounded number below zero.
-/

namespace Footprint.Display

/-! ### Parts of a text -/

section Parts

variable (locale : Locale) {p q : Parts}

/-- The sign stands at most once, and only in front of a negative number. -/
theorem Parts.count_sign (digits : ∀ c ∈ p.whole ++ p.fraction, c.isDigit = true) :
    (p.chars locale).count '-' = if p.negative then 1 else 0 := by
  have split : p.chars locale = (if p.negative then ['-'] else []) ++
      { p with negative := false }.chars locale := List.append_assoc ..
  have unsigned : ({ p with negative := false }.chars locale).count '-' = 0 := by
    obtain ⟨notPoint, notSeparator, -⟩ := marks_ne locale
    refine List.count_eq_zero.mpr fun mem => ?_
    rcases Parts.mem_chars locale (p := { p with negative := false }) digits mem with
      ⟨-, no⟩ | digit | ⟨same, -⟩ | ⟨same, -⟩
    · cases no
    · cases digit
    · exact notSeparator same.symm
    · exact notPoint same.symm
  rw [split, List.count_append, unsigned]
  split <;> rfl

theorem filter_intercalate {separator : Char} (notDigit : separator.isDigit = false)
    {groups : List (List Char)} (digits : ∀ c ∈ groups.flatten, c.isDigit = true) :
    ([separator].intercalate groups).filter Char.isDigit = groups.flatten := by
  induction groups with
  | nil => rfl
  | cons first others ih =>
    rw [List.flatten_cons] at digits ⊢
    have firstDigits := List.filter_eq_self.mpr fun c mem => digits c (List.mem_append_left _ mem)
    cases others with
    | nil => rw [List.intercalate_singleton, firstDigits, List.flatten_nil, List.append_nil]
    | cons second others =>
      have split : [separator].intercalate (first :: second :: others) =
          first ++ separator :: [separator].intercalate (second :: others) := rfl
      rw [split, List.filter_append, firstDigits, List.filter_cons_of_neg (by simp [notDigit]),
        ih fun c mem => digits c (List.mem_append_right _ mem)]

/-- The digits of the text are those of its parts. -/
theorem Parts.filter_isDigit_chars (digits : ∀ c ∈ p.whole ++ p.fraction, c.isDigit = true) :
    (p.chars locale).filter Char.isDigit = p.whole ++ p.fraction := by
  obtain ⟨notPoint, notSeparator⟩ := marks_not_digit locale
  have sign : (if p.negative then ['-'] else []).filter Char.isDigit = [] := by
    split <;> rfl
  have whole := filter_intercalate notSeparator fun c mem => digits c (List.mem_append_left _ mem)
  have fraction : (if p.fraction = [] then [] else locale.decimalPoint :: p.fraction).filter
      Char.isDigit = p.fraction := by
    split
    case isTrue none => rw [none, List.filter_nil]
    case isFalse =>
      rw [List.filter_cons_of_neg (by simp [notPoint])]
      exact List.filter_eq_self.mpr fun c mem => digits c (List.mem_append_right _ mem)
  rw [Parts.chars, List.filter_append, List.filter_append, sign, whole, fraction, List.nil_append,
    Parts.whole]

/-- The fraction is what stands behind the decimal point. -/
theorem Parts.tail_dropWhile_chars (digits : ∀ c ∈ p.whole ++ p.fraction, c.isDigit = true) :
    ((p.chars locale).dropWhile (· ≠ locale.decimalPoint)).tail = p.fraction := by
  have noPoint : locale.decimalPoint ∉ { p with fraction := [] }.chars locale := by
    have digits : ∀ c ∈ p.whole ++ [], c.isDigit = true := by
      intro c mem
      rw [List.append_nil] at mem
      exact digits c (List.mem_append_left _ mem)
    rw [Parts.decimalPoint_mem_iff locale digits]
    exact fun nonempty => nonempty rfl
  have passes : ∀ c ∈ { p with fraction := [] }.chars locale,
      decide (c ≠ locale.decimalPoint) = true := by
    intro c mem
    exact decide_eq_true fun same => noPoint (same ▸ mem)
  have split : p.chars locale = { p with fraction := [] }.chars locale ++
      (if p.fraction = [] then [] else locale.decimalPoint :: p.fraction) := by
    rw [Parts.chars, Parts.chars, if_pos rfl, List.append_nil]
  rw [split, List.dropWhile_append_of_pos passes]
  split
  case isTrue none => rw [none]; rfl
  case isFalse => rw [List.dropWhile_cons_of_neg (by simp), List.tail_cons]

/-- The text of a number determines the number. -/
theorem Parts.value_eq_of_chars_eq (digitsP : ∀ c ∈ p.whole ++ p.fraction, c.isDigit = true)
    (digitsQ : ∀ c ∈ q.whole ++ q.fraction, c.isDigit = true)
    (same : p.chars locale = q.chars locale) : p.value = q.value := by
  have digits : p.whole ++ p.fraction = q.whole ++ q.fraction := by
    rw [← Parts.filter_isDigit_chars locale digitsP, same,
      Parts.filter_isDigit_chars locale digitsQ]
  have fraction : p.fraction = q.fraction := by
    rw [← Parts.tail_dropWhile_chars locale digitsP, same,
      Parts.tail_dropWhile_chars locale digitsQ]
  have negative : p.negative = q.negative := by
    have count := Parts.count_sign locale digitsP
    rw [same, Parts.count_sign locale digitsQ] at count
    revert count
    cases p.negative <;> cases q.negative <;> decide
  rw [Parts.value, Parts.value, Parts.size, Parts.size, digits, fraction, negative]

end Parts

/-! ### Shown numbers -/

section Numbers

variable {v w : Decimal} {format : NumberStyle} {amount : ℚ}

theorem roundedAway_rounded (v : Decimal) (format : NumberStyle) :
    RoundedAway v.value format.places (rounded v format).value := by
  rw [value_rounded]
  exact Decimal.roundedAway_round v format.places

theorem rounded_eq_of_roundedAway (ofV : RoundedAway v.value format.places amount)
    (ofW : RoundedAway w.value format.places amount) : rounded v format = rounded w format := by
  have value : (v.round format.places).value = (w.round format.places).value := by
    rw [(Decimal.roundedAway_round v format.places).unique ofV,
      (Decimal.roundedAway_round w format.places).unique ofW]
  exact Decimal.normalize_eq_of_value_eq value

/-- Numbers are shown alike exactly if they round to the same number. -/
theorem number_eq_iff (locale : Locale) :
    number v format locale = number w format locale ↔
      ∃ amount, RoundedAway v.value format.places amount ∧
        RoundedAway w.value format.places amount := by
  constructor
  · intro same
    have texts := congrArg String.toList same
    rw [toList_number, toList_number] at texts
    have value := Parts.value_eq_of_chars_eq locale (isDigit_of_mem_partsOf v format)
      (isDigit_of_mem_partsOf w format) texts
    rw [value_partsOf, value_partsOf] at value
    refine ⟨_, roundedAway_rounded v format, ?_⟩
    rw [value]
    exact roundedAway_rounded w format
  · rintro ⟨amount, ofV, ofW⟩
    have same := rounded_eq_of_roundedAway ofV ofW
    simp only [number, sign, size, fraction, whole, same]

/-- A shown number has a sign exactly if it rounds to one below zero. -/
theorem count_sign_number (v : Decimal) (format : NumberStyle) (locale : Locale) :
    (number v format locale).toList.count '-' =
      if (rounded v format).value < 0 then 1 else 0 := by
  rw [toList_number, Parts.count_sign locale (isDigit_of_mem_partsOf v format)]
  simp only [← Decimal.negative_iff]
  rfl

end Numbers

end Footprint.Display
