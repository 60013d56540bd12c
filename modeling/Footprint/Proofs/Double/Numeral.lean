import Footprint.Proofs.Double.Shortest
import Footprint.Proofs.Json.Numeral
import Mathlib.Data.List.TakeWhile

/-!
The text of a double as a number text.

Both layouts write the digits of the shortest decimal, without the zeros at their end. Positional
texts have them in a whole part and a fraction (`wholePart`, `fractionPart`).

* `Double.chars_document`: in documents a double is written as the numeral `Double.numeral`, never
  as a whole number, and what that denotes is the shortest decimal (`Double.value_numeral`).
-/

namespace Footprint.Double

open Json (Numeral)

/-! ### Digits -/

/-- The digits with which a double is written. -/
def textDigits (tie : Tie) (x : Double) : List Char :=
  if (x.shortest tie).1 = 0 then ['0'] else dropTrailingZeros (Nat.toDigits 10 (x.shortest tie).1)

/-- The power of ten of the first of them. -/
def textLead (tie : Tie) (x : Double) : Int :=
  if (x.shortest tie).1 = 0 then 0
  else ((Nat.toDigits 10 (x.shortest tie).1).length : Int) - 1 + (x.shortest tie).2

theorem dropTrailingZeros_append (digits : List Char) :
    ∃ zeros, digits = dropTrailingZeros digits ++ List.replicate zeros '0' := by
  have zero : ∀ c ∈ digits.reverse.takeWhile (· = '0'), c = '0' := fun c mem =>
    of_decide_eq_true (List.mem_takeWhile_imp (p := fun c => decide (c = '0')) mem)
  refine ⟨(digits.reverse.takeWhile (· = '0')).length, ?_⟩
  rw [← List.eq_replicate_of_mem zero]
  have split := congrArg List.reverse
    (List.takeWhile_append_dropWhile (p := fun c => decide (c = '0')) (l := digits.reverse))
  rw [List.reverse_append, List.reverse_reverse] at split
  have turned : (digits.reverse.takeWhile (· = '0')).reverse =
      digits.reverse.takeWhile (· = '0') := by
    rw [List.eq_replicate_of_mem zero, List.reverse_replicate]
  rw [turned] at split
  exact split.symm

section Digits

variable (tie : Tie) (x : Double)

/-- The digits are those of the shortest decimal, as far as they count. -/
theorem exists_zeros (notZero : (x.shortest tie).1 ≠ 0) : ∃ zeros,
    Nat.toDigits 10 (x.shortest tie).1 = x.textDigits tie ++ List.replicate zeros '0' := by
  rw [textDigits, if_neg notZero]
  exact dropTrailingZeros_append _

theorem isDigit_textDigits : ∀ c ∈ x.textDigits tie, c.isDigit = true := by
  intro c mem
  by_cases zero : (x.shortest tie).1 = 0
  · rw [textDigits, if_pos zero] at mem
    cases List.mem_singleton.mp mem
    rfl
  · obtain ⟨zeros, split⟩ := exists_zeros tie x zero
    exact Digits.isDigit_of_mem_toDigits c (split ▸ List.mem_append_left _ mem)

/-- The first digit is a zero for zero only. -/
theorem textDigits_eq_cons :
    ∃ c rest, x.textDigits tie = c :: rest ∧ (c = '0' → rest = []) := by
  by_cases zero : (x.shortest tie).1 = 0
  · rw [textDigits, if_pos zero]
    exact ⟨'0', [], rfl, fun _ => rfl⟩
  · obtain ⟨zeros, split⟩ := exists_zeros tie x zero
    obtain ⟨c, rest, digits, notZero⟩ := Digits.head_toDigits (Nat.pos_of_ne_zero zero)
    rw [digits] at split
    cases written : x.textDigits tie with
    | nil =>
      rw [written, List.nil_append] at split
      have mem : c ∈ List.replicate zeros '0' := split ▸ List.mem_cons_self
      exact absurd (List.eq_of_mem_replicate mem) notZero
    | cons d tail =>
      rw [written, List.cons_append] at split
      cases split
      exact ⟨c, tail, rfl, fun same => absurd same notZero⟩

/-- The number that the digits write. -/
theorem value_textDigits : (Nat.ofDigitChars 10 (x.textDigits tie) 0 : ℚ) *
    10 ^ (x.textLead tie + 1 - (x.textDigits tie).length) =
      (x.shortest tie).1 * 10 ^ (x.shortest tie).2 := by
  by_cases zero : (x.shortest tie).1 = 0
  · have digits : x.textDigits tie = ['0'] := by rw [textDigits, if_pos zero]
    rw [digits, zero]
    simp [Nat.ofDigitChars]
  · obtain ⟨zeros, split⟩ := exists_zeros tie x zero
    have length := congrArg List.length split
    rw [List.length_append, List.length_replicate] at length
    have value := congrArg (Nat.ofDigitChars 10 · 0) split
    simp only [Nat.ofDigitChars_ten_toDigits, Digits.ofDigitChars_append_zeros] at value
    have place : x.textLead tie + 1 - (x.textDigits tie).length =
        (zeros : Int) + (x.shortest tie).2 := by
      rw [textLead, if_neg zero, length]
      push_cast
      ring
    have ten : (10 : ℚ) ≠ 0 := by norm_num
    rw [place, value, zpow_add₀ ten, zpow_natCast]
    push_cast
    ring

theorem textDigits_le : Nat.ofDigitChars 10 (x.textDigits tie) 0 ≤ 10 ^ 17 := by
  refine le_trans ?_ (shortest_spec tie x).1
  by_cases zero : (x.shortest tie).1 = 0
  · rw [textDigits, if_pos zero]
    exact Nat.zero_le _
  · obtain ⟨zeros, split⟩ := exists_zeros tie x zero
    have value := congrArg (Nat.ofDigitChars 10 · 0) split
    simp only [Nat.ofDigitChars_ten_toDigits, Digits.ofDigitChars_append_zeros] at value
    rw [value]
    exact Nat.le_mul_of_pos_right _ (Nat.pow_pos (by decide))

theorem chars_eq (layout : Layout) : x.chars layout =
    let positional := match layout.positional with
      | none => true
      | some (low, high) => decide (low ≤ x.textLead layout.tie ∧ x.textLead layout.tie ≤ high)
    let size := if positional then
        layout.writePositional (x.textDigits layout.tie) (x.textLead layout.tie)
      else writeScientific (x.textDigits layout.tie) (x.textLead layout.tie)
    if x.negative then '-' :: size else size := rfl

end Digits

/-! ### Positional texts -/

section Positional

/-- The digits in front of the point, where the first one has the power of ten `lead`. -/
def wholePart (digits : List Char) (lead : Int) : List Char :=
  if lead < 0 then ['0']
  else digits.take (lead.toNat + 1) ++ List.replicate (lead.toNat + 1 - digits.length) '0'

/-- The digits behind the point. -/
def fractionPart (digits : List Char) (lead : Int) : List Char :=
  if lead < 0 then List.replicate (-lead - 1).toNat '0' ++ digits else digits.drop (lead.toNat + 1)

variable {digits : List Char} {lead : Int}

theorem writePositional_eq (layout : Layout) (lead : Int) (nonempty : digits ≠ []) :
    layout.writePositional digits lead = wholePart digits lead ++
      if fractionPart digits lead = [] then if layout.pointZero then ['.', '0'] else []
      else '.' :: fractionPart digits lead := by
  unfold Layout.writePositional wholePart fractionPart
  split
  case isTrue below =>
    rw [if_neg (by simp [nonempty])]
    rfl
  case isFalse =>
    simp only
    split
    · rename_i none
      rw [none, if_pos rfl]
      split
      · rfl
      · rw [List.append_nil]
    · rename_i some
      rw [if_neg some]

theorem isDigit_positional (lead : Int) (all : ∀ c ∈ digits, c.isDigit = true) :
    ∀ c ∈ wholePart digits lead ++ fractionPart digits lead, c.isDigit = true := by
  have zero : ∀ {n : Nat}, ∀ c ∈ List.replicate n '0', c.isDigit = true := by
    intro n c mem
    rw [List.eq_of_mem_replicate mem]
    rfl
  unfold wholePart fractionPart
  intro c mem
  split at mem
  case isTrue =>
    rcases List.mem_append.mp mem with mem | mem
    · exact zero (n := 1) c mem
    · rcases List.mem_append.mp mem with mem | mem
      · exact zero c mem
      · exact all c mem
  case isFalse =>
    rcases List.mem_append.mp mem with mem | mem
    · rcases List.mem_append.mp mem with mem | mem
      · exact all c (List.mem_of_mem_take mem)
      · exact zero c mem
    · exact all c (List.mem_of_mem_drop mem)

/-- The whole part has no needless zero in front when the digits have none. -/
theorem wholePart_eq_cons (proper : ∃ c rest, digits = c :: rest ∧ (c = '0' → rest = []))
    (zero : digits = ['0'] → lead = 0) :
    ∃ c rest, wholePart digits lead = c :: rest ∧ (c = '0' → rest = []) := by
  obtain ⟨c, rest, rfl, alone⟩ := proper
  unfold wholePart
  split
  · exact ⟨'0', [], rfl, fun _ => rfl⟩
  · refine ⟨c, _, rfl, ?_⟩
    intro same
    have single : c :: rest = ['0'] := by rw [alone same, same]
    rw [alone same, zero single]
    rfl

theorem length_wholePart_le (digits : List Char) (most : lead ≤ 15) :
    (wholePart digits lead).length ≤ 16 := by
  unfold wholePart
  split
  · simp
  · rw [List.length_append, List.length_take, List.length_replicate]
    omega

/-- With a fraction, the parts are the digits one behind the other, perhaps with zeros in front. -/
theorem wholePart_append_fractionPart (some : fractionPart digits lead ≠ []) :
    ∃ n, wholePart digits lead ++ fractionPart digits lead = List.replicate n '0' ++ digits := by
  unfold wholePart fractionPart at *
  split
  · exact ⟨(-lead - 1).toNat + 1, rfl⟩
  · rename_i above
    rw [if_neg above] at some
    have long : lead.toNat + 1 ≤ digits.length := by
      by_contra short
      exact some (List.drop_eq_nil_of_le (by omega))
    refine ⟨0, ?_⟩
    rw [Nat.sub_eq_zero_of_le long, List.replicate_zero, List.append_nil, List.take_append_drop]
    rfl

/-- A positional text denotes its digits at their place. -/
theorem value_positional :
    (Nat.ofDigitChars 10 (wholePart digits lead ++ fractionPart digits lead) 0 : ℚ) *
        10 ^ (-(fractionPart digits lead).length : Int) =
      Nat.ofDigitChars 10 digits 0 * 10 ^ (lead + 1 - digits.length) := by
  have ten : (10 : ℚ) ≠ 0 := by norm_num
  unfold wholePart fractionPart
  split
  case isTrue below =>
    have zeros : ['0'] ++ (List.replicate (-lead - 1).toNat '0' ++ digits) =
        List.replicate ((-lead - 1).toNat + 1) '0' ++ digits := rfl
    rw [zeros, Digits.ofDigitChars_zeros_append, List.length_append, List.length_replicate]
    congr 2
    omega
  case isFalse above =>
    rcases Nat.le_total digits.length (lead.toNat + 1) with short | long
    · rw [List.take_of_length_le short, List.drop_eq_nil_of_le short, List.append_nil,
        Digits.ofDigitChars_append_zeros]
      push_cast
      rw [List.length_nil, Nat.cast_zero, neg_zero, zpow_zero, mul_one, ← zpow_natCast]
      congr 2
      omega
    · rw [Nat.sub_eq_zero_of_le long, List.replicate_zero, List.append_nil,
        List.take_append_drop, List.length_drop]
      congr 2
      omega

end Positional

/-! ### Number texts in documents -/

/-- The parts of the text of a double in documents. -/
def numeral (x : Double) : Numeral :=
  let digits := x.textDigits .toEven
  let lead := x.textLead .toEven
  if -5 ≤ lead ∧ lead ≤ 15 then
    ⟨x.negative, wholePart digits lead,
      if fractionPart digits lead = [] then ['0'] else fractionPart digits lead, none⟩
  else ⟨x.negative, digits.take 1, digits.drop 1, some lead⟩

section Document

variable (x : Double)

theorem numeral_of_positional
    (positional : -5 ≤ x.textLead .toEven ∧ x.textLead .toEven ≤ 15) : x.numeral =
      ⟨x.negative, wholePart (x.textDigits .toEven) (x.textLead .toEven),
        if fractionPart (x.textDigits .toEven) (x.textLead .toEven) = [] then ['0']
        else fractionPart (x.textDigits .toEven) (x.textLead .toEven), none⟩ :=
  if_pos positional

theorem numeral_of_scientific
    (scientific : ¬ (-5 ≤ x.textLead .toEven ∧ x.textLead .toEven ≤ 15)) : x.numeral =
      ⟨x.negative, (x.textDigits .toEven).take 1, (x.textDigits .toEven).drop 1,
        some (x.textLead .toEven)⟩ :=
  if_neg scientific

theorem textLead_of_zero {tie : Tie} (zero : x.textDigits tie = ['0']) : x.textLead tie = 0 := by
  by_cases isZero : (x.shortest tie).1 = 0
  · rw [textLead, if_pos isZero]
  · obtain ⟨zeros, split⟩ := exists_zeros tie x isZero
    obtain ⟨c, rest, digits, notZero⟩ := Digits.head_toDigits (Nat.pos_of_ne_zero isZero)
    rw [digits, zero] at split
    cases split
    exact absurd rfl notZero

theorem proper_numeral : x.numeral.Proper := by
  have digits := isDigit_textDigits .toEven x
  have first := textDigits_eq_cons .toEven x
  by_cases positional : -5 ≤ x.textLead .toEven ∧ x.textLead .toEven ≤ 15
  · have parts := isDigit_positional (x.textLead .toEven) digits
    rw [numeral_of_positional x positional]
    refine ⟨wholePart_eq_cons first (textLead_of_zero x), fun c mem => ?_⟩
    simp only at mem
    split at mem
    case isTrue =>
      rcases List.mem_append.mp mem with mem | mem
      · exact parts c (List.mem_append_left _ mem)
      · cases List.mem_singleton.mp mem
        rfl
    case isFalse => exact parts c mem
  · rw [numeral_of_scientific x positional]
    obtain ⟨c, rest, written, -⟩ := first
    refine ⟨⟨c, [], by rw [written]; rfl, fun _ => rfl⟩, fun c mem => ?_⟩
    simp only [List.take_append_drop] at mem
    exact digits c mem

theorem chars_of_positional
    (positional : -5 ≤ x.textLead .toEven ∧ x.textLead .toEven ≤ 15) : x.chars .document =
      let size := Layout.document.writePositional (x.textDigits .toEven) (x.textLead .toEven)
      if x.negative then '-' :: size else size := by
  have inside : decide (-5 ≤ x.textLead Layout.document.tie ∧
      x.textLead Layout.document.tie ≤ 15) = true := decide_eq_true positional
  rw [chars_eq, show Layout.document.positional = some (-5, 15) from rfl]
  simp only [inside, if_true]
  rfl

theorem chars_of_scientific
    (scientific : ¬ (-5 ≤ x.textLead .toEven ∧ x.textLead .toEven ≤ 15)) : x.chars .document =
      let size := writeScientific (x.textDigits .toEven) (x.textLead .toEven)
      if x.negative then '-' :: size else size := by
  have outside : decide (-5 ≤ x.textLead Layout.document.tie ∧
      x.textLead Layout.document.tie ≤ 15) = false := decide_eq_false scientific
  rw [chars_eq, show Layout.document.positional = some (-5, 15) from rfl]
  simp only [outside, Bool.false_eq_true, if_false]
  rfl

/-- In documents a double is written as its numeral. -/
theorem chars_document : x.chars .document = x.numeral.chars := by
  obtain ⟨c, rest, written, -⟩ := textDigits_eq_cons .toEven x
  have nonempty : x.textDigits .toEven ≠ [] := by simp [written]
  by_cases positional : -5 ≤ x.textLead .toEven ∧ x.textLead .toEven ≤ 15
  · rw [numeral_of_positional x positional, chars_of_positional x positional]
    simp only [writePositional_eq Layout.document _ nonempty, Numeral.chars, Numeral.sizeChars,
      Numeral.fractionChars, Numeral.exponentChars, List.append_nil]
    by_cases none : fractionPart (x.textDigits .toEven) (x.textLead .toEven) = []
    · simp [none, Layout.document]
    · simp [none]
  · rw [numeral_of_scientific x positional, chars_of_scientific x positional]
    simp only [Numeral.chars, Numeral.sizeChars, Numeral.fractionChars, Numeral.exponentChars,
      writeScientific, written]
    cases rest with
    | nil => rfl
    | cons d rest => rfl

/-- A double is never written as a whole number. -/
theorem toInt?_numeral : x.numeral.toInt? = none := by
  unfold Numeral.toInt?
  refine if_pos ?_
  by_cases positional : -5 ≤ x.textLead .toEven ∧ x.textLead .toEven ≤ 15
  · rw [numeral_of_positional x positional]
    left
    simp only
    split
    · simp
    · rename_i some
      exact some
  · rw [numeral_of_scientific x positional]
    exact .inr rfl

/-- The numeral denotes the shortest decimal. -/
theorem value_numeral : (x.numeral.significand : ℚ) * 10 ^ x.numeral.power =
    (x.shortest .toEven).1 * 10 ^ (x.shortest .toEven).2 := by
  rw [← value_textDigits]
  by_cases positional : -5 ≤ x.textLead .toEven ∧ x.textLead .toEven ≤ 15
  · rw [← value_positional, numeral_of_positional x positional, Numeral.significand, Numeral.power]
    simp only [Option.getD_none, zero_sub]
    split
    case isTrue none =>
      have tenth := Digits.ofDigitChars_append_zeros
        (wholePart (x.textDigits .toEven) (x.textLead .toEven)) 1
      rw [List.replicate_one, pow_one] at tenth
      rw [tenth, none, List.append_nil]
      simp
    case isFalse => rfl
  · rw [numeral_of_scientific x positional, Numeral.significand, Numeral.power]
    obtain ⟨c, rest, written, -⟩ := textDigits_eq_cons .toEven x
    simp only [Option.getD_some, written, List.drop_one, List.tail_cons,
      List.length_cons]
    congr 2
    push_cast
    ring

/-- The digits of the numeral are those of the double, or 17 with the zeros in front of the
point. -/
theorem significand_numeral_le : x.numeral.significand ≤ 10 ^ 17 := by
  have few := textDigits_le .toEven x
  by_cases positional : -5 ≤ x.textLead .toEven ∧ x.textLead .toEven ≤ 15
  · rw [numeral_of_positional x positional, Numeral.significand]
    simp only
    have digits := isDigit_positional (x.textLead .toEven) (isDigit_textDigits .toEven x)
    split
    case isTrue =>
      have whole := Digits.ofDigitChars_lt fun c mem => digits c (List.mem_append_left _ mem)
      have tenth := Digits.ofDigitChars_append_zeros
        (wholePart (x.textDigits .toEven) (x.textLead .toEven)) 1
      rw [List.replicate_one, pow_one] at tenth
      have most := Nat.pow_le_pow_right (n := 10) (by decide)
        (length_wholePart_le (x.textDigits .toEven) positional.2)
      omega
    case isFalse some =>
      obtain ⟨n, parts⟩ := wholePart_append_fractionPart some
      rw [parts, Digits.ofDigitChars_zeros_append]
      exact few
  · rw [numeral_of_scientific x positional, Numeral.significand]
    simp only [List.take_append_drop]
    exact few

end Document

/-! ### Expanded texts -/

/-- In its expanded text a double is a whole part and a fraction. -/
theorem chars_expanded (x : Double) : x.chars .expanded =
    let digits := x.textDigits .awayFromZero
    let lead := x.textLead .awayFromZero
    let size := wholePart digits lead ++
      if fractionPart digits lead = [] then [] else '.' :: fractionPart digits lead
    if x.negative then '-' :: size else size := by
  obtain ⟨c, rest, written, -⟩ := textDigits_eq_cons .awayFromZero x
  have nonempty : x.textDigits .awayFromZero ≠ [] := by simp [written]
  have size := writePositional_eq .expanded (x.textLead .awayFromZero) nonempty
  rw [show Layout.expanded.pointZero = false from rfl, if_neg Bool.false_ne_true] at size
  simp only [← size]
  exact chars_eq x .expanded

end Footprint.Double
