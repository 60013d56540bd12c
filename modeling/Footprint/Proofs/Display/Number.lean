import Footprint.Display.Number
import Footprint.Proofs.Decimal.Value
import Footprint.Proofs.Text.Digits

/-!
What a shown number says.

A number text has a sign, the digits of the whole part in groups, and a fraction behind the
decimal point of the locale (`Display.Parts`). These parts denote a number, whatever the locale.

* `Display.number_shows`: every shown number is such a text. It denotes the value rounded half
  away from zero to the places of the format, has a sign when that is below zero, groups of three
  where they are wanted, and the fewest digits of the fraction that the format allows.
-/

namespace Footprint

/-! ### Digits of a decimal -/

namespace Decimal

theorem isDigit_of_mem_paddedDigits {width n : Nat} :
    ∀ c ∈ paddedDigits width n, c.isDigit = true := by
  intro c mem
  rcases List.mem_append.mp mem with mem | mem
  · rw [List.eq_of_mem_replicate mem]
    rfl
  · exact Digits.isDigit_of_mem_toDigits c mem

theorem ofDigitChars_paddedDigits (width n : Nat) :
    Nat.ofDigitChars 10 (paddedDigits width n) 0 = n := by
  rw [paddedDigits, Digits.ofDigitChars_zeros_append, Nat.ofDigitChars_ten_toDigits]

theorem length_paddedDigits {width n : Nat} (positive : 0 < width) (fits : n < 10 ^ width) :
    (paddedDigits width n).length = width := by
  have short := Nat.toDigits_length 10 n width positive fits
  rw [paddedDigits, List.length_append, List.length_replicate, Nat.sub_add_cancel short]

theorem length_fractionDigits (d : Decimal) : d.fractionDigits.length = d.scale := by
  unfold fractionDigits
  split
  case isTrue whole => rw [whole, List.length_nil]
  case isFalse notWhole =>
    exact length_paddedDigits (Nat.pos_of_ne_zero notWhole) (Nat.mod_lt _ (Nat.pow_pos (by decide)))

theorem isDigit_of_mem_fractionDigits {d : Decimal} :
    ∀ c ∈ d.fractionDigits, c.isDigit = true := by
  unfold fractionDigits
  split
  case isTrue whole => simp
  case isFalse notWhole => exact isDigit_of_mem_paddedDigits

/-- The digits before and after the point write the mantissa. -/
theorem ofDigitChars_digits (d : Decimal) :
    Nat.ofDigitChars 10 (d.wholeDigits ++ d.fractionDigits) 0 = d.mantissa := by
  have fraction : Nat.ofDigitChars 10 d.fractionDigits 0 = d.mantissa % 10 ^ d.scale := by
    unfold fractionDigits
    split
    case isTrue whole => rw [whole, Nat.pow_zero, Nat.mod_one, Nat.ofDigitChars_nil]
    case isFalse notWhole => exact ofDigitChars_paddedDigits _ _
  rw [Digits.ofDigitChars_append, length_fractionDigits, fraction, wholeDigits,
    Nat.ofDigitChars_ten_toDigits, Nat.div_add_mod']

/-- The last digit of the fraction is that of the mantissa. -/
theorem getLast?_fractionDigits {d : Decimal} (notWhole : d.scale ≠ 0) :
    d.fractionDigits.getLast? = some (d.mantissa % 10).digitChar := by
  have divides : 10 ∣ 10 ^ d.scale := dvd_pow_self 10 notWhole
  rw [fractionDigits, if_neg notWhole, paddedDigits, List.getLast?_append, Digits.getLast?_toDigits,
    Nat.mod_mod_of_dvd _ divides]
  rfl

end Decimal

namespace Display

/-! ### Groups of three -/

/-- Digits in groups of three, counted from the end. -/
def threes : List Char → List (List Char)
  | [] => []
  | c :: rest =>
    if rest ≠ [] ∧ rest.length % 3 = 0 then [c] :: threes rest
    else match threes rest with
      | [] => [[c]]
      | first :: others => (c :: first) :: others

/-- The first group has one to three digits, and each other one three. -/
def InThrees (groups : List (List Char)) : Prop :=
  ∃ first others, groups = first :: others ∧ 0 < first.length ∧ first.length ≤ 3 ∧
    ∀ g ∈ others, g.length = 3

theorem flatten_threes (digits : List Char) : (threes digits).flatten = digits := by
  induction digits with
  | nil => rfl
  | cons c rest ih =>
    unfold threes
    split
    case isTrue starts => rw [List.flatten_cons, ih, List.singleton_append]
    case isFalse joins =>
      cases groups : threes rest with
      | nil =>
        rw [groups, List.flatten_nil] at ih
        rw [← ih]
        rfl
      | cons first others =>
        rw [groups, List.flatten_cons] at ih
        show (c :: first) ++ others.flatten = c :: rest
        rw [List.cons_append, ih]

/-- The groups are as long as they have to be; a group that is full has the whole rest in groups
of three behind it. -/
theorem threes_spec {digits : List Char} (nonempty : digits ≠ []) :
    ∃ first others, threes digits = first :: others ∧ 0 < first.length ∧ first.length ≤ 3 ∧
      (∀ g ∈ others, g.length = 3) ∧ first.length % 3 = digits.length % 3 := by
  induction digits with
  | nil => exact absurd rfl nonempty
  | cons c rest ih =>
    unfold threes
    cases rest with
    | nil => exact ⟨[c], [], rfl, by simp⟩
    | cons d tail =>
      obtain ⟨first, others, groups, least, most, three, rest⟩ := ih (by simp)
      rw [groups]
      split
      case isTrue starts =>
        have full : first.length = 3 := by omega
        refine ⟨[c], first :: others, rfl, by simp, by simp, ?_, ?_⟩
        · intro g mem
          rcases List.mem_cons.mp mem with rfl | mem
          · exact full
          · exact three g mem
        · rw [@List.length_cons _ c (d :: tail)]
          simp only [List.length_singleton]
          omega
      case isFalse joins =>
        have room : (d :: tail).length % 3 ≠ 0 := fun full => joins ⟨by simp, full⟩
        refine ⟨c :: first, others, rfl, by simp, ?_, three, ?_⟩
        · simp only [List.length_cons] at room rest ⊢
          omega
        · simp only [List.length_cons] at rest ⊢
          omega

theorem inThrees_threes {digits : List Char} (nonempty : digits ≠ []) :
    InThrees (threes digits) := by
  obtain ⟨first, others, groups, least, most, three, -⟩ := threes_spec nonempty
  exact ⟨first, others, groups, least, most, three⟩

/-- Grouped digits are the groups with the separator between them. -/
theorem group_eq (separator : Char) (digits : List Char) :
    group separator digits = [separator].intercalate (threes digits) := by
  induction digits with
  | nil => rfl
  | cons c rest ih =>
    unfold group threes
    cases rest with
    | nil => rfl
    | cons d tail =>
      obtain ⟨first, others, groups, -⟩ := @threes_spec (d :: tail) (by simp)
      rw [groups] at ih ⊢
      split
      case isTrue starts =>
        rw [ih]
        rfl
      case isFalse joins =>
        rw [ih]
        cases others with
        | nil => rfl
        | cons second others => rfl

/-! ### Number texts -/

/-- The parts of a number text: whether it has a sign, the digits of the whole part in groups, and
those of the fraction. -/
structure Parts where
  negative : Bool
  groups : List (List Char)
  fraction : List Char

namespace Parts

/-- The digits of the whole part. -/
def whole (p : Parts) : List Char := p.groups.flatten

/-- The text with these parts: a sign, the groups with separators between them, and the fraction
behind the decimal point. -/
def chars (locale : Locale) (p : Parts) : List Char :=
  (if p.negative then ['-'] else []) ++ [locale.groupSeparator].intercalate p.groups ++
    (if p.fraction = [] then [] else locale.decimalPoint :: p.fraction)

/-- The number without its sign. -/
def size (p : Parts) : ℚ :=
  Nat.ofDigitChars 10 (p.whole ++ p.fraction) 0 / 10 ^ p.fraction.length

/-- The number that the parts denote. -/
def value (p : Parts) : ℚ := if p.negative then -p.size else p.size

end Parts

/-- What a shown number has to be. -/
structure Shows (value : Decimal) (format : NumberStyle) (locale : Locale) (text : List Char)
    (p : Parts) : Prop where
  text_eq : text = p.chars locale
  digits : ∀ c ∈ p.whole ++ p.fraction, c.isDigit = true
  /-- It denotes the value, rounded half away from zero to the places of the format. -/
  rounded : RoundedAway value.value format.places p.value
  /-- A value with no more places is not rounded. -/
  exact : value.scale ≤ format.places → p.value = value.value
  /-- It has a sign when it denotes a number below zero. -/
  sign : p.negative = true ↔ p.value < 0
  /-- The whole part has no needless zero in front. -/
  leading : p.whole = ['0'] ∨ ∃ c rest, p.whole = c :: rest ∧ c ≠ '0'
  grouped : format.useGrouping = true → InThrees p.groups
  ungrouped : format.useGrouping = false → p.groups = [p.whole] ∧ locale.groupSeparator ∉ text
  least : format.minimumFractionDigits.toNat ≤ p.fraction.length
  /-- Digits beyond the least number of places are there only if they are needed. -/
  most : format.minimumFractionDigits.toNat < p.fraction.length →
    p.fraction.length ≤ format.places ∧ p.fraction.getLast? ≠ some '0'
  /-- The decimal point stands before a fraction only. -/
  point : locale.decimalPoint ∈ text ↔ p.fraction ≠ []

section Marks

variable (locale : Locale)

theorem marks_not_digit : locale.decimalPoint.isDigit = false ∧
    locale.groupSeparator.isDigit = false := by
  cases locale <;> decide

theorem marks_ne : locale.decimalPoint ≠ '-' ∧ locale.groupSeparator ≠ '-' ∧
    locale.decimalPoint ≠ locale.groupSeparator := by
  cases locale <;> decide

end Marks

/-! ### The parts of a shown number -/

/-- The parts that a value is shown with. -/
def partsOf (value : Decimal) (format : NumberStyle) : Parts where
  negative := (rounded value format).negative
  groups :=
    let digits := (rounded value format).wholeDigits
    if format.useGrouping then threes digits else [digits]
  fraction := fraction value format

variable (value : Decimal) (format : NumberStyle) (locale : Locale)

theorem whole_partsOf : (partsOf value format).whole = (rounded value format).wholeDigits := by
  unfold Parts.whole partsOf
  simp only
  split
  · exact flatten_threes _
  · simp

theorem toList_number :
    (number value format locale).toList = (partsOf value format).chars locale := by
  have wholePart : whole value format locale =
      [locale.groupSeparator].intercalate (partsOf value format).groups := by
    unfold whole partsOf
    simp only
    split
    · exact group_eq _ _
    · simp [List.intercalate]
  have sizePart : size value format locale = whole value format locale ++
      if fraction value format = [] then [] else locale.decimalPoint :: fraction value format := by
    unfold size
    split
    case h_1 empty => rw [empty, if_pos rfl, List.append_nil]
    case h_2 nonempty => rw [if_neg nonempty]
  rw [number, String.toList_ofList, sizePart, wholePart, ← List.append_assoc]
  rfl

/-- The parts denote the rounded value: zeros at the end of a fraction do not count. -/
theorem value_partsOf : (partsOf value format).value = (rounded value format).value := by
  set r := rounded value format with r_eq
  have size : (partsOf value format).size = r.mantissa / 10 ^ r.scale := by
    have fraction : (partsOf value format).fraction = r.fractionDigits ++
        List.replicate (format.minimumFractionDigits.toNat - r.fractionDigits.length) '0' := rfl
    generalize format.minimumFractionDigits.toNat - r.fractionDigits.length = zeros at fraction
    rw [Parts.size, whole_partsOf, fraction, ← r_eq, ← List.append_assoc,
      Digits.ofDigitChars_append_zeros, Decimal.ofDigitChars_digits, List.length_append,
      List.length_replicate, Decimal.length_fractionDigits, pow_add, Nat.cast_mul, Nat.cast_pow,
      Nat.cast_ofNat]
    have power : (10 : ℚ) ^ zeros ≠ 0 := by positivity
    rw [mul_div_mul_right _ _ power]
  rw [Parts.value, size, Decimal.value_eq]
  rfl

theorem scale_rounded_le : (rounded value format).scale ≤ format.places :=
  (Decimal.scale_normalize_le _).trans (Decimal.scale_round_le value format.places)

theorem value_rounded : (rounded value format).value = (value.round format.places).value :=
  Decimal.value_normalize _

/-- Every digit of a shown number is one. -/
theorem isDigit_of_mem_partsOf :
    ∀ c ∈ (partsOf value format).whole ++ (partsOf value format).fraction, c.isDigit = true := by
  intro c mem
  rcases List.mem_append.mp mem with mem | mem
  · rw [whole_partsOf] at mem
    exact Digits.isDigit_of_mem_toDigits c mem
  · rcases List.mem_append.mp mem with mem | mem
    · exact Decimal.isDigit_of_mem_fractionDigits c mem
    · rw [List.eq_of_mem_replicate mem]
      rfl

/-- A character of joined groups belongs to one, or is the separator between two. -/
theorem mem_intercalate {separator c : Char} {groups : List (List Char)}
    (mem : c ∈ [separator].intercalate groups) :
    c ∈ groups.flatten ∨ (c = separator ∧ 1 < groups.length) := by
  induction groups with
  | nil => cases mem
  | cons first others ih =>
    cases others with
    | nil => exact .inl (by simpa [List.intercalate] using mem)
    | cons second others =>
      have split : [separator].intercalate (first :: second :: others) =
          first ++ separator :: [separator].intercalate (second :: others) := rfl
      rw [split, List.mem_append, List.mem_cons] at mem
      rcases mem with mem | rfl | mem
      · exact .inl (List.mem_append_left _ mem)
      · exact .inr ⟨rfl, by simp⟩
      · rcases ih mem with inside | ⟨same, -⟩
        · exact .inl (List.mem_append_right _ inside)
        · exact .inr ⟨same, by simp⟩

/-- A text with digits in its parts has a sign, digits, and the marks that separate the parts. -/
theorem Parts.mem_chars {p : Parts} (digits : ∀ c ∈ p.whole ++ p.fraction, c.isDigit = true)
    {c : Char} (mem : c ∈ p.chars locale) :
    (c = '-' ∧ p.negative = true) ∨ c.isDigit = true ∨
      (c = locale.groupSeparator ∧ 1 < p.groups.length) ∨
      (c = locale.decimalPoint ∧ p.fraction ≠ []) := by
  rcases List.mem_append.mp mem with mem | mem
  · rcases List.mem_append.mp mem with mem | mem
    · split at mem
      case isTrue negative => exact .inl ⟨List.mem_singleton.mp mem, negative⟩
      case isFalse => cases mem
    · rcases mem_intercalate mem with inside | between
      · exact .inr (.inl (digits c (List.mem_append_left _ inside)))
      · exact .inr (.inr (.inl between))
  · split at mem
    case isTrue => cases mem
    case isFalse nonempty =>
      rcases List.mem_cons.mp mem with same | inside
      · exact .inr (.inr (.inr ⟨same, nonempty⟩))
      · exact .inr (.inl (digits c (List.mem_append_right _ inside)))

/-- Without groups to separate there is no separator. -/
theorem Parts.groupSeparator_not_mem {p : Parts}
    (digits : ∀ c ∈ p.whole ++ p.fraction, c.isDigit = true) (single : p.groups.length ≤ 1) :
    locale.groupSeparator ∉ p.chars locale := by
  obtain ⟨-, notDigit⟩ := marks_not_digit locale
  obtain ⟨-, notSign, apart⟩ := marks_ne locale
  intro mem
  rcases p.mem_chars locale digits mem with ⟨same, -⟩ | digit | ⟨-, several⟩ | ⟨same, -⟩
  · exact notSign same
  · rw [notDigit] at digit
    cases digit
  · exact absurd several (Nat.not_lt.mpr single)
  · exact apart same.symm

/-- The decimal point stands before a fraction only. -/
theorem Parts.decimalPoint_mem_iff {p : Parts}
    (digits : ∀ c ∈ p.whole ++ p.fraction, c.isDigit = true) :
    locale.decimalPoint ∈ p.chars locale ↔ p.fraction ≠ [] := by
  obtain ⟨notDigit, -⟩ := marks_not_digit locale
  obtain ⟨notSign, -, apart⟩ := marks_ne locale
  constructor
  · intro mem
    rcases p.mem_chars locale digits mem with ⟨same, -⟩ | digit | ⟨same, -⟩ | ⟨-, nonempty⟩
    · exact absurd same notSign
    · rw [notDigit] at digit
      cases digit
    · exact absurd same apart
    · exact nonempty
  · intro nonempty
    rw [Parts.chars, if_neg nonempty]
    exact List.mem_append_right _ List.mem_cons_self

/-- The whole part of a number has no needless zero in front. -/
theorem leading_wholeDigits (d : Decimal) :
    d.wholeDigits = ['0'] ∨ ∃ c rest, d.wholeDigits = c :: rest ∧ c ≠ '0' := by
  unfold Decimal.wholeDigits
  rcases Nat.eq_zero_or_pos (d.mantissa / 10 ^ d.scale) with zero | positive
  · rw [zero]
    exact .inl rfl
  · exact .inr (Digits.head_toDigits positive)

/-- The fraction of a shown number: as many digits as wanted, and more only if they are needed. -/
theorem fraction_needed
    (more : format.minimumFractionDigits.toNat < (fraction value format).length) :
    (fraction value format).length ≤ format.places ∧
      (fraction value format).getLast? ≠ some '0' := by
  have length := Decimal.length_fractionDigits (rounded value format)
  unfold fraction at more ⊢
  simp only [List.length_append, List.length_replicate] at more
  have noZeros : format.minimumFractionDigits.toNat -
      (rounded value format).fractionDigits.length = 0 := by omega
  simp only [noZeros, List.replicate_zero, List.append_nil]
  rw [length]
  refine ⟨scale_rounded_le value format, ?_⟩
  have notWhole : (rounded value format).scale ≠ 0 := by omega
  have last :=
    (Decimal.scale_normalize_eq_zero_or (value.round format.places)).resolve_left notWhole
  rw [Decimal.getLast?_fractionDigits notWhole]
  intro zero
  exact Digits.digitChar_ne_zero (Nat.mod_lt _ (by decide)) last (Option.some.inj zero)

/-- Every shown number denotes the rounded value, in the form that the format asks for. -/
theorem number_shows : ∃ p, Shows value format locale (number value format locale).toList p := by
  refine ⟨partsOf value format, ?_⟩
  have digits := isDigit_of_mem_partsOf value format
  have denotes := (value_partsOf value format).trans (value_rounded value format)
  have text_eq := toList_number value format locale
  refine
    { text_eq, digits, rounded := ?_, exact := ?_, sign := ?_, leading := ?_, grouped := ?_,
      ungrouped := ?_, least := ?_, most := fraction_needed value format, point := ?_ }
  · rw [denotes]
    exact Decimal.roundedAway_round value format.places
  · intro fits
    rw [denotes, Decimal.round_of_scale_le fits]
  · rw [value_partsOf]
    exact Decimal.negative_iff
  · rw [whole_partsOf]
    exact leading_wholeDigits _
  · intro wanted
    unfold partsOf
    simp only [wanted, if_true]
    exact inThrees_threes Nat.toDigits_ne_nil
  · intro unwanted
    have single : (partsOf value format).groups = [(rounded value format).wholeDigits] := by
      unfold partsOf
      simp only [unwanted, Bool.false_eq_true, if_false]
    refine ⟨by rw [whole_partsOf, single], ?_⟩
    rw [text_eq]
    exact Parts.groupSeparator_not_mem locale digits (single ▸ Nat.le_refl 1)
  · unfold partsOf fraction
    simp only [List.length_append, List.length_replicate]
    omega
  · rw [text_eq]
    exact Parts.decimalPoint_mem_iff locale digits

end Display

end Footprint
