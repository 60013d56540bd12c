import Footprint.Json.Token
import Footprint.Json.Writer
import Footprint.Proofs.Text.Digits

/-!
Numbers as they are written.

A number is written as its parts: sign, whole part, fraction and power of ten (`Numeral.chars`).

* `Numeral.scan?_chars`: it is read back as these parts when nothing that could be a part of it
  follows (`EndsNumber`).
* `Numeral.toDouble?_eq`: with a significand below `2 ^ 64`, the double that is read from it is that
  of all its digits.
-/

namespace Footprint.Json.Numeral

/-! ### Writing -/

/-- A power of ten with its sign. -/
def exponentChars : Option Int → List Char
  | none => []
  | some e => 'e' :: (if e < 0 then '-' else '+') :: Nat.toDigits 10 e.natAbs

/-- A fraction behind its point. -/
def fractionChars (n : Numeral) : List Char := if n.fraction = [] then [] else '.' :: n.fraction

/-- A number without its sign. -/
def sizeChars (n : Numeral) : List Char := n.whole ++ (n.fractionChars ++ exponentChars n.exponent)

/-- A number as it is written. -/
def chars (n : Numeral) : List Char := if n.negative then '-' :: n.sizeChars else n.sizeChars

/-- Whole part and fraction consist of digits, and the whole part has some, but no needless zero in
front. -/
structure Proper (n : Numeral) : Prop where
  whole : ∃ c rest, n.whole = c :: rest ∧ (c = '0' → rest = [])
  digits : ∀ c ∈ n.whole ++ n.fraction, c.isDigit = true

/-! ### Reading back -/

/-- What may stand behind a number: nothing that could be a part of it. -/
def EndsNumber (rest : List Char) : Prop :=
  ∀ c ∈ rest.head?, c.isDigit = false ∧ c ≠ '.' ∧ c ≠ 'e' ∧ c ≠ 'E'

theorem endsNumber_nil : EndsNumber [] := by simp [EndsNumber]

theorem endsNumber_cons {c : Char} {rest : List Char}
    (stops : c.isDigit = false ∧ c ≠ '.' ∧ c ≠ 'e' ∧ c ≠ 'E') : EndsNumber (c :: rest) := by
  intro d mem
  cases mem
  exact stops

theorem spanDigits_append {digits rest : List Char} (all : ∀ c ∈ digits, c.isDigit = true)
    (ends : ∀ c ∈ rest.head?, c.isDigit = false) :
    spanDigits (digits ++ rest) = (digits, rest) := by
  have none : rest.takeWhile Char.isDigit = [] ∧ rest.dropWhile Char.isDigit = rest := by
    cases rest with
    | nil => exact ⟨rfl, rfl⟩
    | cons c tail =>
      have stop := ends c rfl
      simp [stop]
  unfold spanDigits
  rw [List.takeWhile_append_of_pos all, List.dropWhile_append_of_pos all, none.1, none.2,
    List.append_nil]

theorem digitsValue_eq (digits : List Char) :
    digitsValue digits = Nat.ofDigitChars 10 digits 0 := by
  rw [Nat.ofDigitChars_eq_foldl]
  simp only [digitsValue, digitValue, Nat.mul_comm]

theorem digitsValue_toDigits (n : Nat) : digitsValue (Nat.toDigits 10 n) = n := by
  rw [digitsValue_eq, Nat.ofDigitChars_ten_toDigits]

section Parts

variable {n : Numeral} {rest : List Char}

theorem scanWhole?_append {whole : List Char}
    (proper : ∃ c tail, whole = c :: tail ∧ (c = '0' → tail = []))
    (digits : ∀ c ∈ whole, c.isDigit = true) (ends : ∀ c ∈ rest.head?, c.isDigit = false) :
    scanWhole? (whole ++ rest) = some (whole, rest) := by
  obtain ⟨c, tail, rfl, alone⟩ := proper
  unfold scanWhole?
  rw [spanDigits_append digits ends]
  split
  · rename_i none
    cases none
  · rename_i zero
    cases zero
    cases alone rfl
  · rename_i same
    cases same
    rfl

theorem scanFraction?_append (digits : ∀ c ∈ n.fraction, c.isDigit = true)
    (ends : ∀ c ∈ rest.head?, c.isDigit = false ∧ c ≠ '.') :
    scanFraction? (n.fractionChars ++ rest) = some (n.fraction, rest) := by
  unfold fractionChars
  split
  case isTrue none =>
    rw [none, List.nil_append]
    unfold scanFraction?
    split
    · exact absurd rfl (ends '.' rfl).2
    · rfl
  case isFalse some =>
    rw [List.cons_append, scanFraction?, spanDigits_append digits fun c mem => (ends c mem).1]
    split
    · rename_i none
      exact absurd (congrArg Prod.fst none) some
    · rename_i same
      exact congrArg Option.some same.symm

theorem scanPower?_toDigits (negative : Bool) (size : Nat)
    (ends : ∀ c ∈ rest.head?, c.isDigit = false) :
    scanPower? negative (Nat.toDigits 10 size ++ rest) =
      some (some (if negative then -(size : Int) else size), rest) := by
  unfold scanPower?
  rw [spanDigits_append Digits.isDigit_of_mem_toDigits ends]
  obtain ⟨c, tail, digits, -⟩ := Digits.cons_of_toDigits size
  simp only [digits]
  rw [← digits, digitsValue_toDigits]

theorem scanExponent?_append (e : Option Int) (ends : EndsNumber rest) :
    scanExponent? (exponentChars e ++ rest) = some (e, rest) := by
  cases e with
  | none =>
    cases rest with
    | nil => rfl
    | cons c tail =>
      obtain ⟨-, -, notSmall, notLarge⟩ := ends c rfl
      have notMark : ¬ (c = 'e' ∨ c = 'E') := by
        rintro (small | large)
        · exact notSmall small
        · exact notLarge large
      simp only [exponentChars, List.nil_append, scanExponent?, if_neg notMark]
  | some e =>
    have stops : ∀ c ∈ rest.head?, c.isDigit = false := fun c mem => (ends c mem).1
    by_cases negative : e < 0
    · have same : -(e.natAbs : Int) = e := by omega
      simp only [exponentChars, if_pos negative, List.cons_append, scanExponent?, true_or, if_true,
        scanPower?_toDigits true e.natAbs stops, same]
    · have same : (e.natAbs : Int) = e := by omega
      simp only [exponentChars, if_neg negative, List.cons_append, scanExponent?, true_or, if_true,
        scanPower?_toDigits false e.natAbs stops, Bool.false_eq_true, if_false, same]

theorem head_exponentChars {e : Option Int} (ends : EndsNumber rest) :
    ∀ c ∈ (exponentChars e ++ rest).head?, c.isDigit = false ∧ c ≠ '.' := by
  intro c mem
  cases e with
  | none =>
    have stops := ends c mem
    exact ⟨stops.1, stops.2.1⟩
  | some e =>
    cases mem
    decide

theorem head_fractionChars {rest : List Char}
    (ends : ∀ c ∈ rest.head?, c.isDigit = false) :
    ∀ c ∈ (n.fractionChars ++ rest).head?, c.isDigit = false := by
  intro c mem
  unfold fractionChars at mem
  split at mem
  case isTrue => exact ends c mem
  case isFalse =>
    cases mem
    rfl

theorem scanSize?_append (proper : n.Proper) (ends : EndsNumber rest) :
    scanSize? n.negative (n.sizeChars ++ rest) = some (n, rest) := by
  have behind := head_exponentChars (e := n.exponent) ends
  have whole := scanWhole?_append proper.whole
    (fun c mem => proper.digits c (List.mem_append_left _ mem))
    (head_fractionChars (n := n) fun c mem => (behind c mem).1)
  have fraction := scanFraction?_append
    (fun c mem => proper.digits c (List.mem_append_right _ mem)) behind
  unfold scanSize? sizeChars
  rw [List.append_assoc, List.append_assoc]
  simp only [whole, Option.bind_eq_bind, Option.bind_some, fraction,
    scanExponent?_append n.exponent ends]
  rfl

theorem scan?_of_digit {c : Char} (digit : c.isDigit = true) :
    scan? (c :: rest) = scanSize? false (c :: rest) := by
  unfold scan?
  split
  · rename_i same
    cases same
    cases digit
  · rfl

theorem sizeChars_eq_cons (proper : n.Proper) :
    ∃ c word, n.sizeChars = c :: word ∧ c.isDigit = true := by
  obtain ⟨c, tail, whole, -⟩ := proper.whole
  refine ⟨c, tail ++ (n.fractionChars ++ exponentChars n.exponent), ?_, ?_⟩
  · rw [sizeChars, whole, List.cons_append]
  · exact proper.digits c (List.mem_append_left _ (whole ▸ List.mem_cons_self))

/-- A number starts with its sign or a digit. -/
theorem chars_eq_cons (proper : n.Proper) :
    ∃ c word, n.chars = c :: word ∧ (c = '-' ∨ c.isDigit = true) := by
  unfold chars
  split
  · exact ⟨'-', _, rfl, .inl rfl⟩
  · obtain ⟨c, word, written, digit⟩ := sizeChars_eq_cons proper
    exact ⟨c, word, written, .inr digit⟩

/-- A written number is read back when nothing that could be a part of it follows. -/
theorem scan?_chars (proper : n.Proper) (ends : EndsNumber rest) :
    scan? (n.chars ++ rest) = some (n, rest) := by
  have size := scanSize?_append proper ends
  unfold chars
  cases negative : n.negative with
  | true =>
    rw [negative] at size
    rw [if_pos rfl]
    exact size
  | false =>
    rw [negative] at size
    rw [if_neg Bool.false_ne_true, ← size]
    obtain ⟨c, word, written, digit⟩ := sizeChars_eq_cons proper
    rw [written]
    exact scan?_of_digit digit

end Parts

/-! ### Whole numbers -/

/-- A whole number as it is written. -/
def ofInt (i : Int) : Numeral := ⟨decide (i < 0), Nat.toDigits 10 i.natAbs, [], none⟩

theorem proper_ofInt (i : Int) : (ofInt i).Proper := by
  refine ⟨?_, ?_⟩
  · show ∃ c rest, Nat.toDigits 10 i.natAbs = c :: rest ∧ (c = '0' → rest = [])
    rcases Nat.eq_zero_or_pos i.natAbs with zero | positive
    · rw [zero]
      exact ⟨'0', [], rfl, fun _ => rfl⟩
    · obtain ⟨c, rest, digits, notZero⟩ := Digits.head_toDigits positive
      exact ⟨c, rest, digits, fun zero => absurd zero notZero⟩
  · intro c mem
    rw [show (ofInt i).fraction = [] from rfl, List.append_nil] at mem
    exact Digits.isDigit_of_mem_toDigits c mem

theorem writeInt_eq_chars (i : Int) : writeInt i = (ofInt i).chars := by
  simp only [writeInt, ofInt, chars, sizeChars, fractionChars, exponentChars, if_true,
    List.append_nil, decide_eq_true_eq]

theorem toInt?_ofInt {i : Int} (inRange : IntRange i) : (ofInt i).toInt? = some i := by
  obtain ⟨low, high⟩ := inRange
  unfold toInt? ofInt
  simp only [ne_eq, not_true_eq_false, Option.isSome_none, Bool.false_eq_true, or_self, ite_false,
    digitsValue_toDigits, decide_eq_true_eq]
  by_cases negative : i < 0
  · rw [if_pos negative, if_neg (by omega)]
    congr 1
    omega
  · rw [if_neg negative, if_pos (by omega)]
    congr 1
    omega

theorem toJson_ofInt {i : Int} (inRange : IntRange i) : (ofInt i).toJson = .int i := by
  rw [toJson, toInt?_ofInt inRange]

/-! ### Doubles -/

/-- All digits as one number. -/
def significand (n : Numeral) : Nat := Nat.ofDigitChars 10 (n.whole ++ n.fraction) 0

/-- The power of ten of the last digit. -/
def power (n : Numeral) : Int := n.exponent.getD 0 - n.fraction.length

theorem le_ofDigitChars (digits : List Char) (start : Nat) :
    start ≤ Nat.ofDigitChars 10 digits start := by
  have positive : 0 < 10 ^ digits.length := Nat.pow_pos (by decide)
  rw [Nat.ofDigitChars_eq_ofDigitChars_zero]
  exact (Nat.le_mul_of_pos_left start positive).trans (Nat.le_add_right _ _)

/-- Digits are appended one by one while they all fit. -/
theorem gather_eq {start : Nat} {digits : List Char}
    (fits : Nat.ofDigitChars 10 digits start < 2 ^ 64) :
    gather start digits = (Nat.ofDigitChars 10 digits start, 0) := by
  induction digits generalizing start with
  | nil => rfl
  | cons c rest ih =>
    have next : start * 10 + digitValue c = 10 * start + (c.toNat - '0'.toNat) := by
      rw [Nat.mul_comm]
      rfl
    rw [Nat.ofDigitChars_cons] at fits ⊢
    have grows : 10 * start + (c.toNat - '0'.toNat) ≤
        Nat.ofDigitChars 10 rest (10 * start + (c.toNat - '0'.toNat)) := by
      exact le_ofDigitChars _ _
    unfold gather
    simp only [next]
    rw [if_pos (Nat.lt_of_le_of_lt grows fits), ih fits]

/-- A number with few enough digits is read with all of them. -/
theorem toDouble?_eq {n : Numeral} (fits : n.significand < 2 ^ 64) :
    n.toDouble? = Double.ofScientific? n.negative n.significand n.power := by
  have split : n.significand =
      Nat.ofDigitChars 10 n.fraction (Nat.ofDigitChars 10 n.whole 0) :=
    Nat.ofDigitChars_append ..
  have whole : Nat.ofDigitChars 10 n.whole 0 < 2 ^ 64 := by
    refine Nat.lt_of_le_of_lt ?_ fits
    rw [split]
    exact le_ofDigitChars _ _
  unfold toDouble?
  rw [gather_eq whole]
  simp only
  rw [gather_eq (split ▸ fits), ← split]
  simp [power]

end Footprint.Json.Numeral
