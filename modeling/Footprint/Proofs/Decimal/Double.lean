import Footprint.Decimal.Double
import Footprint.Proofs.Double.Reread

/-!
Decimals that pass through a double.

Whether a decimal survives the way depends on its size alone (`Decimal.Fits`).

* `Decimal.ofDouble?_isSome`: each double below `2 ^ 96` is read as a decimal.
* `Decimal.toDouble_le`: a decimal that fits becomes such a double.
* `Decimal.toDouble_of_not_fits`: a larger one becomes `2 ^ 96` itself.
-/

namespace Footprint

namespace Decimal

open Double (belowDecimals)

/-- The value is below half way between the largest double below `2 ^ 96` and `2 ^ 96`. -/
def Fits (d : Decimal) : Prop := d.mantissa < (2 ^ 96 - 2 ^ 42) * 10 ^ d.scale

instance (d : Decimal) : Decidable d.Fits := inferInstanceAs (Decidable (_ < _))

/-! ### Reading plain digits -/

section Reading

variable (negative : Bool)

theorem digit?_eq {c : Char} (isDigit : c.isDigit = true) :
    digit? c = some (c.toNat - '0'.toNat) := by
  refine if_pos ?_
  have bounds := Char.isDigit_iff_toNat.mp isDigit
  exact ⟨bounds.1, bounds.2⟩

theorem withPlaces?_isSome {mantissa : Nat} (fits : mantissa ≤ maxMantissa) (places : Nat) :
    (withPlaces? negative mantissa places).isSome = true := by
  unfold withPlaces? ofParts?
  have below : mantissa < 2 ^ 96 := by
    unfold maxMantissa at fits
    omega
  have short : places % (maxScale + 1) ≤ 28 := Nat.le_of_lt_succ (Nat.mod_lt _ (by decide))
  rw [dif_pos ⟨below, short⟩]
  rfl

theorem mapM_cutDigit?_isSome {rest : List Char} (digits : ∀ c ∈ rest, c.isDigit = true) :
    (rest.mapM cutDigit?).isSome = true := by
  induction rest with
  | nil => rfl
  | cons c rest ih =>
    have first : ∃ v, cutDigit? c = some v := by
      unfold cutDigit?
      split
      · exact ⟨0, rfl⟩
      · exact ⟨_, digit?_eq (digits c List.mem_cons_self)⟩
    obtain ⟨v, found⟩ := first
    obtain ⟨others, all⟩ := Option.isSome_iff_exists.mp
      (ih fun d mem => digits d (List.mem_cons_of_mem _ mem))
    rw [List.mapM_cons, found, all]
    rfl

/-- A full fraction can be cut, unless the whole part would have to be rounded beyond the
largest mantissa. -/
theorem cutAt_isSome {mantissa places : Nat} {rest : List Char} (fits : mantissa ≤ maxMantissa)
    (room : places = 0 → mantissa < maxMantissa) (digits : ∀ c ∈ rest, c.isDigit = true) :
    (cutAt negative mantissa places rest).isSome = true := by
  obtain ⟨cut, found⟩ := Option.isSome_iff_exists.mp (mapM_cutDigit?_isSome digits)
  unfold cutAt
  rw [found, Option.bind_some]
  split
  · exact withPlaces?_isSome negative fits places
  · split
    case isTrue less => exact withPlaces?_isSome negative less places
    case isFalse full =>
      rw [if_neg fun none => full (room none)]
      exact withPlaces?_isSome negative (by omega) (places - 1)

/-- Digits behind the point are always read. -/
theorem readOn_fraction_isSome {rest : List Char} (digits : ∀ c ∈ rest, c.isDigit = true)
    {mantissa places : Nat} (skipped : Bool) (fits : mantissa ≤ maxMantissa)
    (room : places = 0 → mantissa < maxMantissa) :
    (readOn negative true true skipped mantissa places rest).isSome = true := by
  induction rest generalizing mantissa places skipped with
  | nil => exact withPlaces?_isSome negative fits places
  | cons c rest ih =>
    have cut := cutAt_isSome negative fits room digits
    unfold readOn
    split
    case isTrue => exact cut
    case isFalse =>
      rw [digit?_eq (digits c List.mem_cons_self)]
      simp only [if_true]
      split
      case isTrue more =>
        exact ih (fun d mem => digits d (List.mem_cons_of_mem _ mem)) false more (by simp)
      case isFalse => exact cut

/-- Digits in front of the point are read as their number while that fits. -/
theorem readOn_whole {whole : List Char} (digits : ∀ c ∈ whole, c.isDigit = true)
    (some : whole ≠ []) {mantissa : Nat} (seen : Bool) (rest : List Char)
    (fits : Nat.ofDigitChars 10 whole mantissa ≤ maxMantissa) :
    readOn negative false seen false mantissa 0 (whole ++ rest) =
      readOn negative false true false (Nat.ofDigitChars 10 whole mantissa) 0 rest := by
  induction whole generalizing mantissa seen with
  | nil => exact absurd rfl some
  | cons c tail ih =>
    have next : mantissa * 10 + (c.toNat - '0'.toNat) = 10 * mantissa + (c.toNat - '0'.toNat) := by
      rw [Nat.mul_comm]
    rw [Nat.ofDigitChars_cons] at fits ⊢
    have grows := Json.Numeral.le_ofDigitChars tail (10 * mantissa + (c.toNat - '0'.toNat))
    rw [List.cons_append, readOn, if_neg (by simp), digit?_eq (digits c List.mem_cons_self)]
    simp only [next, if_pos (grows.trans fits), Bool.false_eq_true, if_false]
    cases tail with
    | nil => rfl
    | cons d tail =>
      exact ih (fun e mem => digits e (List.mem_cons_of_mem _ mem)) (by simp) true fits

/-- A positional text is read while its whole part is below the largest mantissa. -/
theorem readOn_positional_isSome {whole fraction : List Char}
    (digits : ∀ c ∈ whole ++ fraction, c.isDigit = true) (some : whole ≠ [])
    (fits : Nat.ofDigitChars 10 whole 0 < maxMantissa) :
    (readOn negative false false false 0 0
      (whole ++ if fraction = [] then [] else '.' :: fraction)).isSome = true := by
  rw [readOn_whole negative (fun c mem => digits c (List.mem_append_left _ mem)) some false _
    fits.le]
  split
  case isTrue => exact withPlaces?_isSome negative fits.le 0
  case isFalse =>
    rw [readOn, if_neg (by simp)]
    simp only [show digit? '.' = none from rfl, and_self, if_true]
    exact readOn_fraction_isSome negative (fun c mem => digits c (List.mem_append_right _ mem))
      false fits.le fun _ => fits

end Reading

/-! ### Doubles as decimals -/

section OfDouble

variable {x : Double}

theorem ofPlain?_of_digit {c : Char} {rest : List Char} (digit : c.isDigit = true) :
    ofPlain? (c :: rest) = readOn false false false false 0 0 (c :: rest) := by
  unfold ofPlain?
  split
  · rename_i same
    cases same
    cases digit
  · rename_i same
    cases same
    cases digit
  · rfl

/-- The whole part of a number below `2 ^ 96` is below the largest mantissa. -/
theorem wholePart_lt (le : x.units ≤ belowDecimals.units) :
    Nat.ofDigitChars 10 (Double.wholePart (x.textDigits .awayFromZero)
      (x.textLead .awayFromZero)) 0 < maxMantissa := by
  set whole := Double.wholePart (x.textDigits .awayFromZero) (x.textLead .awayFromZero)
  set fraction := Double.fractionPart (x.textDigits .awayFromZero) (x.textLead .awayFromZero)
  have unit := Double.unitsPerOne_cast_pos
  have ten : (10 : ℚ) ≠ 0 := by norm_num
  have gap : x.exponent ≤ belowDecimals.exponent := by
    rw [← Double.lastPlace_units, ← Double.lastPlace_units]
    exact Double.lastPlace_mono Double.unitsPerOne_pos Double.unitsPerOne_pos
      (Nat.mul_le_mul_right _ le)
  have units : 2 * x.units + 2 ^ x.exponent ≤
      2 * belowDecimals.units + 2 ^ belowDecimals.exponent :=
    Nat.add_le_add (Nat.mul_le_mul_left 2 le) (Nat.pow_le_pow_right (by decide) gap)
  have near := (Double.shortest_spec .awayFromZero x).2
  rw [← Double.value_textDigits, ← Double.value_positional, Double.size_add_halfGap,
    zpow_neg, zpow_natCast, ← div_eq_mul_inv] at near
  have floor : (Nat.ofDigitChars 10 whole 0 : ℚ) ≤
      Nat.ofDigitChars 10 (whole ++ fraction) 0 / 10 ^ fraction.length := by
    rw [le_div_iff₀ (by positivity), Digits.ofDigitChars_append]
    push_cast
    exact le_add_of_nonneg_right (Nat.cast_nonneg _)
  have most := floor.trans near
  rw [le_div_iff₀ (mul_pos two_pos unit)] at most
  have whole_le : Nat.ofDigitChars 10 whole 0 * (2 * Double.unitsPerOne) ≤
      2 * x.units + 2 ^ x.exponent := by exact_mod_cast most
  refine Nat.lt_of_mul_lt_mul_right (Nat.lt_of_le_of_lt (whole_le.trans units) ?_)
  decide +kernel

/-- A double below `2 ^ 96` is read as a decimal. -/
theorem ofDouble?_isSome (le : x.units ≤ belowDecimals.units) : (ofDouble? x).isSome = true := by
  have digits := Double.isDigit_positional (x.textLead .awayFromZero)
    (Double.isDigit_textDigits .awayFromZero x)
  obtain ⟨c, rest, written, -⟩ := Double.wholePart_eq_cons
    (Double.textDigits_eq_cons .awayFromZero x) (Double.textLead_of_zero x)
  obtain ⟨d, tail, some, -⟩ := Double.textDigits_eq_cons .awayFromZero x
  have nonempty : x.textDigits .awayFromZero ≠ [] := by simp [some]
  have read := fun negative => readOn_positional_isSome negative digits (by simp [written])
    (wholePart_lt le)
  unfold ofDouble?
  rw [x.chars_expanded]
  simp only
  cases x.negative with
  | true => exact read true
  | false =>
    have first : c.isDigit = true :=
      digits c (List.mem_append_left _ (written ▸ List.mem_cons_self))
    have plain := read false
    rw [written, List.cons_append] at plain
    rw [if_neg Bool.false_ne_true, written, List.cons_append, ofPlain?_of_digit first]
    exact plain

end OfDouble

/-! ### Decimals as doubles -/

section ToDouble

variable {d : Decimal}

theorem sizeToDouble?_of_whole (whole : d.mantissa % 10 ^ d.scale = 0) :
    d.sizeToDouble? = Double.ofNat? (d.mantissa / 10 ^ d.scale) := by
  unfold sizeToDouble?
  simp only [whole, if_true]
  exact bind_pure _

/-- The steps in which a decimal with a fraction becomes a double. -/
theorem sizeToDouble?_of_fraction (notWhole : d.mantissa % 10 ^ d.scale ≠ 0) {z : Double}
    (found : d.sizeToDouble? = some z) :
    ∃ whole power part fraction sum,
      Double.ofNat? (d.mantissa / 10 ^ d.scale) = some whole ∧
      Double.tenPow? d.scale = some power ∧
      Double.ofNat? (d.mantissa % 10 ^ d.scale) = some part ∧
      part.div? power = some fraction ∧ whole.add? fraction = some sum ∧
      (((sum.mul? power).bind Double.round?).bind (·.div? power)) = some z := by
  unfold sizeToDouble? at found
  simp only [if_neg notWhole, Option.bind_eq_bind] at found
  obtain ⟨whole, first, found⟩ := Option.bind_eq_some_iff.mp found
  obtain ⟨power, scale, found⟩ := Option.bind_eq_some_iff.mp found
  obtain ⟨part, rest, found⟩ := Option.bind_eq_some_iff.mp found
  obtain ⟨fraction, quotient, found⟩ := Option.bind_eq_some_iff.mp found
  obtain ⟨sum, added, found⟩ := Option.bind_eq_some_iff.mp found
  exact ⟨whole, power, part, fraction, sum, first, scale, rest, quotient, added, by
    rw [Option.bind_assoc]
    exact found⟩

/-- The double `2 ^ 94`. -/
def quarterLimit : Double := ⟨false, 2 ^ 52, 1116, by decide⟩

/-- The double `2 ^ 95`. -/
def halfLimit : Double := ⟨false, 2 ^ 52, 1117, by decide⟩

theorem units_quarterLimit : quarterLimit.units = 2 ^ 94 * Double.unitsPerOne := by decide +kernel

theorem units_halfLimit : halfLimit.units = quarterLimit.units + quarterLimit.units := by
  decide +kernel

theorem ofNat?_le_quarterLimit {n : Nat} (le : n ≤ 2 ^ 94) {x : Double}
    (rounds : Double.ofNat? n = some x) : x.units ≤ quarterLimit.units := by
  have units : n * Double.unitsPerOne ≤ quarterLimit.units := by
    rw [units_quarterLimit]
    exact Nat.mul_le_mul_right _ le
  obtain ⟨y, same, below⟩ := Double.ofNat?_le units
  rw [rounds] at same
  exact Option.some.inj same ▸ below

/-- Multiplying by a power of ten, rounding to a whole number and dividing again keeps `2 ^ 95`
below `2 ^ 96`. -/
theorem halfLimit_rescaled : ∀ k < 29, (Double.tenPow? k).all (fun power =>
    (((halfLimit.mul? power).bind Double.round?).bind (·.div? power)).any
      (·.units ≤ belowDecimals.units)) = true := by
  decide +kernel

/-- Whole numbers below the limit become doubles below `2 ^ 96`. -/
theorem ofNat?_limit :
    (Double.ofNat? (2 ^ 96 - 2 ^ 42 - 1)).any (·.units ≤ belowDecimals.units) = true := by
  decide +kernel

/-- Whole part and fraction of a decimal with a fraction make up at most `2 ^ 95`. -/
theorem sum_le {whole power part fraction sum : Double} (notWhole : d.mantissa % 10 ^ d.scale ≠ 0)
    (first : Double.ofNat? (d.mantissa / 10 ^ d.scale) = some whole)
    (scale : Double.tenPow? d.scale = some power)
    (rest : Double.ofNat? (d.mantissa % 10 ^ d.scale) = some part)
    (quotient : part.div? power = some fraction) (added : whole.add? fraction = some sum) :
    sum.units ≤ halfLimit.units := by
  obtain ⟨mantissa, places⟩ := d.bounded
  have some : d.scale ≠ 0 := by
    intro none
    rw [none, Nat.pow_zero, Nat.mod_one] at notWhole
    exact notWhole rfl
  have tenth : d.mantissa / 10 ^ d.scale ≤ d.mantissa / 10 :=
    Nat.div_le_div_left (Nat.le_self_pow some 10) (by decide)
  have wholeLe := ofNat?_le_quarterLimit (by omega) first
  have small : d.mantissa % 10 ^ d.scale < 10 ^ d.scale := Nat.mod_lt _ (Nat.pow_pos (by decide))
  have power : 10 ^ d.scale ≤ 10 ^ 28 := Nat.pow_le_pow_right (by decide) places
  have partLe := ofNat?_le_quarterLimit (by omega) rest
  obtain ⟨_, same, one⟩ := Double.exists_tenPow? (k := d.scale) (by omega)
  rw [scale] at same
  obtain rfl := Option.some.inj same
  obtain ⟨_, same, fractionLe⟩ := part.div?_le one
  rw [quotient] at same
  obtain rfl := Option.some.inj same
  have both : whole.units + fraction.units ≤ halfLimit.units := by
    rw [units_halfLimit]
    exact Nat.add_le_add wholeLe (fractionLe.trans partLe)
  obtain ⟨_, same, sumLe⟩ := Double.add?_le both
  rw [added] at same
  exact Option.some.inj same ▸ sumLe

/-- A decimal below the limit becomes a double below `2 ^ 96`. -/
theorem toDouble_le (fits : d.Fits) : d.toDouble.units ≤ belowDecimals.units := by
  rw [toDouble, Double.units_negateIf]
  cases found : d.sizeToDouble? with
  | none => exact (Double.units_zero false).trans_le (Nat.zero_le _)
  | some z =>
    rw [Option.getD_some]
    by_cases whole : d.mantissa % 10 ^ d.scale = 0
    · obtain ⟨y, limit, below⟩ := Double.exists_of_any ofNat?_limit
      have less : d.mantissa / 10 ^ d.scale ≤ 2 ^ 96 - 2 ^ 42 - 1 :=
        Nat.le_pred_of_lt ((Nat.div_lt_iff_lt_mul (Nat.pow_pos (by decide))).mpr fits)
      obtain ⟨x, rounds, le⟩ := Double.ofNat?_mono less limit
      rw [sizeToDouble?_of_whole whole, rounds] at found
      exact Option.some.inj found ▸ le.trans (of_decide_eq_true below)
    · obtain ⟨first, power, part, fraction, sum, whole', scale, rest, quotient, added, last⟩ :=
        sizeToDouble?_of_fraction whole found
      have few := sum_le whole whole' scale rest quotient added
      have short : d.scale < 29 := Nat.lt_succ_of_le d.bounded.2
      have bound := halfLimit_rescaled d.scale short
      rw [scale, Option.all_some] at bound
      obtain ⟨y, rescaled, below⟩ := Double.exists_of_any bound
      obtain ⟨rounded', most, quotient'⟩ := Option.bind_eq_some_iff.mp rescaled
      obtain ⟨product', multiplied, nearest'⟩ := Option.bind_eq_some_iff.mp most
      obtain ⟨product, multiplied, less⟩ := Double.mul?_mono few (Nat.le_refl _) multiplied
      obtain ⟨rounded, nearest, less⟩ := Double.round?_mono less nearest'
      obtain ⟨x, divided, less⟩ := Double.div?_mono less quotient'
      rw [multiplied, Option.bind_some, nearest, Option.bind_some, divided] at last
      exact Option.some.inj last ▸ less.trans (of_decide_eq_true below)

/-! ### Beyond the limit -/

/-- The double `2 ^ 96`. -/
def limit : Double := ⟨false, 2 ^ 52, 1118, by decide⟩

theorem ofNat?_limit_ends : (Double.ofNat? (2 ^ 96 - 2 ^ 42)).any (limit.units ≤ ·.units) = true ∧
    (Double.ofNat? (2 ^ 96)).any (·.units ≤ limit.units) = true := by
  decide +kernel

theorem scale_eq_zero_of_not_fits (large : ¬ d.Fits) : d.scale = 0 := by
  by_contra places
  have tenth : 10 ≤ 10 ^ d.scale := Nat.le_self_pow places 10
  have most : (2 ^ 96 - 2 ^ 42) * 10 ≤ (2 ^ 96 - 2 ^ 42) * 10 ^ d.scale :=
    Nat.mul_le_mul_left _ tenth
  have bounded := d.bounded.1
  unfold Fits at large
  omega

/-- A decimal beyond the limit becomes `2 ^ 96`, with its sign. -/
theorem toDouble_of_not_fits (large : ¬ d.Fits) : ∃ turn, d.toDouble = limit.negateIf turn := by
  have whole := scale_eq_zero_of_not_fits large
  have same : d.sizeToDouble? = Double.ofNat? d.mantissa := by
    rw [sizeToDouble?_of_whole (by rw [whole, Nat.pow_zero, Nat.mod_one]), whole, Nat.pow_zero,
      Nat.div_one]
  unfold Fits at large
  rw [whole, Nat.pow_zero, Nat.mul_one, Nat.not_lt] at large
  obtain ⟨low, high⟩ := ofNat?_limit_ends
  obtain ⟨top, rounds, most⟩ := Double.exists_of_any high
  obtain ⟨z, found, le⟩ := Double.ofNat?_mono d.bounded.1.le rounds
  obtain ⟨bottom, rounds, least⟩ := Double.exists_of_any low
  obtain ⟨_, again, ge⟩ := Double.ofNat?_mono large found
  rw [rounds] at again
  obtain rfl := Option.some.inj again
  have units : d.toDouble.units = limit.units := by
    rw [toDouble, Double.units_negateIf, same, found, Option.getD_some]
    exact Nat.le_antisymm (le.trans (of_decide_eq_true most))
      ((of_decide_eq_true least).trans ge)
  exact ⟨_, Double.eq_of_units_eq units⟩

theorem toInt64?_of_not_fits (large : ¬ d.Fits) : d.toInt64? = none := by
  have whole := scale_eq_zero_of_not_fits large
  unfold Fits at large
  rw [whole, Nat.pow_zero, Nat.mul_one] at large
  unfold toInt64?
  simp only [whole, Nat.pow_zero, Nat.div_one]
  refine if_neg ?_
  rintro ⟨-, low, high⟩
  cases negative : d.negative with
  | true =>
    rw [negative, if_pos rfl] at low
    omega
  | false =>
    rw [negative, if_neg Bool.false_ne_true] at high
    omega

end ToDouble

end Decimal

end Footprint
