import Footprint.Proofs.Display.Reading
import Mathlib.Data.List.Nodup

/-!
What an amount of money says.

The text of an amount is the text of a number with the symbol of the currency put into it, and in
some places a space that does not break. No symbol has a character of numbers, in no locale, so the
text falls apart again: these characters are the number, and the others say which currency it is.

* `Currency.ofCode?_eq_ok_iff`: what a code names;
* `Display.amountText_eq_iff`: amounts in given currencies;
* `Display.money_identifies`: the text of an amount identifies the currency and the rounded amount.
-/

namespace Footprint

/-! ### Currencies -/

namespace Currency

/-- The text is the code of the currency, where blanks around it and the case of ASCII letters do
not count. -/
def NamedBy (currency : Currency) (text : String) : Prop :=
  (Text.trimChars text.toList).map Char.toUpper = currency.code.toList.map Char.toUpper

theorem uppercase_code : ∀ c ∈ all, c.code.toList.map Char.toUpper = c.code.toList := by
  decide

theorem nodup_code : (all.map (·.code)).Nodup := by
  decide

theorem namedBy_iff {c : Currency} (listed : c ∈ all) {text : String} : c.NamedBy text ↔
    c.code = String.ofList ((Text.trimChars text.toList).map Char.toUpper) := by
  rw [NamedBy, uppercase_code c listed, ← String.toList_inj, String.toList_ofList]
  exact eq_comm

/-- A code names at most one currency. -/
theorem NamedBy.unique {c d : Currency} {text : String} (namesC : c.NamedBy text)
    (namesD : d.NamedBy text) (listedC : c ∈ all) (listedD : d ∈ all) : c = d := by
  refine List.inj_on_of_nodup_map nodup_code listedC listedD ?_
  rw [(namedBy_iff listedC).mp namesC, (namedBy_iff listedD).mp namesD]

theorem ofCode?_eq_ok_iff {text : String} {c : Currency} :
    ofCode? text = .ok c ↔ c ∈ all ∧ c.NamedBy text := by
  unfold ofCode?
  simp only
  split
  case h_1 d found =>
    have listed := List.mem_of_find?_eq_some found
    have names : d.NamedBy text :=
      (namedBy_iff listed).mpr (by simpa using List.find?_some found)
    rw [Except.ok.injEq]
    constructor
    · rintro rfl
      exact ⟨listed, names⟩
    · rintro ⟨listedC, namesC⟩
      exact names.unique namesC listed listedC
  case h_2 missing =>
    simp only [reduceCtorEq, false_iff]
    rintro ⟨listed, names⟩
    have differs := List.find?_eq_none.mp missing c listed
    exact differs (decide_eq_true ((namedBy_iff listed).mp names))

/-- The format in force: the one that is given, or else the places of the currency. -/
def style (currency : Currency) (format : Option NumberStyle) : NumberStyle :=
  format.getD (.fixed currency.fractionDigits)

end Currency

namespace Display

/-! ### The symbol of a currency -/

/-- The characters of numbers in a locale. -/
def isNumberChar (locale : Locale) (c : Char) : Bool :=
  c.isDigit || c == '-' || c == locale.groupSeparator || c == locale.decimalPoint

/-- The symbol of a currency, with the space between it and the number where there is one. -/
def mark (locale : Locale) (currency : Currency) : List Char :=
  let symbol := currency.symbol.toList
  match locale.placement with
  | .before => if currency.isAlphabetic then symbol ++ [fixedSpace] else symbol
  | .beforeSign => symbol ++ [fixedSpace]
  | .after => fixedSpace :: symbol

section Symbol

variable {locale : Locale} {currency : Currency}

/-- Symbols and spaces are apart from numbers. -/
theorem not_isNumberChar_of_mem_mark (listed : currency ∈ Currency.all) {c : Char}
    (mem : c ∈ mark locale currency) : isNumberChar locale c = false := by
  have table : ∀ currency ∈ Currency.all,
      (mark locale currency).all (fun c => !isNumberChar locale c) = true := by
    cases locale <;> decide
  simpa using List.all_eq_true.mp (table currency listed) c mem

/-- Though some symbols hold others, no two are the same. -/
theorem nodup_mark (locale : Locale) : (Currency.all.map (mark locale)).Nodup := by
  cases locale <;> decide

theorem isNumberChar_of_mem_number {value : Decimal} {format : NumberStyle} :
    ∀ c ∈ (number value format locale).toList, isNumberChar locale c = true := by
  intro c mem
  rw [toList_number] at mem
  unfold isNumberChar
  rcases Parts.mem_chars locale (isDigit_of_mem_partsOf value format) mem with
    ⟨same, -⟩ | digit | ⟨same, -⟩ | ⟨same, -⟩
  · simp [same]
  · simp [digit]
  · simp [same]
  · simp [same]

/-- The symbol is put into the text of the number at one place. -/
theorem exists_split_placeSymbol (locale : Locale) (currency : Currency) (sign size : List Char) :
    ∃ before after, placeSymbol locale currency sign size =
      before ++ mark locale currency ++ after ∧ sign ++ size = before ++ after := by
  unfold placeSymbol mark
  cases locale.placement with
  | before =>
    refine ⟨sign, size, ?_, rfl⟩
    simp only
    split <;> simp
  | beforeSign => exact ⟨[], sign ++ size, by simp, rfl⟩
  | after => exact ⟨sign ++ size, [], by simp, (List.append_nil _).symm⟩

end Symbol

/-! ### Amounts -/

/-- The text of an amount. -/
def amountText (value : Decimal) (currency : Currency) (format : NumberStyle) (locale : Locale) :
    String :=
  String.ofList (placeSymbol locale currency (sign value format) (size value format locale))

/-- What the text of an amount has to be. -/
structure ShowsAmount (value : Decimal) (currency : Currency) (format : NumberStyle)
    (locale : Locale) (text : String) : Prop where
  /-- There is one sign if the rounded amount is below zero, and none otherwise. -/
  sign : ∃ amount, RoundedAway value.value format.places amount ∧
    text.toList.count '-' = if amount < 0 then 1 else 0
  /-- Where the symbol with its space is taken away, the number is left. -/
  symbol : ∃ before after, text.toList = before ++ mark locale currency ++ after ∧
    (number value format locale).toList = before ++ after
  /-- Nothing else in the text is a character of numbers. -/
  rest : text.toList.filter (isNumberChar locale) = (number value format locale).toList

section Amounts

variable {value : Decimal} {currency : Currency} {format : NumberStyle} {locale : Locale}

theorem exists_split_amountText (value : Decimal) (currency : Currency) (format : NumberStyle)
    (locale : Locale) : ∃ before after,
      (amountText value currency format locale).toList = before ++ mark locale currency ++ after ∧
        (number value format locale).toList = before ++ after := by
  rw [amountText, number, String.toList_ofList, String.toList_ofList]
  exact exists_split_placeSymbol locale currency _ _

section Listed

variable (listed : currency ∈ Currency.all)
include listed

theorem filter_mark : (mark locale currency).filter (isNumberChar locale) = [] := by
  refine List.filter_eq_nil_iff.mpr fun c mem => ?_
  rw [not_isNumberChar_of_mem_mark listed mem]
  exact Bool.false_ne_true

/-- The characters of numbers in the text are the number. -/
theorem filter_amountText :
    (amountText value currency format locale).toList.filter (isNumberChar locale) =
      (number value format locale).toList := by
  obtain ⟨before, after, split, left⟩ := exists_split_amountText value currency format locale
  rw [split, List.filter_append, List.filter_append, filter_mark listed, List.append_nil,
    ← List.filter_append, ← left]
  exact List.filter_eq_self.mpr isNumberChar_of_mem_number

/-- The others are the symbol with its space. -/
theorem filter_not_amountText :
    (amountText value currency format locale).toList.filter (!isNumberChar locale ·) =
      mark locale currency := by
  obtain ⟨before, after, split, left⟩ := exists_split_amountText value currency format locale
  have none : ∀ c ∈ before ++ after, ¬ (!isNumberChar locale c) = true := by
    rw [← left]
    intro c mem
    rw [isNumberChar_of_mem_number c mem]
    exact Bool.false_ne_true
  have all : ∀ c ∈ mark locale currency, (!isNumberChar locale c) = true := by
    intro c mem
    rw [not_isNumberChar_of_mem_mark listed mem, Bool.not_false]
  rw [split, List.filter_append, List.filter_append, List.filter_eq_self.mpr all,
    List.filter_eq_nil_iff.mpr fun c mem => none c (List.mem_append_left _ mem),
    List.filter_eq_nil_iff.mpr fun c mem => none c (List.mem_append_right _ mem),
    List.nil_append, List.append_nil]

theorem showsAmount_amountText :
    ShowsAmount value currency format locale (amountText value currency format locale) where
  sign := by
    obtain ⟨before, after, split, left⟩ := exists_split_amountText value currency format locale
    have noSign : (mark locale currency).count '-' = 0 := by
      refine List.count_eq_zero.mpr fun mem => ?_
      have apart := not_isNumberChar_of_mem_mark listed mem
      cases apart
    refine ⟨_, roundedAway_rounded value format, ?_⟩
    rw [← count_sign_number value format locale, left, split]
    simp only [List.count_append, noSign, Nat.add_zero]
  symbol := exists_split_amountText value currency format locale
  rest := filter_amountText listed

/-- Texts of amounts are equal exactly if the currencies are and the amounts round to the same. -/
theorem amountText_eq_iff {v w : Decimal} {other : Currency} (listedOther : other ∈ Currency.all)
    (format : Option NumberStyle) :
    amountText v currency (currency.style format) locale =
        amountText w other (other.style format) locale ↔
      currency = other ∧ ∃ amount, RoundedAway v.value (currency.style format).places amount ∧
        RoundedAway w.value (currency.style format).places amount := by
  constructor
  · intro same
    have marks : mark locale currency = mark locale other := by
      rw [← filter_not_amountText listed, same, filter_not_amountText listedOther]
    obtain rfl := List.inj_on_of_nodup_map (nodup_mark locale) listed listedOther marks
    refine ⟨rfl, (number_eq_iff locale).mp (String.toList_inj.mp ?_)⟩
    rw [← filter_amountText listed, same, filter_amountText listed]
  · rintro ⟨rfl, amount, ofV, ofW⟩
    simp only [amountText, sign, size, fraction, whole, rounded_eq_of_roundedAway ofV ofW]

end Listed

/-! ### Codes and tags -/

/-- The text shows the value in the currency of the code, for the locale of the tag. -/
def ShowsMoney (value : Decimal) (code : String) (format : Option NumberStyle)
    (tag : Option String) (text : String) : Prop :=
  ∃ currency ∈ Currency.all, ∃ locale, currency.NamedBy code ∧
    Locale.ofOptionalTag? tag = .ok locale ∧
      ShowsAmount value currency (currency.style format) locale text

/-- The codes name one currency, and in its places, or those of the format, the values round to the
same amount. -/
def SameMoney (v w : Decimal) (c d : String) (format : Option NumberStyle) : Prop :=
  ∃ currency ∈ Currency.all, currency.NamedBy c ∧ currency.NamedBy d ∧
    ∃ amount, RoundedAway v.value (currency.style format).places amount ∧
      RoundedAway w.value (currency.style format).places amount

theorem money_eq_ok_iff {code : String} {format : Option NumberStyle} {tag : Option String}
    {text : String} : money value code format tag = .ok text ↔
      ∃ locale currency, Locale.ofOptionalTag? tag = .ok locale ∧
        Currency.ofCode? code = .ok currency ∧
        amountText value currency (currency.style format) locale = text := by
  unfold money
  cases Locale.ofOptionalTag? tag with
  | error e => simp [bind, Except.bind]
  | ok locale =>
    cases Currency.ofCode? code with
    | error e => simp [bind, Except.bind]
    | ok currency => simp [bind, Except.bind, pure, Except.pure, amountText, Currency.style]

end Amounts

/-- Texts of amounts of money are equal exactly if currency and rounded amount are, and each of them
shows its value. -/
theorem money_identifies {v w : Decimal} {c d : String} {format : Option NumberStyle}
    {tag : Option String} {s t : String} (first : money v c format tag = .ok s)
    (second : money w d format tag = .ok t) :
    (s = t ↔ SameMoney v w c d format) ∧ ShowsMoney v c format tag s ∧
      ShowsMoney w d format tag t := by
  obtain ⟨locale, currency, supported, found, rfl⟩ := money_eq_ok_iff.mp first
  obtain ⟨locale', other, supported', found', rfl⟩ := money_eq_ok_iff.mp second
  obtain rfl : locale = locale' := Except.ok.inj (supported.symm.trans supported')
  obtain ⟨listed, named⟩ := Currency.ofCode?_eq_ok_iff.mp found
  obtain ⟨listedOther, namedOther⟩ := Currency.ofCode?_eq_ok_iff.mp found'
  refine ⟨?_, ⟨currency, listed, locale, named, supported, showsAmount_amountText listed⟩,
    other, listedOther, locale, namedOther, supported', showsAmount_amountText listedOther⟩
  rw [amountText_eq_iff listed listedOther]
  constructor
  · rintro ⟨rfl, amounts⟩
    exact ⟨currency, listed, named, namedOther, amounts⟩
  · rintro ⟨both, listedBoth, namesC, namesD, amounts⟩
    obtain rfl := named.unique namesC listed listedBoth
    exact ⟨namedOther.unique namesD listedOther listed |>.symm, amounts⟩

/-- A debt of 1234.505 dollars. -/
def debt : Decimal := .ofParts true 1234505 3 (by decide)

/-- The same, rounded to cents. -/
def roundedDebt : Decimal := .ofParts true 123451 2 (by decide)

/-- The debt is shown as what it rounds to, with the sign in front and the symbol behind. -/
theorem debt_identifies :
    money debt " usd" none (some "de_DE") = .ok "-1.234,51\u00a0$" ∧
    money roundedDebt "USD" none (some "de_DE") = .ok "-1.234,51\u00a0$" ∧
    (("-1.234,51\u00a0$" = "-1.234,51\u00a0$" ↔ SameMoney debt roundedDebt " usd" "USD" none) ∧
      ShowsMoney debt " usd" none (some "de_DE") "-1.234,51\u00a0$" ∧
      ShowsMoney roundedDebt "USD" none (some "de_DE") "-1.234,51\u00a0$") := by
  have first : money debt " usd" none (some "de_DE") = .ok "-1.234,51\u00a0$" := by
    decide +kernel
  have second : money roundedDebt "USD" none (some "de_DE") = .ok "-1.234,51\u00a0$" := by
    decide +kernel
  exact ⟨first, second, money_identifies first second⟩

end Display

end Footprint
