import Footprint.Error
import Footprint.Text.Blank
import Footprint.Text.Lowercase

/-!
Locales and currencies.

A locale fixes the decimal point, what stands between groups of digits, and where the symbol of a
currency goes. A currency has a code, a symbol and a usual number of places.
-/

namespace Footprint

/-- A supported locale. -/
inductive Locale where
  | enUS
  | enGB
  | deDE
  | nlNL
  | frFR
  | jaJP
deriving DecidableEq, Repr, Inhabited

/-- Where the symbol of a currency goes. -/
inductive Placement where
  /-- In front of the digits and after the sign; letters keep their distance. -/
  | before
  /-- In front of the sign, with a space. -/
  | beforeSign
  /-- After the digits, with a space. -/
  | after
deriving DecidableEq, Repr

/-- A currency with its usual number of places. -/
structure Currency where
  code : String
  symbol : String
  fractionDigits : UInt32
deriving DecidableEq, Repr

namespace Locale

/-- The locale when none is asked for. -/
def fallback : Locale := .enUS

/-- All locales. -/
def all : List Locale := [.enUS, .enGB, .deDE, .nlNL, .frFR, .jaJP]

/-- The tag of a locale. -/
def tag : Locale → String
  | .enUS => "en-US"
  | .enGB => "en-GB"
  | .deDE => "de-DE"
  | .nlNL => "nl-NL"
  | .frFR => "fr-FR"
  | .jaJP => "ja-JP"

/-- What stands between whole part and fraction. -/
def decimalPoint : Locale → Char
  | .enUS | .enGB | .jaJP => '.'
  | .deDE | .nlNL | .frFR => ','

/-- What stands between groups of three digits: in French a narrow space that does not break. -/
def groupSeparator : Locale → Char
  | .enUS | .enGB | .jaJP => ','
  | .deDE | .nlNL => '.'
  | .frFR => '\u202f'

/-- Where the symbol of a currency goes. -/
def placement : Locale → Placement
  | .enUS | .enGB | .jaJP => .before
  | .nlNL => .beforeSign
  | .deDE | .frFR => .after

/-- The locale of a tag. Case does not count, `_` stands for `-`, and a language alone means its
main locale. -/
def ofTag? (text : String) : Except Error Locale :=
  let joined := (Text.trimChars text.toList).map fun c => if c = '_' then '-' else c
  match Text.lower (String.ofList joined) with
  | "en-us" | "en" => .ok .enUS
  | "en-gb" => .ok .enGB
  | "de-de" | "de" => .ok .deDE
  | "nl-nl" | "nl" => .ok .nlNL
  | "fr-fr" | "fr" => .ok .frFR
  | "ja-jp" | "ja" => .ok .jaJP
  | _ => .error (.unsupportedLocale text)

/-- The locale of a tag that may be missing. -/
def ofOptionalTag? : Option String → Except Error Locale
  | some text => ofTag? text
  | none => .ok fallback

end Locale

namespace Currency

/-- The supported currencies. -/
def all : List Currency :=
  [⟨"EUR", "€", 2⟩, ⟨"USD", "$", 2⟩, ⟨"GBP", "£", 2⟩, ⟨"JPY", "¥", 0⟩, ⟨"CNY", "CN¥", 2⟩,
   ⟨"CHF", "CHF", 2⟩, ⟨"CAD", "CA$", 2⟩, ⟨"AUD", "A$", 2⟩, ⟨"INR", "₹", 2⟩, ⟨"SEK", "SEK", 2⟩]

/-- The currency of a code, in which the case of ASCII letters and blanks around it do not count.
-/
def ofCode? (text : String) : Except Error Currency :=
  let code := String.ofList ((Text.trimChars text.toList).map Char.toUpper)
  match all.find? fun c => c.code = code with
  | some c => .ok c
  | none => .error (.unsupportedCurrency text)

/-- Whether the symbol consists of ASCII letters. -/
def isAlphabetic (c : Currency) : Bool := c.symbol.toList.all Char.isAlpha

end Currency

end Footprint
