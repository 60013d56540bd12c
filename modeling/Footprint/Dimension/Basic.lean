import Footprint.Error
import Footprint.NameMap

/-!
Dimensions: exponents over named bases.

A dimension says with which power each base, such as `[mass]` or `[time]`, enters a quantity.
Bases with exponent zero are never stored: a sum drops a base at the step at which it cancels, which
comes to the same as dropping zeros when the sum ends (`Dimension.trimmedSum?_eq`). So
`Dimension.exponent` is a faithful view:

* `Dimension.ext_exponent`: dimensions with the same exponent at every base are equal;
* `exponent_set`: what setting one exponent does.

Products, quotients and powers are sums of exponents with weights. Each term and each running sum
has to stay in the range of 32 bits; the first one that does not is reported with its base
(`addScaled?`). `Dimension.ofEntries` instead stays at the bound that a sum would pass.
-/

namespace Footprint

-- Powers are those of the core library, whichever instances a reader of the module has in scope.
attribute [local instance (high)] instPowNat

/-- Exponents over named bases, none of them stored as zero. -/
structure Dimension where
  exponents : NameMap Int32
  nonzero : ∀ e ∈ exponents.entries, e.2 ≠ 0
deriving DecidableEq, Repr

/-! ### Exponents -/

/-- The whole number as an exponent, if it is in range. -/
def fitExponent? (i : Int) : Option Int32 :=
  if -2 ^ (31 : Nat) ≤ i ∧ i < 2 ^ (31 : Nat) then some (Int32.ofInt i) else none

/-- The exponent nearest to a whole number. -/
def clampExponent (i : Int) : Int32 :=
  if i < -2 ^ (31 : Nat) then Int32.minValue
  else if 2 ^ (31 : Nat) ≤ i then Int32.maxValue
  else Int32.ofInt i

theorem fitExponent?_eq_some_iff {i : Int} {e : Int32} :
    fitExponent? i = some e ↔ e.toInt = i := by
  unfold fitExponent?
  constructor
  · intro h
    split at h
    · rename_i inRange
      cases h
      exact Int32.toInt_ofInt_of_le inRange.1 inRange.2
    · cases h
  · intro h
    subst h
    rw [if_pos ⟨Int32.le_toInt e, Int32.toInt_lt e⟩, Int32.ofInt_toInt]

namespace Dimension

/-! ### The view -/

/-- The exponent of a base, zero when it is not stored. -/
def exponent (d : Dimension) (base : String) : Int32 := (d.exponents.get? base).getD 0

/-- The stored bases with their exponents, in order. -/
def entries (d : Dimension) : List (String × Int32) := d.exponents.entries

/-- The dimension of a pure number. -/
def one : Dimension := ⟨NameMap.empty, by simp [NameMap.empty]⟩

instance : Inhabited Dimension := ⟨one⟩

/-- `d` with another exponent of one base. -/
def set (d : Dimension) (base : String) (exponent : Int32) : Dimension :=
  if h : exponent = 0 then
    ⟨d.exponents.erase base, fun e he => d.nonzero e (List.mem_filter.mp he).1⟩
  else
    ⟨d.exponents.insert base exponent, fun e he => by
      rcases NameMap.mem_insertEntry he with he | he
      · exact he ▸ h
      · exact d.nonzero e he⟩

@[simp] theorem exponent_one (base : String) : one.exponent base = 0 := rfl

theorem exponent_set (d : Dimension) (base other : String) (e : Int32) :
    (d.set base e).exponent other = if other = base then e else d.exponent other := by
  unfold set
  split
  · rename_i zero
    subst zero
    simp only [exponent, NameMap.get?_erase]
    split <;> rfl
  · simp only [exponent, NameMap.get?_insert]
    split <;> rfl

/-- A base is stored exactly when its exponent is not zero. -/
theorem get?_eq_some_iff {d : Dimension} {base : String} {e : Int32} :
    d.exponents.get? base = some e ↔ d.exponent base = e ∧ e ≠ 0 := by
  constructor
  · intro h
    exact ⟨by simp [exponent, h], d.nonzero _ (NameMap.get?_eq_some_iff.mp h)⟩
  · rintro ⟨h, notZero⟩
    unfold exponent at h
    cases stored : d.exponents.get? base with
    | none =>
      rw [stored] at h
      exact absurd h.symm notZero
    | some found =>
      rw [stored] at h
      exact congrArg some h

/-- Dimensions are equal when their exponents agree at every base. -/
theorem ext_exponent {a b : Dimension} (h : ∀ base, a.exponent base = b.exponent base) : a = b := by
  have same : a.exponents = b.exponents := NameMap.ext_get? fun base => by
    apply Option.ext
    intro e
    rw [get?_eq_some_iff, get?_eq_some_iff, h]
  cases a
  cases b
  cases same
  rfl

/-! ### Construction -/

/-- Add to the exponent of one base, staying at the bound that the sum would pass. -/
def addClamped (d : Dimension) (base : String) (e : Int32) : Dimension :=
  d.set base (clampExponent ((d.exponent base).toInt + e.toInt))

/-- The dimension with these entries; entries of one base are summed in order. -/
def ofEntries (entries : List (String × Int32)) : Dimension :=
  entries.foldl (fun d e => d.addClamped e.1 e.2) one

/-- One base with exponent one. -/
def base (name : String) : Dimension := ofEntries [(name, 1)]

/-- The base of mass. -/
def mass : String := "[mass]"

/-- The base of length. -/
def length : String := "[length]"

/-- The base of time. -/
def time : String := "[time]"

/-- The base of electric current. -/
def current : String := "[current]"

/-- The base of temperature. -/
def temperature : String := "[temperature]"

/-- The base of amount of substance. -/
def substance : String := "[substance]"

/-- The base of luminous intensity. -/
def luminosity : String := "[luminosity]"

/-- The base of money. -/
def money : String := "[currency]"

/-- The base of data. -/
def data : String := "[data]"

/-- The dimension of amounts of money. -/
def currency : Dimension := base money

/-- Whether it is the dimension of a pure number. -/
def isOne (d : Dimension) : Bool := d.entries.isEmpty

theorem isOne_iff {d : Dimension} : d.isOne = true ↔ ∀ base, d.exponent base = 0 := by
  constructor
  · intro h base
    have none : d.entries = [] := List.isEmpty_iff.mp h
    simp only [entries] at none
    simp [exponent, NameMap.get?, none, NameMap.lookupEntry]
  · intro zero
    have same : d = one := ext_exponent zero
    rw [same]
    rfl

/-- Whether it is the dimension of amounts of money. -/
def isCurrency (d : Dimension) : Bool := d = currency

/-! ### Weighted sums -/

/-- Add `weight * e` to the exponent of one base. -/
def addTerm? (d : Dimension) (base : String) (weight e : Int32) : Except Error Dimension :=
  match (fitExponent? (weight.toInt * e.toInt)).bind fun term =>
      fitExponent? ((d.exponent base).toInt + term.toInt) with
  | some sum => .ok (d.set base sum)
  | none => .error (.exponentOverflow base)

/-- Add all exponents of `other` with a weight, in the order of the bases. -/
def addScaled? (d other : Dimension) (weight : Int32) : Except Error Dimension :=
  other.entries.foldlM (fun d e => d.addTerm? e.1 weight e.2) d

/-- The sum of weighted dimensions, taken in order. -/
def weightedSum? (terms : List (Dimension × Int32)) : Except Error Dimension :=
  terms.foldlM (fun d t => d.addScaled? t.1 t.2) one

/-- The sum of dimensions with one weight each. -/
def sumWithWeights? (dims : List Dimension) (weights : List Int32) : Except Error Dimension :=
  if dims.length = weights.length then weightedSum? (dims.zip weights)
  else .error (.weightCountMismatch dims.length weights.length)

/-- The dimension of a product of quantities. -/
def product (dims : List Dimension) : Except Error Dimension := weightedSum? (dims.map (·, 1))

/-- The dimension of the product of two quantities. -/
def mul (a b : Dimension) : Except Error Dimension := weightedSum? [(a, 1), (b, 1)]

/-- The dimension of the quotient of two quantities. -/
def div (a b : Dimension) : Except Error Dimension := weightedSum? [(a, 1), (b, -1)]

/-- The dimension of a power of a quantity. -/
def pow (d : Dimension) (power : Int32) : Except Error Dimension := weightedSum? [(d, power)]

end Dimension

end Footprint
