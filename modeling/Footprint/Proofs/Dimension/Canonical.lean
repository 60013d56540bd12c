import Footprint.Json.Reader
import Footprint.Json.Writer
import Footprint.Proofs.Dimension.Combined
import Footprint.Proofs.Dimension.Document
import Footprint.Proofs.Json.Read

/-!
Dimensions have one form.

`Made` lists the ways to make a dimension, each with the exponents that it should have as whole
numbers: sums that stay at the bounds for a list of entries, the last of equal names for a document,
and exact sums for all arithmetic. However a dimension was made, it stores these exponents and
nothing else.

* `canonical_of_made`: what was made has the exponents it should have, stores those that are not
  zero, each base once and in the order of bytes, and is therefore known by its exponents.
-/

namespace Footprint.Dimension

/-! ### What entries add up to -/

/-- The whole number of 32 bits that is nearest to a number. -/
def saturate (i : Int) : Int := max (-2 ^ 31) (min i (2 ^ 31 - 1))

/-- The sum of the entries of a base, in order, staying at the bound that it would pass. -/
def saturatedSum (entries : List (String × Int32)) (base : String) : Int :=
  ((entries.filter fun e => e.1 = base).map (·.2.toInt)).foldl
    (fun sum e => saturate (sum + e)) 0

theorem toInt_clampExponent (i : Int) : (clampExponent i).toInt = saturate i := by
  unfold clampExponent saturate
  split
  case isTrue below =>
    have low : Int32.minValue.toInt = -2 ^ 31 := rfl
    omega
  case isFalse notBelow =>
    split
    case isTrue above =>
      have high : Int32.maxValue.toInt = 2 ^ 31 - 1 := rfl
      omega
    case isFalse notAbove =>
      rw [Int32.toInt_ofInt_of_le (by omega) (by omega)]
      omega

theorem toInt_exponent_ofEntries (entries : List (String × Int32)) (base : String) :
    ((ofEntries entries).exponent base).toInt = saturatedSum entries base := by
  have sum (sum : Int32) (entries : List (String × Int32)) :
      (entries.foldl (fun sum e => clampExponent (sum.toInt + e.2.toInt)) sum).toInt =
        (entries.map (·.2.toInt)).foldl (fun sum e => saturate (sum + e)) sum.toInt := by
    induction entries generalizing sum with
    | nil => rfl
    | cons head rest ih => rw [List.foldl_cons, List.map_cons, List.foldl_cons, ih,
        toInt_clampExponent]
  rw [ofEntries, exponent_foldl_addClamped, sum]
  rfl

theorem exponent_base (name other : String) :
    (base name).exponent other = if other = name then 1 else 0 := by
  rw [base, ofEntries, List.foldl_cons, List.foldl_nil, addClamped, exponent_set]
  rfl

theorem toInt_exponent_base (name other : String) :
    ((base name).exponent other).toInt = if other = name then 1 else 0 := by
  rw [exponent_base]
  split <;> rfl

/-! ### Ways to make a dimension -/

/-- The object with these members. -/
def document (members : List (String × Int32)) : Json :=
  .object (members.map fun e => (e.1, .int e.2.toInt))

/-- The exponent that the last member of a name gives it. -/
def lastExponent (members : List (String × Int32)) (base : String) : Int :=
  ((NameMap.lookupEntry base members.reverse).getD 0).toInt

/-- A dimension was made, and these are the exponents that it should have. -/
inductive Made : Dimension → (String → Int) → Prop where
  | ofEntries (entries : List (String × Int32)) : Made (ofEntries entries) (saturatedSum entries)
  | base (name : String) : Made (base name) fun other => if other = name then 1 else 0
  | currency : Made currency fun other => if other = money then 1 else 0
  | mul {a b d : Dimension} {f g : String → Int} : Made a f → Made b g → a.mul b = .ok d →
      Made d fun base => f base + g base
  | div {a b d : Dimension} {f g : String → Int} : Made a f → Made b g → a.div b = .ok d →
      Made d fun base => f base - g base
  | pow {a d : Dimension} {f : String → Int} {power : Int32} : Made a f → a.pow power = .ok d →
      Made d fun base => power.toInt * f base
  | combine {parts : List (Dimension × (String → Int))} {weights : List Int32} {d : Dimension} :
      (∀ p ∈ parts, Made p.1 p.2) → sumWithWeights? (parts.map (·.1)) weights = .ok d →
      Made d fun base => ((parts.zip weights).map fun t => t.2.toInt * t.1.2 base).sum
  | product {parts : List (Dimension × (String → Int))} {d : Dimension} :
      (∀ p ∈ parts, Made p.1 p.2) → product (parts.map (·.1)) = .ok d →
      Made d fun base => (parts.map fun p => p.2 base).sum
  | read {members : List (String × Int32)} {d : Dimension} : ofJson? (document members) = some d →
      Made d (lastExponent members)

/-- However a dimension was made, it has the exponents that it should have. -/
theorem Made.toInt_exponent {d : Dimension} {exact : String → Int} (made : Made d exact)
    (name : String) : (d.exponent name).toInt = exact name := by
  induction made with
  | ofEntries entries => exact toInt_exponent_ofEntries entries name
  | base other => exact toInt_exponent_base other name
  | currency => exact toInt_exponent_base money name
  | mul _ _ found left right =>
    rw [toInt_exponent_of_weightedSum? found]
    simp [exactSum, left, right]
  | div _ _ found left right =>
    rw [toInt_exponent_of_weightedSum? found]
    simp [exactSum, left, right, Int.sub_eq_add_neg]
  | pow _ found ih =>
    rw [toInt_exponent_of_weightedSum? found]
    simp [exactSum, ih]
  | @combine parts weights d _ found ih =>
    have combines : CombinesTo (parts.map (·.1)) weights (.ok d) :=
      found ▸ combinesTo_sumWithWeights?
    cases combines with
    | exact _ _ value =>
      rw [value, exactSum, List.zip_map_left, List.map_map]
      refine congrArg List.sum (List.map_congr_left fun t mem => ?_)
      exact congrArg (t.2.toInt * ·) (ih t.1 (List.of_mem_zip mem).1)
  | @product parts d _ found ih =>
    rw [toInt_exponent_of_weightedSum? found, exactSum, List.map_map, List.map_map]
    refine congrArg List.sum (List.map_congr_left fun p mem => ?_)
    exact (Int.one_mul _).trans (ih p mem)
  | @read members d found =>
    rw [document, ofJson?_object] at found
    cases found
    rw [exponent_ofEntries_entries, NameMap.get?_ofList]
    rfl

/-! ### The one form -/

/-- A dimension has these exponents, stores nothing else, and is known by them. -/
structure Canonical (d : Dimension) (exact : String → Int) : Prop where
  exponents : ∀ base, (d.exponent base).toInt = exact base
  /-- The entries are the exponents that are not zero. -/
  stored : ∀ base e, (base, e) ∈ d.entries ↔ d.exponent base = e ∧ e ≠ 0
  /-- Each base is stored once, in the order of bytes. -/
  ascending : d.entries.Pairwise fun a b => Text.BytesBefore a.1 b.1
  eq_iff : ∀ other : Dimension, d = other ↔ ∀ base, d.exponent base = other.exponent base
  isOne_iff : d.isOne = true ↔ ∀ base, d.exponent base = 0
  isCurrency_iff : d.isCurrency = true ↔
    d.exponent money = 1 ∧ ∀ base, base ≠ money → d.exponent base = 0
  /-- It is read back from its text. -/
  reread : (Json.read? d.toJson.compact).bind ofJson? = some d

theorem isCurrency_iff {d : Dimension} : d.isCurrency = true ↔
    d.exponent money = 1 ∧ ∀ base, base ≠ money → d.exponent base = 0 := by
  rw [isCurrency, decide_eq_true_iff]
  constructor
  · rintro rfl
    refine ⟨?_, fun other notMoney => ?_⟩
    · rw [currency, exponent_base, if_pos rfl]
    · rw [currency, exponent_base, if_neg notMoney]
  · rintro ⟨ofMoney, others⟩
    apply ext_exponent
    intro other
    rw [currency, exponent_base]
    split
    case isTrue same => rw [same, ofMoney]
    case isFalse notMoney => exact others other notMoney

theorem read?_compact_toJson (d : Dimension) :
    (Json.read? d.toJson.compact).bind ofJson? = some d := by
  have plain : Json.Plain Json.maxLevels d.toJson :=
    Json.plain_iff_written.mpr (d.written_toJson.mono (by decide))
  rw [Json.read?_compact plain]
  exact ofJson?_carried Json.carries_id d

/-- Whatever a dimension was made from, it is the one that has the exponents it should have. -/
theorem canonical_of_made {d : Dimension} {exact : String → Int} (made : Made d exact) :
    d.Canonical exact where
  exponents := made.toInt_exponent
  stored _ _ := mem_entries_iff
  ascending := d.exponents.ascending.imp Text.bytesBefore_iff.mpr
  eq_iff _ := ⟨fun same _ => by rw [same], ext_exponent⟩
  isOne_iff := isOne_iff
  isCurrency_iff := isCurrency_iff
  reread := read?_compact_toJson d

/-- The members of a document with a zero. -/
def readMass : List (String × Int32) := [(mass, Int32.maxValue), (time, 0)]

/-- Entries that stay at the bound for the mass and cancel for the time. -/
def clampedMass : List (String × Int32) :=
  [(mass, Int32.maxValue), (time, 1), (mass, 1), (time, -1)]

/-- What is read and what was clamped are the same mass, and their quotient has no entry left. -/
theorem quotient_canonical :
    Made one (fun base => lastExponent readMass base - saturatedSum clampedMass base) ∧
      one.Canonical (fun base => lastExponent readMass base - saturatedSum clampedMass base) := by
  have read : Made (ofEntries [(mass, Int32.maxValue)]) (lastExponent readMass) := .read rfl
  have quotient : Made one
      (fun base => lastExponent readMass base - saturatedSum clampedMass base) :=
    .div read (.ofEntries clampedMass) rfl
  exact ⟨quotient, canonical_of_made quotient⟩

end Footprint.Dimension
