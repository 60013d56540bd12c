import Footprint.Proofs.Dimension.Sum

/-!
Sums with one weight for each dimension.

A dimension adds nothing at a base that it does not store, so only stored bases can leave the range:
at any other base the running sum is that of an earlier position.

* `sumWithWeights?_eq_iff`: a sum fails for lists of different lengths; otherwise it has the exact
  exponents and stores no others, or fails at the first stored base that does not fit.
-/

namespace Footprint.Dimension

/-! ### Stored bases -/

/-- The dimension has an entry for the base. -/
def Stores (d : Dimension) (base : String) : Prop := ∃ e, (base, e) ∈ d.entries

theorem mem_entries_iff {d : Dimension} {base : String} {e : Int32} :
    (base, e) ∈ d.entries ↔ d.exponent base = e ∧ e ≠ 0 := by
  rw [entries, ← NameMap.get?_eq_some_iff, get?_eq_some_iff]

theorem stores_iff {d : Dimension} {base : String} : d.Stores base ↔ d.exponent base ≠ 0 := by
  constructor
  · rintro ⟨e, mem⟩
    obtain ⟨same, notZero⟩ := mem_entries_iff.mp mem
    rwa [same]
  · intro notZero
    exact ⟨d.exponent base, mem_entries_iff.mpr ⟨rfl, notZero⟩⟩

theorem exponent_eq_zero_of_not_stores {d : Dimension} {base : String} (missing : ¬ d.Stores base) :
    d.exponent base = 0 := by
  rwa [stores_iff, not_not] at missing

/-! ### Where a sum can leave the range -/

section Terms

variable {terms : List (Dimension × Int32)} {position : Nat} {base : String}

/-- Where a term adds nothing, it fits because the terms before it do. -/
theorem fitsAt_of_earlier
    (nothing : ∀ t, terms[position]? = some t → t.1.exponent base = 0)
    (earlier : ∀ i < position, FitsAt terms i base) : FitsAt terms position base := by
  intro t found
  have zero : t.2.toInt * (t.1.exponent base).toInt = 0 := by
    rw [nothing t found]
    exact Int.mul_zero _
  refine ⟨zero ▸ exponentRange_zero, ?_⟩
  rw [List.take_add_one, found, Option.toList_some, exactSum_concat, zero, Int.add_zero]
  cases position with
  | zero => exact exponentRange_zero
  | succ before =>
    have inside := (List.getElem?_eq_some_iff.mp found).1
    have last : terms[before]? = some terms[before] := List.getElem?_eq_getElem (by omega)
    exact (earlier before (Nat.lt_succ_self before) _ last).2

/-- A base fits at a position when it fits at those up to there whose terms store it. -/
theorem fitsAt_of_stored (stored : ∀ i ≤ position, ∀ t, terms[i]? = some t → t.1.Stores base →
    FitsAt terms i base) : FitsAt terms position base := by
  induction position using Nat.strongRecOn with
  | ind position ih =>
    have earlier : ∀ i < position, FitsAt terms i base := by
      intro i less
      exact ih i less fun j upTo => stored j (by omega)
    by_cases here : ∃ t, terms[position]? = some t ∧ t.1.Stores base
    · obtain ⟨t, found, stores⟩ := here
      exact stored position (Nat.le_refl _) t found stores
    · refine fitsAt_of_earlier (fun t found => ?_) earlier
      exact exponent_eq_zero_of_not_stores fun stores => here ⟨t, found, stores⟩

end Terms

/-! ### Sums with weights -/

section Weights

variable {dims : List Dimension} {weights : List Int32} {position : Nat} {base : String}

/-- The dimension at a position stores the base. -/
def StoredAt (dims : List Dimension) (position : Nat) (base : String) : Prop :=
  ∃ d, dims[position]? = some d ∧ d.Stores base

/-- The first place, by position and then by base in the order of bytes, at which a stored base does
not fit. -/
structure FirstLost (dims : List Dimension) (weights : List Int32) (position : Nat)
    (base : String) : Prop where
  stored : StoredAt dims position base
  leaves : ¬ FitsAt (dims.zip weights) position base
  earlier : ∀ i < position, ∀ other, StoredAt dims i other → FitsAt (dims.zip weights) i other
  before : ∀ other, Text.BytesBefore other base → StoredAt dims position other →
    FitsAt (dims.zip weights) position other

/-- What a sum with one weight for each dimension comes to. -/
inductive CombinesTo (dims : List Dimension) (weights : List Int32) :
    Except Error Dimension → Prop where
  | mismatch : dims.length ≠ weights.length →
      CombinesTo dims weights (.error (.weightCountMismatch dims.length weights.length))
  | exact {d : Dimension} : dims.length = weights.length →
      (∀ i base, StoredAt dims i base → FitsAt (dims.zip weights) i base) →
      (∀ base, (d.exponent base).toInt = exactSum (dims.zip weights) base) →
      (∀ base, d.Stores base ↔ exactSum (dims.zip weights) base ≠ 0) →
      CombinesTo dims weights (.ok d)
  | overflow {position : Nat} {base : String} : dims.length = weights.length →
      FirstLost dims weights position base →
      CombinesTo dims weights (.error (.exponentOverflow base))

theorem storedAt_of_zip {t : Dimension × Int32}
    (found : (dims.zip weights)[position]? = some t) (stores : t.1.Stores base) :
    StoredAt dims position base :=
  ⟨t.1, (List.getElem?_zip_eq_some.mp found).1, stores⟩

/-- A base fits at a position when it fits at those up to there that store it. -/
theorem fitsAt_of_storedAt
    (stored : ∀ i ≤ position, StoredAt dims i base → FitsAt (dims.zip weights) i base) :
    FitsAt (dims.zip weights) position base :=
  fitsAt_of_stored fun i upTo _ found stores => stored i upTo (storedAt_of_zip found stores)

/-- The first stored base that does not fit is the first of all bases. -/
theorem firstLost_iff :
    FirstLost dims weights position base ↔ FirstOverflow (dims.zip weights) position base := by
  constructor
  · intro first
    have earlier : ∀ i < position, ∀ other, FitsAt (dims.zip weights) i other := by
      intro i less other
      exact fitsAt_of_storedAt fun j upTo => first.earlier j (by omega) other
    refine ⟨first.leaves, earlier, fun other less => ?_⟩
    apply fitsAt_of_storedAt
    intro i upTo stored
    rcases Nat.lt_or_eq_of_le upTo with less | rfl
    · exact earlier i less other
    · exact first.before other less stored
  · intro first
    refine ⟨?_, first.leaves, fun i less other _ => first.earlier i less other,
      fun other less _ => first.before other less⟩
    apply Classical.byContradiction
    intro missing
    refine first.leaves (fitsAt_of_earlier (fun t found => ?_) fun i less => ?_)
    · exact exponent_eq_zero_of_not_stores fun stores => missing (storedAt_of_zip found stores)
    · exact first.earlier i less base

/-- The exponents of a dimension say what it stores. -/
theorem stores_iff_of_exponent {d : Dimension} {i : Int} (value : (d.exponent base).toInt = i) :
    d.Stores base ↔ i ≠ 0 := by
  rw [stores_iff, ← value, ne_eq, ne_eq, ← Int32.toInt_inj]
  rfl

theorem CombinesTo.of_sumsTo {sum : Except Error Dimension} (even : dims.length = weights.length)
    (sums : SumsTo (dims.zip weights) sum) : CombinesTo dims weights sum := by
  cases sums with
  | exact fits value =>
    exact .exact even (fun i base _ => fits i base) value
      fun base => stores_iff_of_exponent (value base)
  | overflow first => exact .overflow even (firstLost_iff.mpr first)

/-- A sum with one weight for each dimension is what it should be. -/
theorem combinesTo_sumWithWeights? : CombinesTo dims weights (sumWithWeights? dims weights) := by
  unfold sumWithWeights?
  split
  case isTrue even => exact .of_sumsTo even (sumsTo_weightedSum? _)
  case isFalse uneven => exact .mismatch uneven

/-- And it is nothing else. -/
theorem sumWithWeights?_eq_iff {result : Except Error Dimension} :
    sumWithWeights? dims weights = result ↔ CombinesTo dims weights result := by
  constructor
  · rintro rfl
    exact combinesTo_sumWithWeights?
  · intro combines
    unfold sumWithWeights?
    cases combines with
    | mismatch uneven => rw [if_neg uneven]
    | exact even fits value =>
      have everywhere : ∀ i base, FitsAt (dims.zip weights) i base :=
        fun i base => fitsAt_of_storedAt fun j _ => fits j base
      rw [if_pos even]
      exact (sumsTo_weightedSum? _).unique (.exact everywhere value)
    | overflow even first =>
      rw [if_pos even]
      exact (sumsTo_weightedSum? _).unique (.overflow (firstLost_iff.mp first))

/-- The least exponent has no opposite, so to take it away leaves the range. -/
example : sumWithWeights? [ofEntries [(mass, Int32.minValue)]] [-1] =
    .error (.exponentOverflow mass) := by
  rfl

end Weights

end Footprint.Dimension
