import Footprint.Proofs.Dimension.Product
import Mathlib.Algebra.BigOperators.Group.List.Basic

/-!
Sums of weighted dimensions in another order.

A running sum can leave the range in one order of the terms and stay in it in another, so whether a
sum succeeds depends on the order, but what it comes to does not. The orders share two bounds: at
every base a running sum lies between the sum of all negative shares and that of all positive ones,
and both of these are running sums of some order.

* `exists_combined_of_perm_iff`: a sum succeeds in every order exactly when both bounds are in
  range.
* `combined_orderFree`: what holds of the sums in all orders, and of the two orders of a product.
-/

namespace Footprint.Dimension

variable {terms order : List (Dimension × Int32)} {t : Dimension × Int32} {base : String}

/-- The sum of terms, handed over as their dimensions and their weights. -/
def combined (terms : List (Dimension × Int32)) : Except Error Dimension :=
  sumWithWeights? (terms.map (·.1)) (terms.map (·.2))

theorem combined_eq (terms : List (Dimension × Int32)) : combined terms = weightedSum? terms := by
  rw [combined, sumWithWeights?, if_pos (by rw [List.length_map, List.length_map]), List.zip_map',
    List.map_id']

/-! ### Shares of the terms -/

/-- What a term adds to the exponent of a base. -/
def share (t : Dimension × Int32) (base : String) : Int := t.2.toInt * (t.1.exponent base).toInt

/-- The positive shares of a base, added up. -/
def gains (terms : List (Dimension × Int32)) (base : String) : Int :=
  (terms.map fun t => max 0 (share t base)).sum

/-- The negative shares of a base, added up. -/
def losses (terms : List (Dimension × Int32)) (base : String) : Int :=
  (terms.map fun t => min 0 (share t base)).sum

/-- The sizes of the shares of a base, added up. -/
def totalSize (terms : List (Dimension × Int32)) (base : String) : Int :=
  (terms.map fun t => ((share t base).natAbs : Int)).sum

theorem exactSum_eq (terms : List (Dimension × Int32)) (base : String) :
    exactSum terms base = (terms.map fun t => share t base).sum := rfl

section Perm

variable (same : order.Perm terms)
include same

theorem exactSum_perm (base : String) : exactSum order base = exactSum terms base :=
  (same.map _).sum_eq

theorem gains_perm (base : String) : gains order base = gains terms base :=
  (same.map _).sum_eq

theorem losses_perm (base : String) : losses order base = losses terms base :=
  (same.map _).sum_eq

end Perm

theorem losses_nonpos (terms : List (Dimension × Int32)) (base : String) :
    losses terms base ≤ 0 := by
  induction terms with
  | nil => exact Int.le_refl 0
  | cons t rest ih =>
    simp only [losses, List.map_cons, List.sum_cons] at ih ⊢
    omega

theorem gains_nonneg (terms : List (Dimension × Int32)) (base : String) :
    0 ≤ gains terms base := by
  induction terms with
  | nil => exact Int.le_refl 0
  | cons t rest ih =>
    simp only [gains, List.map_cons, List.sum_cons] at ih ⊢
    omega

/-- A running sum lies between the losses and the gains of the whole. -/
theorem running_bounds (front back : List (Dimension × Int32)) (base : String) :
    losses (front ++ back) base ≤ exactSum front base ∧
      exactSum front base ≤ gains (front ++ back) base := by
  induction front with
  | nil => exact ⟨losses_nonpos back base, gains_nonneg back base⟩
  | cons t rest ih =>
    simp only [losses, gains, exactSum_eq, List.cons_append, List.map_cons, List.sum_cons] at ih ⊢
    omega

/-- So does the share of a single term, which is the running sum of an order that begins with it. -/
theorem share_bounds (mem : t ∈ terms) (base : String) :
    losses terms base ≤ share t base ∧ share t base ≤ gains terms base := by
  obtain ⟨front, back, rfl⟩ := List.append_of_mem mem
  have moved : (t :: (front ++ back)).Perm (front ++ t :: back) := List.perm_middle.symm
  have first := running_bounds [t] (front ++ back) base
  have alone : exactSum [t] base = share t base := Int.add_zero _
  rwa [List.singleton_append, alone, losses_perm moved, gains_perm moved] at first

/-- The terms that pass a test, as shares of all terms. -/
theorem exactSum_filter (test : Dimension × Int32 → Bool) (base : String) :
    exactSum (terms.filter test) base =
      (terms.map fun t => if test t then share t base else 0).sum := by
  induction terms with
  | nil => rfl
  | cons t rest ih =>
    rw [exactSum_eq] at ih ⊢
    by_cases passes : test t = true
    · rw [List.filter_cons_of_pos passes, List.map_cons, List.map_cons, List.sum_cons,
        List.sum_cons, ih, if_pos passes]
    · rw [List.filter_cons_of_neg passes, List.map_cons, List.sum_cons, ih, if_neg passes,
        Int.zero_add]

theorem exactSum_filter_pos (terms : List (Dimension × Int32)) (base : String) :
    exactSum (terms.filter fun t => 0 < share t base) base = gains terms base := by
  rw [exactSum_filter]
  refine congrArg List.sum (List.map_congr_left fun t _ => ?_)
  simp only [decide_eq_true_eq]
  omega

theorem exactSum_filter_neg (terms : List (Dimension × Int32)) (base : String) :
    exactSum (terms.filter fun t => share t base < 0) base = losses terms base := by
  rw [exactSum_filter]
  refine congrArg List.sum (List.map_congr_left fun t _ => ?_)
  simp only [decide_eq_true_eq]
  omega

/-! ### Success in every order -/

/-- Where a sum succeeds, so do the sums of the terms it begins with. -/
theorem exponentRange_of_prefix {front back : List (Dimension × Int32)} {d : Dimension}
    (found : weightedSum? (front ++ back) = .ok d) (base : String) :
    ExponentRange (exactSum front base) := by
  rw [weightedSum?, List.foldlM_append, ← weightedSum?] at found
  cases first : weightedSum? front with
  | error e =>
    rw [first] at found
    cases found
  | ok c =>
    rw [← toInt_exponent_of_weightedSum? first]
    exact exponentRange_toInt _

/-- The terms that pass a test can come first. -/
theorem exponentRange_exactSum_filter
    (succeeds : ∀ order : List (Dimension × Int32), order.Perm terms → ∃ d, combined order = .ok d)
    (test : Dimension × Int32 → Bool) (base : String) :
    ExponentRange (exactSum (terms.filter test) base) := by
  obtain ⟨d, found⟩ := succeeds _ (List.filter_append_perm test terms)
  rw [combined_eq] at found
  exact exponentRange_of_prefix found base

theorem exists_combined_of_bounds
    (bounds : ∀ base, ExponentRange (losses terms base) ∧ ExponentRange (gains terms base)) :
    ∃ d, combined terms = .ok d := by
  simp only [combined_eq]
  refine exists_weightedSum?_iff.mpr fun position base t found => ?_
  obtain ⟨least, greatest⟩ := bounds base
  have alone := share_bounds (List.mem_of_getElem? found) base
  have running := running_bounds (terms.take (position + 1)) (terms.drop (position + 1)) base
  rw [List.take_append_drop] at running
  exact ⟨least.between greatest alone.1 alone.2, least.between greatest running.1 running.2⟩

/-- A sum succeeds in every order exactly when, at every base, all losses together are in range and
so are all gains. -/
theorem exists_combined_of_perm_iff :
    (∀ order : List (Dimension × Int32), order.Perm terms → ∃ d, combined order = .ok d) ↔
      ∀ base, ExponentRange (losses terms base) ∧ ExponentRange (gains terms base) := by
  constructor
  · intro succeeds base
    rw [← exactSum_filter_neg, ← exactSum_filter_pos]
    exact ⟨exponentRange_exactSum_filter succeeds _ base,
      exponentRange_exactSum_filter succeeds _ base⟩
  · intro bounds order same
    refine exists_combined_of_bounds fun base => ?_
    rw [losses_perm same, gains_perm same]
    exact bounds base

/-- Neither the gains nor the losses are larger than all shares together. -/
theorem bounds_of_totalSize (terms : List (Dimension × Int32)) (base : String) :
    -totalSize terms base ≤ losses terms base ∧ gains terms base ≤ totalSize terms base := by
  induction terms with
  | nil => exact ⟨Int.le_refl 0, Int.le_refl 0⟩
  | cons t rest ih =>
    simp only [losses, gains, totalSize, List.map_cons, List.sum_cons] at ih ⊢
    omega

/-! ### What does not depend on the order -/

/-- Two orders that succeed come to the same. -/
theorem eq_of_combined_perm (same : order.Perm terms) {c d : Dimension}
    (found : combined terms = .ok c) (foundOrder : combined order = .ok d) : c = d := by
  rw [combined_eq] at found foundOrder
  apply ext_exponent
  intro base
  apply Int32.toInt_inj.mp
  rw [toInt_exponent_of_weightedSum? found, toInt_exponent_of_weightedSum? foundOrder,
    exactSum_perm same]

/-- Where the sizes of the shares add up to at most the greatest exponent, every order succeeds. -/
theorem exists_combined_of_totalSize
    (small : ∀ base, totalSize terms base ≤ Int32.maxValue.toInt) (same : order.Perm terms) :
    ∃ d, combined order = .ok d := by
  refine exists_combined_of_perm_iff.mpr (fun base => ?_) order same
  have greatest : Int32.maxValue.toInt = 2 ^ 31 - 1 := rfl
  have size := small base
  obtain ⟨low, high⟩ := bounds_of_totalSize terms base
  have nonpos := losses_nonpos terms base
  have nonneg := gains_nonneg terms base
  exact ⟨⟨by omega, by omega⟩, ⟨by omega, by omega⟩⟩

/-- What the sums of these terms have in common, in whatever order they are taken. -/
structure OrderFree (terms : List (Dimension × Int32)) : Prop where
  agrees : ∀ order : List (Dimension × Int32), order.Perm terms → ∀ c d,
    combined terms = .ok c → combined order = .ok d → c = d
  succeeds : (∀ base, totalSize terms base ≤ Int32.maxValue.toInt) →
    ∀ order : List (Dimension × Int32), order.Perm terms → ∃ d, combined order = .ok d

/-- The order of the terms does not change what a sum comes to, and where all shares together are
small enough not whether it succeeds; the order of two factors changes nothing at all. -/
theorem combined_orderFree :
    (∀ terms, OrderFree terms) ∧ ∀ a b : Dimension, a.mul b = b.mul a := by
  refine ⟨fun terms => ⟨?_, ?_⟩, fun a b => ?_⟩
  · intro order same c d found foundOrder
    exact eq_of_combined_perm same found foundOrder
  · intro small order same
    exact exists_combined_of_totalSize small same
  · exact (comesTo_mul a b).eq (comesTo_mul b a) fun _ => Int.add_comm _ _

/-- One more than the greatest exponent is out of range, unless one is taken away before. -/
example :
    combined [(currency, Int32.maxValue), (currency, 1), (currency, -1)] =
        .error (.exponentOverflow money) ∧
      combined [(currency, Int32.maxValue), (currency, -1), (currency, 1)] =
        .ok (ofEntries [(money, Int32.maxValue)]) :=
  ⟨rfl, rfl⟩

end Footprint.Dimension
