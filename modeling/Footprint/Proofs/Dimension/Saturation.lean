import Footprint.Proofs.Dimension.Canonical
import Footprint.Proofs.Dimension.Product

/-!
Entries added up in two ways.

`ofEntries` stays at the bound that a sum would pass; the product of the single entries refuses to
pass it. Both take the entries in order, and at a base only its own entries count. While the running
sums are in range the two do the same at every step, so they part only where one leaves the range.

* `product_singles_eq_ok_iff`: the product exists exactly when no running sum leaves the range, and
  is then made of the entries.
* `ofEntries_saturates`: how the two agree, and that a dimension is made of its entries in any
  order.
-/

namespace Footprint.Dimension

variable {entries order : List (String × Int32)} {d : Dimension}

/-! ### The exponents of one base -/

/-- The exponents that some entries have for a base, in order. -/
def exponentsOf (entries : List (String × Int32)) (base : String) : List Int :=
  (entries.filter fun e => e.1 = base).map (·.2.toInt)

/-- The running sums from a start, the start among them, stay in range. -/
def RunsInRange (start : Int) (exponents : List Int) : Prop :=
  ∀ n, ExponentRange (start + (exponents.take n).sum)

theorem runsInRange_nil (d : Dimension) (base : String) :
    RunsInRange (d.exponent base).toInt [] := by
  intro n
  rw [List.take_nil, List.sum_nil, Int.add_zero]
  exact exponentRange_toInt _

theorem runsInRange_cons {start e : Int} {rest : List Int} (inRange : ExponentRange start) :
    RunsInRange start (e :: rest) ↔ RunsInRange (start + e) rest := by
  constructor
  · intro runs n
    have next := runs (n + 1)
    rwa [List.take_succ_cons, List.sum_cons, ← Int.add_assoc] at next
  · intro runs n
    cases n with
    | zero => rwa [List.take_zero, List.sum_nil, Int.add_zero]
    | succ n =>
      rw [List.take_succ_cons, List.sum_cons, ← Int.add_assoc]
      exact runs n

section Cons

variable {name base : String} {e : Int32} {rest : List (String × Int32)}

theorem exponentsOf_cons_self :
    exponentsOf ((name, e) :: rest) name = e.toInt :: exponentsOf rest name := by
  rw [exponentsOf, List.filter_cons_of_pos (by simp), List.map_cons]
  rfl

theorem exponentsOf_cons_of_ne (other : base ≠ name) :
    exponentsOf ((name, e) :: rest) base = exponentsOf rest base := by
  rw [exponentsOf, List.filter_cons_of_neg (by simpa using other.symm)]
  rfl

end Cons

/-! ### One entry -/

theorem exponent_single (name : String) (e : Int32) (base : String) :
    (ofEntries [(name, e)]).exponent base = if base = name then e else 0 := by
  rw [ofEntries, List.foldl_cons, List.foldl_nil, addClamped, exponent_set]
  refine if_congr Iff.rfl ?_ rfl
  show clampExponent (0 + e.toInt) = e
  rw [Int.zero_add, clampExponent_toInt]

theorem toInt_exponent_addClamped (d : Dimension) (name : String) (e : Int32) (base : String) :
    ((d.addClamped name e).exponent base).toInt =
      if base = name then saturate ((d.exponent base).toInt + e.toInt)
      else (d.exponent base).toInt := by
  rw [addClamped, exponent_set]
  split
  case isTrue same => rw [toInt_clampExponent, same]
  case isFalse _ => rfl

theorem saturate_of_range {i : Int} (inRange : ExponentRange i) : saturate i = i := by
  obtain ⟨low, high⟩ := inRange
  unfold saturate
  omega

section Step

variable {name : String} {e : Int32}

/-- What multiplying with a single entry should come to. -/
theorem comesTo_addScaled?_single (d : Dimension) (name : String) (e : Int32) :
    ComesTo (fun base => (d.exponent base).toInt + if base = name then e.toInt else 0)
      (d.addScaled? (ofEntries [(name, e)]) 1) := by
  have multiplied := comesTo_addScaled?_one d (ofEntries [(name, e)])
  have exponents : productExponent d (ofEntries [(name, e)]) =
      fun base => (d.exponent base).toInt + if base = name then e.toInt else 0 := by
    funext base
    rw [productExponent, exponent_single]
    split <;> rfl
  rwa [exponents] at multiplied

/-- Where the sum is in range, refusing and clamping do the same. -/
theorem addScaled?_single_of_range (inRange : ExponentRange ((d.exponent name).toInt + e.toInt)) :
    d.addScaled? (ofEntries [(name, e)]) 1 = .ok (d.addClamped name e) := by
  refine (comesTo_addScaled?_single d name e).eq (comesTo_ok _) fun base => ?_
  rw [toInt_exponent_addClamped]
  split
  case isTrue same => rw [same, saturate_of_range inRange]
  case isFalse _ => rw [Int.add_zero]

theorem addScaled?_single_of_not_range
    (leaves : ¬ ExponentRange ((d.exponent name).toInt + e.toInt)) :
    d.addScaled? (ofEntries [(name, e)]) 1 = .error (.exponentOverflow name) := by
  refine (comesTo_addScaled?_single d name e).eq (.overflow ?_ fun other less => ?_) fun _ => rfl
  · rwa [if_pos rfl]
  · have before : other ≠ name := by
      rintro rfl
      exact String.lt_irrefl other (Text.bytesBefore_iff.mp less)
    rw [if_neg before, Int.add_zero]
    exact exponentRange_toInt _

end Step

/-! ### All entries, side by side -/

/-- The dimensions with one entry each. -/
def singles (entries : List (String × Int32)) : List Dimension := entries.map fun e => ofEntries [e]

theorem product_singles (entries : List (String × Int32)) : product (singles entries) =
    entries.foldlM (fun d e => d.addScaled? (ofEntries [e]) 1) one := by
  rw [product, weightedSum?, singles, List.foldlM_map, List.foldlM_map]

/-- From the same dimension on, refusing succeeds exactly when no running sum leaves the range, and
then it is what clamping makes. -/
theorem foldlM_single_eq_ok_iff (entries : List (String × Int32)) (d r : Dimension) :
    entries.foldlM (fun d e => d.addScaled? (ofEntries [e]) 1) d = .ok r ↔
      (∀ base, RunsInRange (d.exponent base).toInt (exponentsOf entries base)) ∧
        entries.foldl (fun d e => d.addClamped e.1 e.2) d = r := by
  induction entries generalizing d with
  | nil =>
    constructor
    · intro found
      exact ⟨runsInRange_nil d, Except.ok.inj found⟩
    · rintro ⟨-, same⟩
      exact congrArg Except.ok same
  | cons head rest ih =>
    obtain ⟨name, e⟩ := head
    rw [List.foldlM_cons, List.foldl_cons]
    by_cases inRange : ExponentRange ((d.exponent name).toInt + e.toInt)
    · rw [addScaled?_single_of_range inRange]
      refine (ih _).trans (and_congr_left' (forall_congr' fun base => ?_))
      rw [toInt_exponent_addClamped]
      by_cases same : base = name
      · subst same
        rw [if_pos rfl, saturate_of_range inRange, exponentsOf_cons_self,
          runsInRange_cons (exponentRange_toInt _)]
      · rw [if_neg same, exponentsOf_cons_of_ne same]
    · rw [addScaled?_single_of_not_range inRange]
      refine ⟨nofun, fun both => absurd (both.1 name 1) ?_⟩
      rw [exponentsOf_cons_self, List.take_succ_cons, List.take_zero, List.sum_singleton]
      exact inRange

/-- The product of the single entries exists exactly when no running sum leaves the range, and it is
what the entries make. -/
theorem product_singles_eq_ok_iff : product (singles entries) = .ok d ↔
    (∀ base n, ExponentRange ((exponentsOf entries base).take n).sum) ∧ ofEntries entries = d := by
  rw [product_singles, foldlM_single_eq_ok_iff]
  refine and_congr_left' (forall_congr' fun base => forall_congr' fun n => ?_)
  rw [exponent_one]
  show ExponentRange (0 + _) ↔ _
  rw [Int.zero_add]

/-! ### Other orders -/

/-- Two orders of entries that differ only in how entries of different bases are interleaved. -/
def SameAtBases (order entries : List (String × Int32)) : Prop :=
  ∀ base, (order.filter fun e => e.1 = base) = entries.filter fun e => e.1 = base

theorem SameAtBases.ofEntries_eq (same : SameAtBases order entries) :
    ofEntries order = ofEntries entries := by
  apply ext_exponent
  intro base
  rw [ofEntries, ofEntries, exponent_foldl_addClamped, exponent_foldl_addClamped, same base]

theorem SameAtBases.product_iff (same : SameAtBases order entries) :
    product (singles order) = .ok d ↔ product (singles entries) = .ok d := by
  have exponents (base : String) : exponentsOf order base = exponentsOf entries base := by
    rw [exponentsOf, same base]
    rfl
  simp only [product_singles_eq_ok_iff, exponents, same.ofEntries_eq]

/-- A dimension has at most one entry for a base, so no order of its entries matters. -/
theorem sameAtBases_of_perm (same : order.Perm d.entries) : SameAtBases order d.entries := by
  intro base
  have atBase := same.filter fun e => e.1 = base
  rw [entries, filter_name_of_ascending d.exponents.ascending] at atBase ⊢
  cases stored : NameMap.lookupEntry base d.exponents.entries with
  | none =>
    rw [stored] at atBase
    exact List.perm_nil.mp atBase
  | some e =>
    rw [stored] at atBase
    exact List.perm_singleton.mp atBase

/-! ### Clamping and refusing -/

/-- How entries that stay at the bounds agree with entries that refuse to pass them. -/
structure Saturates (entries : List (String × Int32)) : Prop where
  /-- Refusing succeeds where the running sums of every base stay in range. -/
  succeeds : (∃ d, product (singles entries) = .ok d) ↔
    ∀ base n, ExponentRange ((exponentsOf entries base).take n).sum
  /-- Then both make the same, however the entries of different bases are interleaved. -/
  agrees : ∀ d, product (singles entries) = .ok d → ∀ order, SameAtBases order entries →
    ofEntries order = d ∧ product (singles order) = .ok d
  /-- In every case an exponent is the sum of its entries, clamped at each step. -/
  clamped : ∀ base, ((ofEntries entries).exponent base).toInt = saturatedSum entries base

/-- Entries that stay at the bounds agree with the product of the single entries wherever there is
one, and a dimension is made of its own entries in any order. -/
theorem ofEntries_saturates : (∀ entries, Saturates entries) ∧
    ∀ (d : Dimension) order, order.Perm d.entries → ofEntries order = d := by
  refine ⟨fun entries => ⟨?_, ?_, toInt_exponent_ofEntries entries⟩, ?_⟩
  · simp only [product_singles_eq_ok_iff, exists_and_left, exists_eq', and_true]
  · intro d found order same
    refine ⟨?_, same.product_iff.mpr found⟩
    rw [same.ofEntries_eq]
    exact (product_singles_eq_ok_iff.mp found).2
  · intro d order same
    rw [(sameAtBases_of_perm same).ofEntries_eq, ofEntries_entries]

/-- A sum that stays at the bound can come back from there; the product of its entries fails. -/
example :
    ofEntries [(mass, Int32.maxValue), (mass, 1), (mass, -1)] =
        ofEntries [(mass, Int32.maxValue - 1)] ∧
      product (singles [(mass, Int32.maxValue), (mass, 1), (mass, -1)]) =
        .error (.exponentOverflow mass) :=
  ⟨rfl, rfl⟩

end Footprint.Dimension
