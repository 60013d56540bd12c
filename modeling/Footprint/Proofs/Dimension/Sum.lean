import Footprint.Dimension.Basic
import Footprint.Proofs.Text.ByteOrder
import Mathlib.Algebra.Ring.Int.Defs
import Mathlib.Data.List.Induction

/-!
Sums of weighted dimensions, exactly.

A sum is taken term by term and, within a term, base by base. Its meaning is the sum of whole
numbers at every base; `FirstOverflow` is the first place at which a term or a running sum leaves
the exponents of 32 bits.

* `sumsTo_weightedSum?`: a sum has the exact exponents, or fails with the base of the first
  overflow.
* `SumsTo.unique`: nothing else is such a sum, so `SumsTo` says all about `weightedSum?`.
-/

namespace Footprint

/-- The whole numbers that an exponent can be. -/
def ExponentRange (i : Int) : Prop := -2 ^ 31 ≤ i ∧ i < 2 ^ 31

instance (i : Int) : Decidable (ExponentRange i) := inferInstanceAs (Decidable (_ ∧ _))

theorem exponentRange_toInt (e : Int32) : ExponentRange e.toInt :=
  ⟨Int32.le_toInt e, Int32.toInt_lt e⟩

theorem exponentRange_zero : ExponentRange 0 := by decide

theorem ExponentRange.between {low i high : Int} (atLow : ExponentRange low)
    (atHigh : ExponentRange high) (above : low ≤ i) (below : i ≤ high) : ExponentRange i :=
  ⟨Int.le_trans atLow.1 above, Int.lt_of_le_of_lt below atHigh.2⟩

theorem fitExponent?_of_range {i : Int} (inRange : ExponentRange i) :
    ∃ e, fitExponent? i = some e ∧ e.toInt = i :=
  ⟨Int32.ofInt i, if_pos inRange, Int32.toInt_ofInt_of_le inRange.1 inRange.2⟩

theorem fitExponent?_of_not_range {i : Int} (outside : ¬ ExponentRange i) :
    fitExponent? i = none :=
  if_neg outside

namespace Dimension

/-! ### One term -/

/-- Adding `weight * e` to the exponent of `base` stays in range, as does `weight * e`. -/
def CanAdd (d : Dimension) (base : String) (weight e : Int32) : Prop :=
  ExponentRange (weight.toInt * e.toInt) ∧
    ExponentRange ((d.exponent base).toInt + weight.toInt * e.toInt)

theorem canAdd_zero (d : Dimension) (base : String) (weight : Int32) : d.CanAdd base weight 0 := by
  have nothing : weight.toInt * (0 : Int32).toInt = 0 := Int.mul_zero _
  refine ⟨nothing ▸ exponentRange_zero, ?_⟩
  rw [nothing, Int.add_zero]
  exact exponentRange_toInt _

theorem addTerm?_of_canAdd {d : Dimension} {base : String} {weight e : Int32}
    (fits : d.CanAdd base weight e) :
    ∃ sum, d.addTerm? base weight e = .ok (d.set base sum) ∧
      sum.toInt = (d.exponent base).toInt + weight.toInt * e.toInt := by
  obtain ⟨term, found, termValue⟩ := fitExponent?_of_range fits.1
  obtain ⟨sum, sumFound, sumValue⟩ := fitExponent?_of_range fits.2
  refine ⟨sum, ?_, sumValue⟩
  simp only [addTerm?, found, Option.bind_some, termValue, sumFound]

theorem addTerm?_of_not_canAdd {d : Dimension} {base : String} {weight e : Int32}
    (overflows : ¬ d.CanAdd base weight e) :
    d.addTerm? base weight e = .error (.exponentOverflow base) := by
  by_cases termFits : ExponentRange (weight.toInt * e.toInt)
  · obtain ⟨term, found, termValue⟩ := fitExponent?_of_range termFits
    have sumLost : fitExponent? ((d.exponent base).toInt + weight.toInt * e.toInt) = none :=
      fitExponent?_of_not_range fun sumFits => overflows ⟨termFits, sumFits⟩
    simp only [addTerm?, found, Option.bind_some, termValue, sumLost]
  · simp only [addTerm?, fitExponent?_of_not_range termFits, Option.bind_none]

/-! ### The entries of one term, in order -/

/-- What adding a weighted term with the exponents `term` comes to: the exact exponents, or the
first base at which they do not fit. -/
inductive AddsTo (d : Dimension) (weight : Int32) (term : String → Int32) :
    Except Error Dimension → Prop where
  | exact {r : Dimension} : (∀ base, d.CanAdd base weight (term base)) →
      (∀ base, (r.exponent base).toInt =
        (d.exponent base).toInt + weight.toInt * (term base).toInt) →
      AddsTo d weight term (.ok r)
  | overflow {base : String} : ¬ d.CanAdd base weight (term base) →
      (∀ before < base, d.CanAdd before weight (term before)) →
      AddsTo d weight term (.error (.exponentOverflow base))

/-- The exponent that a list of entries gives a base. -/
def entryExponent (entries : List (String × Int32)) (base : String) : Int32 :=
  (NameMap.lookupEntry base entries).getD 0

section Entries

variable {name base : String} {e : Int32} {rest : List (String × Int32)}

theorem entryExponent_cons_self : entryExponent ((name, e) :: rest) name = e := by
  simp [entryExponent, NameMap.lookupEntry]

theorem entryExponent_cons_of_ne (other : base ≠ name) :
    entryExponent ((name, e) :: rest) base = entryExponent rest base := by
  simp [entryExponent, NameMap.lookupEntry, other]

/-- Entries that all come after `name` give nothing to `name` and to what is before it. -/
theorem entryExponent_of_not_lt (after : ∀ entry ∈ rest, name < entry.1)
    (notAfter : ¬ name < base) : entryExponent rest base = 0 := by
  have none : NameMap.lookupEntry base rest = none :=
    NameMap.lookupEntry_eq_none fun entry mem same => notAfter (same ▸ after entry mem)
  rw [entryExponent, none]
  rfl

theorem AddsTo.cons {d : Dimension} {weight sum : Int32} {result : Except Error Dimension}
    (after : ∀ entry ∈ rest, name < entry.1) (fits : d.CanAdd name weight e)
    (value : sum.toInt = (d.exponent name).toInt + weight.toInt * e.toInt)
    (adds : AddsTo (d.set name sum) weight (entryExponent rest) result) :
    AddsTo d weight (entryExponent ((name, e) :: rest)) result := by
  have others : ∀ base, base ≠ name → (d.set name sum).exponent base = d.exponent base := by
    intro base other
    rw [exponent_set, if_neg other]
  have canAdd : ∀ base, ((d.set name sum).CanAdd base weight (entryExponent rest base)) →
      d.CanAdd base weight (entryExponent ((name, e) :: rest) base) := by
    intro base addable
    by_cases same : base = name
    · rw [same, entryExponent_cons_self]
      exact fits
    · rw [entryExponent_cons_of_ne same]
      simpa only [CanAdd, others base same] using addable
  cases adds with
  | exact addable exponents =>
    refine .exact (fun base => canAdd base (addable base)) ?_
    intro base
    rw [exponents base]
    by_cases same : base = name
    · rw [same, entryExponent_cons_self, exponent_set, if_pos rfl, value,
        entryExponent_of_not_lt after (String.lt_irrefl name)]
      show _ + weight.toInt * 0 = _
      rw [Int.mul_zero, Int.add_zero]
    · rw [entryExponent_cons_of_ne same, others base same]
  | @overflow lostAt lost before =>
    refine .overflow ?_ fun earlier less => canAdd earlier (before earlier less)
    -- The rest only stores names after `name`, so the overflow is at one of those.
    have notSame : lostAt ≠ name := by
      rintro rfl
      rw [entryExponent_of_not_lt after (String.lt_irrefl lostAt)] at lost
      exact lost (canAdd_zero _ _ _)
    rw [entryExponent_cons_of_ne notSame]
    simpa only [CanAdd, others lostAt notSame] using lost

end Entries

/-- Adding the entries of a list in ascending order. -/
theorem addsTo_entries (weight : Int32) (entries : List (String × Int32)) (d : Dimension)
    (ascending : entries.Pairwise fun a b => a.1 < b.1) :
    AddsTo d weight (entryExponent entries)
      (entries.foldlM (fun d e => d.addTerm? e.1 weight e.2) d) := by
  induction entries generalizing d with
  | nil =>
    refine .exact (fun base => d.canAdd_zero base weight) ?_
    intro base
    show _ = _ + weight.toInt * 0
    rw [Int.mul_zero, Int.add_zero]
  | cons head rest ih =>
    obtain ⟨name, e⟩ := head
    obtain ⟨after, tail⟩ := List.pairwise_cons.mp ascending
    rw [List.foldlM_cons]
    by_cases fits : d.CanAdd name weight e
    · obtain ⟨sum, added, value⟩ := addTerm?_of_canAdd fits
      rw [added]
      exact (ih (d.set name sum) tail).cons after fits value
    · rw [addTerm?_of_not_canAdd fits]
      refine .overflow (by rwa [entryExponent_cons_self]) ?_
      intro other less
      have notSame : other ≠ name := fun same => String.lt_irrefl name (same ▸ less)
      rw [entryExponent_cons_of_ne notSame,
        entryExponent_of_not_lt after (String.lt_asymm less)]
      exact canAdd_zero _ _ _

/-- Adding a weighted dimension. -/
theorem addsTo_addScaled? (d other : Dimension) (weight : Int32) :
    AddsTo d weight other.exponent (d.addScaled? other weight) :=
  addsTo_entries weight other.entries d other.exponents.ascending

/-! ### Whole sums -/

/-- The exact exponent of a base in a sum of weighted dimensions. -/
def exactSum (terms : List (Dimension × Int32)) (base : String) : Int :=
  (terms.map fun t => t.2.toInt * (t.1.exponent base).toInt).sum

/-- The term at a position fits at `base`, and so does the running sum with it. Past the end there
is nothing that could fail to fit. -/
def FitsAt (terms : List (Dimension × Int32)) (position : Nat) (base : String) : Prop :=
  ∀ t, terms[position]? = some t → ExponentRange (t.2.toInt * (t.1.exponent base).toInt) ∧
    ExponentRange (exactSum (terms.take (position + 1)) base)

/-- The first place, by position and then by base in the order of bytes, at which a sum does not
fit. -/
structure FirstOverflow (terms : List (Dimension × Int32)) (position : Nat) (base : String) :
    Prop where
  leaves : ¬ FitsAt terms position base
  earlier : ∀ i < position, ∀ other, FitsAt terms i other
  before : ∀ other, Text.BytesBefore other base → FitsAt terms position other

/-- What a sum of weighted dimensions comes to. -/
inductive SumsTo (terms : List (Dimension × Int32)) : Except Error Dimension → Prop where
  | exact {d : Dimension} : (∀ position base, FitsAt terms position base) →
      (∀ base, (d.exponent base).toInt = exactSum terms base) → SumsTo terms (.ok d)
  | overflow {position : Nat} {base : String} : FirstOverflow terms position base →
      SumsTo terms (.error (.exponentOverflow base))

theorem FirstOverflow.unique {terms : List (Dimension × Int32)} {i j : Nat} {a b : String}
    (h : FirstOverflow terms i a) (h' : FirstOverflow terms j b) : i = j ∧ a = b := by
  have samePosition : i = j := by
    rcases Nat.lt_trichotomy i j with less | same | more
    · exact absurd (h'.earlier i less a) h.leaves
    · exact same
    · exact absurd (h.earlier j more b) h'.leaves
  subst samePosition
  exact ⟨rfl, Text.eq_of_first h.leaves h.before h'.leaves h'.before⟩

theorem SumsTo.unique {terms : List (Dimension × Int32)} {a b : Except Error Dimension}
    (ha : SumsTo terms a) (hb : SumsTo terms b) : a = b := by
  cases ha with
  | exact fits value =>
    cases hb with
    | exact _ value' =>
      exact congrArg Except.ok
        (ext_exponent fun base => Int32.toInt_inj.mp ((value base).trans (value' base).symm))
    | overflow first => exact absurd (fits _ _) first.leaves
  | overflow first =>
    cases hb with
    | exact fits _ => exact absurd (fits _ _) first.leaves
    | overflow first' => rw [(first.unique first').2]

theorem exactSum_concat (terms : List (Dimension × Int32)) (t : Dimension × Int32)
    (base : String) :
    exactSum (terms ++ [t]) base = exactSum terms base + t.2.toInt * (t.1.exponent base).toInt := by
  simp [exactSum]

/-- A further term changes nothing at the positions before it. -/
theorem fitsAt_concat_of_lt {terms : List (Dimension × Int32)} {t : Dimension × Int32}
    {position : Nat} (inside : position < terms.length) (base : String) :
    FitsAt (terms ++ [t]) position base ↔ FitsAt terms position base := by
  unfold FitsAt
  rw [List.getElem?_append_left inside, List.take_append_of_le_length inside]

theorem fitsAt_of_length_le {terms : List (Dimension × Int32)} {position : Nat}
    (outside : terms.length ≤ position) (base : String) : FitsAt terms position base := by
  intro t found
  rw [List.getElem?_eq_none outside] at found
  cases found

/-- The last term fits when it can be added to the sum of the others. -/
theorem fitsAt_concat_last {terms : List (Dimension × Int32)} {t : Dimension × Int32}
    {d : Dimension} {base : String} (value : (d.exponent base).toInt = exactSum terms base) :
    FitsAt (terms ++ [t]) terms.length base ↔ d.CanAdd base t.2 (t.1.exponent base) := by
  unfold FitsAt CanAdd
  rw [List.getElem?_concat_length, List.take_of_length_le (by simp), exactSum_concat, value]
  constructor
  · intro h
    exact h t rfl
  · rintro h _ ⟨⟩
    exact h

theorem fitsAt_concat {terms : List (Dimension × Int32)} {t : Dimension × Int32} {base : String}
    (fits : ∀ position, FitsAt terms position base)
    (last : FitsAt (terms ++ [t]) terms.length base) (position : Nat) :
    FitsAt (terms ++ [t]) position base := by
  rcases Nat.lt_trichotomy position terms.length with less | same | more
  · exact (fitsAt_concat_of_lt less base).mpr (fits position)
  · exact same ▸ last
  · exact fitsAt_of_length_le (by rw [List.length_append]; exact more) base

/-- An overflow stays the first one when terms follow. -/
theorem FirstOverflow.concat {terms : List (Dimension × Int32)} {position : Nat} {base : String}
    (first : FirstOverflow terms position base) (t : Dimension × Int32) :
    FirstOverflow (terms ++ [t]) position base := by
  have inside : position < terms.length := by
    apply Nat.lt_of_not_le
    intro outside
    exact first.leaves (fitsAt_of_length_le outside base)
  refine ⟨fun fits => first.leaves ((fitsAt_concat_of_lt inside base).mp fits),
    fun i less other => ?_, fun other less => ?_⟩
  · exact (fitsAt_concat_of_lt (Nat.lt_trans less inside) other).mpr (first.earlier i less other)
  · exact (fitsAt_concat_of_lt inside other).mpr (first.before other less)

/-- The last term is added to the sum of the others. -/
theorem weightedSum?_concat (terms : List (Dimension × Int32)) (t : Dimension × Int32) :
    weightedSum? (terms ++ [t]) = weightedSum? terms >>= fun d => d.addScaled? t.1 t.2 := by
  simp [weightedSum?, List.foldlM_append]

/-- The sum of weighted dimensions is exact, or fails at the first overflow. The induction takes
terms off the end, so that the running sums are those of the shorter list. -/
theorem sumsTo_weightedSum? (terms : List (Dimension × Int32)) :
    SumsTo terms (weightedSum? terms) := by
  induction terms using List.reverseRecOn with
  | nil => exact .exact (fun _ base => fitsAt_of_length_le (Nat.zero_le _) base) fun _ => rfl
  | append_singleton terms t ih =>
    rw [weightedSum?_concat]
    generalize weightedSum? terms = sum at ih
    cases ih with
    | overflow first => exact .overflow (first.concat t)
    | @exact d fits value =>
      show SumsTo _ (d.addScaled? t.1 t.2)
      have adds := addsTo_addScaled? d t.1 t.2
      generalize d.addScaled? t.1 t.2 = sum at adds
      cases adds with
      | exact added exponents =>
        refine .exact (fun position base => ?_) fun base => ?_
        · exact fitsAt_concat (fits · base) ((fitsAt_concat_last (value base)).mpr (added base))
            position
        · rw [exponents, value, exactSum_concat]
      | @overflow base lost less =>
        have first : FirstOverflow (terms ++ [t]) terms.length base := {
          leaves := fun fit => lost ((fitsAt_concat_last (value base)).mp fit)
          earlier := fun i inside other => (fitsAt_concat_of_lt inside other).mpr (fits i other)
          before := fun other before =>
            (fitsAt_concat_last (value other)).mpr (less other (Text.bytesBefore_iff.mp before)) }
        exact .overflow first

/-- What a sum comes to has the exact exponents. -/
theorem toInt_exponent_of_weightedSum? {terms : List (Dimension × Int32)} {d : Dimension}
    (found : weightedSum? terms = .ok d) (base : String) :
    (d.exponent base).toInt = exactSum terms base := by
  have sums := sumsTo_weightedSum? terms
  rw [found] at sums
  cases sums with
  | exact _ value => exact value base

/-- A sum succeeds exactly when every term fits. -/
theorem exists_weightedSum?_iff {terms : List (Dimension × Int32)} :
    (∃ d, weightedSum? terms = .ok d) ↔ ∀ position base, FitsAt terms position base := by
  have sums := sumsTo_weightedSum? terms
  constructor
  · rintro ⟨d, found⟩
    rw [found] at sums
    cases sums with
    | exact fits _ => exact fits
  · intro fits
    generalize weightedSum? terms = sum at sums
    cases sums with
    | @exact d _ _ => exact ⟨d, rfl⟩
    | overflow first => exact absurd (fits _ _) first.leaves

end Dimension

end Footprint
