import Footprint.Dimension.Basic

/-!
Dropping zeros at the end.

A dimension stores no zeros, so a running sum drops every base as soon as it cancels. A sum may as
well keep zeros while it runs and drop them when it ends: what a map of exponents says of a base
(`storedExponent`) does not depend on zeros, and each step only reads that.

* `trimmedSum?_eq`: weighted sums come to the same, errors included;
* `trimmedEntries_eq`: so do lists of entries.
-/

namespace Footprint.Dimension

/-! ### Exponents with zeros -/

/-- The exponent of a base in a map that may store zeros. -/
def storedExponent (m : NameMap Int32) (base : String) : Int32 := (m.get? base).getD 0

/-- The dimension that drops the zeros. -/
def trim (m : NameMap Int32) : Dimension where
  exponents := ⟨m.entries.filter fun e => e.2 ≠ 0, m.ascending.filter _⟩
  nonzero _ mem := of_decide_eq_true (List.mem_filter.mp mem).2

theorem get?_trim (m : NameMap Int32) (base : String) :
    (trim m).exponents.get? base = (m.get? base).filter fun e => e ≠ 0 := by
  apply Option.ext
  intro e
  rw [Option.filter_eq_some_iff, NameMap.get?_eq_some_iff, NameMap.get?_eq_some_iff]
  exact List.mem_filter

/-- Dropping zeros changes no exponent. -/
theorem exponent_trim (m : NameMap Int32) (base : String) :
    (trim m).exponent base = storedExponent m base := by
  unfold exponent storedExponent
  rw [get?_trim]
  cases m.get? base with
  | none => rfl
  | some e =>
    by_cases zero : e = 0
    · subst zero
      rfl
    · rw [Option.filter_some, if_pos (decide_eq_true zero)]

theorem trim_insert (m : NameMap Int32) (base : String) (e : Int32) :
    trim (m.insert base e) = (trim m).set base e := by
  apply ext_exponent
  intro other
  rw [exponent_trim, exponent_set, exponent_trim, storedExponent, NameMap.get?_insert]
  split <;> rfl

/-! ### Sums -/

/-- Add `weight * e` to the exponent of one base, storing it also if it is zero. -/
def storeTerm? (m : NameMap Int32) (base : String) (weight e : Int32) :
    Except Error (NameMap Int32) :=
  match (fitExponent? (weight.toInt * e.toInt)).bind fun term =>
      fitExponent? ((storedExponent m base).toInt + term.toInt) with
  | some sum => .ok (m.insert base sum)
  | none => .error (.exponentOverflow base)

/-- Add all exponents of `other` with a weight, in the order of the bases. -/
def storeScaled? (m : NameMap Int32) (other : Dimension) (weight : Int32) :
    Except Error (NameMap Int32) :=
  other.entries.foldlM (fun m e => storeTerm? m e.1 weight e.2) m

/-- The sum of weighted dimensions, which drops its zeros at the end. -/
def trimmedSum? (terms : List (Dimension × Int32)) : Except Error Dimension :=
  (terms.foldlM (fun m t => storeScaled? m t.1 t.2) NameMap.empty).map trim

/-- The dimension with these entries, which drops its zeros at the end. -/
def trimmedEntries (entries : List (String × Int32)) : Dimension :=
  trim <| entries.foldl (fun m e =>
    m.insert e.1 (clampExponent ((storedExponent m e.1).toInt + e.2.toInt))) NameMap.empty

/-- A loop that may fail commutes with a map of states that each of its steps commutes with. -/
theorem map_foldlM {ε σ τ α : Type} {f : σ → α → Except ε σ} {g : τ → α → Except ε τ} {h : σ → τ}
    (step : ∀ s a, (f s a).map h = g (h s) a) (items : List α) (s : σ) :
    (items.foldlM f s).map h = items.foldlM g (h s) := by
  induction items generalizing s with
  | nil => rfl
  | cons a rest ih =>
    rw [List.foldlM_cons, List.foldlM_cons, ← step]
    cases f s a with
    | error e => rfl
    | ok next => exact ih next

theorem map_trim_storeTerm? (m : NameMap Int32) (base : String) (weight e : Int32) :
    (storeTerm? m base weight e).map trim = (trim m).addTerm? base weight e := by
  unfold storeTerm? addTerm?
  rw [exponent_trim]
  generalize (fitExponent? (weight.toInt * e.toInt)).bind _ = sum
  cases sum with
  | none => rfl
  | some sum => exact congrArg Except.ok (trim_insert m base sum)

theorem map_trim_storeScaled? (m : NameMap Int32) (other : Dimension) (weight : Int32) :
    (storeScaled? m other weight).map trim = (trim m).addScaled? other weight :=
  map_foldlM (fun m e => map_trim_storeTerm? m e.1 weight e.2) other.entries m

/-- A weighted sum comes to the same whether zeros are dropped at every step or at the end. -/
theorem trimmedSum?_eq (terms : List (Dimension × Int32)) :
    trimmedSum? terms = weightedSum? terms :=
  map_foldlM (fun m t => map_trim_storeScaled? m t.1 t.2) terms NameMap.empty

/-- A list of entries comes to the same whether zeros are dropped at every step or at the end. -/
theorem trimmedEntries_eq (entries : List (String × Int32)) :
    trimmedEntries entries = ofEntries entries := by
  unfold trimmedEntries ofEntries
  refine (List.foldl_hom trim fun m e => ?_).symm
  rw [trim_insert, addClamped, exponent_trim]

/-- Length and time cancel on the way. -/
example : trimmedEntries [("[length]", 1), ("[time]", -1), ("[length]", -1), ("[time]", 1)] =
    one := by
  rfl

end Footprint.Dimension
