import Footprint.UnitType.Name
import Mathlib.Data.List.TakeWhile
import Mathlib.Tactic.IntervalCases

/-!
Names of unit types, by what stands in them.

A word stands in a name at a place (`StandsAt`), and a text is at a border where a new word would
start (`AtBorder`). With these, what a name is cut into and what it describes can be said without
the recursions that find it:

* `splitName?_eq_some_iff`, `splitName?_eq_none_iff`: a name is cut at the first separator;
* `mem_words_iff`: what the words of a name are;
* `describesQuotient_iff`: a name describes a quotient when the separator stands in it at two
  places, or the word `Per`.
-/

namespace Footprint.UnitType

/-! ### The separator -/

/-- The word stands in a name at a place. -/
def StandsAt (word name : List Char) (place : Nat) : Prop := word <+: name.drop place

instance (word name : List Char) (place : Nat) : Decidable (StandsAt word name place) :=
  inferInstanceAs (Decidable (_ <+: _))

section Separator

variable {word name first second : List Char} {place : Nat} {c : Char}

theorem standsAt_append :
    StandsAt word (first ++ name) (first.length + place) ↔ StandsAt word name place := by
  rw [StandsAt, List.drop_length_add_append, StandsAt]

theorem standsAt_length : StandsAt word (first ++ word ++ second) first.length := by
  rw [StandsAt, List.append_assoc, List.drop_left]
  exact List.prefix_append word second

/-- What stands in a name still stands there when more follows. -/
theorem StandsAt.append (stands : StandsAt word name place) (rest : List Char) :
    StandsAt word (name ++ rest) place := by
  rw [StandsAt, List.drop_append]
  exact List.IsPrefix.trans stands (List.prefix_append ..)

theorem not_standsAt_nil : ¬ StandsAt separator [] place := by
  intro stands
  rw [StandsAt, List.drop_nil, List.prefix_nil] at stands
  exact absurd stands (by decide)

/-- A separator does not start within another one. -/
theorem not_standsAt_separator (later : 0 < place) (inside : place < separator.length) :
    ¬ StandsAt separator (separator ++ second) place := by
  have short : place < 4 := inside
  interval_cases place <;> simp [StandsAt, separator]

theorem splitName?_cons (other : ¬ StandsAt separator (c :: name) 0) :
    splitName? (c :: name) =
      (splitName? name).map fun (first, second) => (c :: first, second) := by
  rw [splitName?]
  rintro second rfl rfl
  exact other (List.prefix_append separator second)

/-- A name is cut at the first separator. -/
theorem splitName?_eq_some_iff : splitName? name = some (first, second) ↔
    name = first ++ separator ++ second ∧
      ∀ place < first.length, ¬ StandsAt separator name place := by
  induction name generalizing first with
  | nil => simp [splitName?, separator]
  | cons c name ih =>
    by_cases here : StandsAt separator (c :: name) 0
    · obtain ⟨rest, starts⟩ := here
      rw [List.drop_zero] at starts
      have cut : splitName? (c :: name) = some ([], rest) := by
        rw [← starts]
        rfl
      rw [cut, Option.some.injEq, Prod.mk.injEq]
      constructor
      · rintro ⟨rfl, rfl⟩
        exact ⟨starts.symm, by simp⟩
      · rintro ⟨whole, least⟩
        cases first with
        | nil =>
          rw [← starts] at whole
          exact ⟨rfl, List.append_cancel_left whole⟩
        | cons d before =>
          exact absurd ⟨rest, starts⟩ (least 0 (Nat.succ_pos _))
    · rw [splitName?_cons here, Option.map_eq_some_iff]
      constructor
      · rintro ⟨⟨before, after⟩, cut, same⟩
        cases same
        obtain ⟨rfl, least⟩ := ih.mp cut
        refine ⟨rfl, fun place less stands => ?_⟩
        cases place with
        | zero => exact here stands
        | succ place => exact least place (Nat.lt_of_succ_lt_succ less) stands
      · rintro ⟨whole, least⟩
        cases first with
        | nil => exact absurd (whole ▸ List.prefix_append separator second) here
        | cons d before =>
          obtain ⟨rfl, rest⟩ := List.cons.inj whole
          refine ⟨(before, second), ih.mpr ⟨rest, fun place less stands => ?_⟩, rfl⟩
          exact least (place + 1) (Nat.succ_lt_succ less) stands

/-- A name is not cut when the separator stands nowhere in it. -/
theorem splitName?_eq_none_iff :
    splitName? name = none ↔ ∀ place, ¬ StandsAt separator name place := by
  constructor
  · intro whole
    induction name with
    | nil => exact fun place => not_standsAt_nil
    | cons c name ih =>
      have here : ¬ StandsAt separator (c :: name) 0 := by
        rintro ⟨rest, starts⟩
        rw [List.drop_zero] at starts
        rw [← starts] at whole
        cases whole
      rw [splitName?_cons here, Option.map_eq_none_iff] at whole
      intro place
      cases place with
      | zero => exact here
      | succ place => exact ih whole place
  · intro nowhere
    cases cut : splitName? name with
    | none => rfl
    | some parts =>
      obtain ⟨rfl, -⟩ := splitName?_eq_some_iff.mp cut
      exact absurd standsAt_length (nowhere parts.1.length)

/-- Behind the first separator, a separator stands where it stands in the rest. -/
theorem standsAt_behind {later : Nat} (behind : first.length < later) :
    StandsAt separator (first ++ separator ++ second) later ↔
      ∃ place, later = first.length + separator.length + place ∧
        StandsAt separator second place := by
  rw [List.append_assoc]
  constructor
  · intro stands
    obtain ⟨distance, rfl⟩ := Nat.exists_eq_add_of_le (Nat.le_of_lt behind)
    rw [standsAt_append] at stands
    have outside : separator.length ≤ distance := by
      by_contra inside
      exact not_standsAt_separator (by omega) (by omega) stands
    obtain ⟨place, rfl⟩ := Nat.exists_eq_add_of_le outside
    exact ⟨place, by omega, standsAt_append.mp stands⟩
  · rintro ⟨place, rfl, stands⟩
    rw [Nat.add_assoc, standsAt_append, standsAt_append]
    exact stands

theorem hasTwoSeparators_iff : hasTwoSeparators name = true ↔
    ∃ i j, i < j ∧ StandsAt separator name i ∧ StandsAt separator name j := by
  unfold hasTwoSeparators
  cases cut : splitName? name with
  | none =>
    have nowhere := splitName?_eq_none_iff.mp cut
    simp [nowhere]
  | some parts =>
    obtain ⟨first, second⟩ := parts
    obtain ⟨rfl, least⟩ := splitName?_eq_some_iff.mp cut
    rw [Option.bind_some, Option.isSome_iff_ne_none, ne_eq, splitName?_eq_none_iff, not_forall]
    simp only [not_not]
    constructor
    · rintro ⟨place, stands⟩
      have later : first.length < first.length + separator.length + place := by
        have some : 0 < separator.length := by decide
        omega
      have second := (standsAt_behind later).mpr ⟨place, rfl, stands⟩
      exact ⟨first.length, _, later, standsAt_length, second⟩
    · rintro ⟨i, j, less, earlier, stands⟩
      have notBefore : first.length ≤ i := Nat.not_lt.mp fun before => least i before earlier
      obtain ⟨place, -, found⟩ := (standsAt_behind (Nat.lt_of_le_of_lt notBefore less)).mp stands
      exact ⟨place, found⟩

end Separator

/-! ### Words -/

/-- The text is over, or goes on with a capital. -/
def AtBorder (text : List Char) : Prop := ∀ c ∈ text.head?, Text.isUppercase c = true

theorem atBorder_cons {c : Char} {rest : List Char} :
    AtBorder (c :: rest) ↔ Text.isUppercase c = true := by
  simp [AtBorder]

section Words

variable {word name rest : List Char} {c : Char}

/-- The first word goes on up to the next capital. -/
theorem words_cons (c : Char) (rest : List Char) : words (c :: rest) =
    (c :: rest.takeWhile fun d => !Text.isUppercase d) ::
      words (rest.dropWhile fun d => !Text.isUppercase d) := by
  induction rest generalizing c with
  | nil => rfl
  | cons d rest ih =>
    rw [words]
    by_cases capital : Text.isUppercase d = true
    · rw [if_pos capital, List.takeWhile_cons_of_neg (by simp [capital]),
        List.dropWhile_cons_of_neg (by simp [capital])]
    · rw [if_neg capital, ih d, List.takeWhile_cons_of_pos (by simp [capital]),
        List.dropWhile_cons_of_pos (by simp [capital])]

/-- Induction along the words of a name: what follows the first word comes before the whole. -/
theorem words_induction {motive : List Char → Prop} (nil : motive [])
    (cons : ∀ c rest, motive (rest.dropWhile fun d => !Text.isUppercase d) → motive (c :: rest))
    (name : List Char) : motive name := by
  induction length : name.length using Nat.strongRecOn generalizing name with
  | ind n ih =>
    cases name with
    | nil => exact nil
    | cons c rest =>
      refine cons c rest (ih _ ?_ _ rfl)
      have le := (List.dropWhile_suffix (l := rest) fun d => !Text.isUppercase d).length_le
      rw [List.length_cons] at length
      omega

theorem atBorder_append {after : List Char} (some : word ≠ []) :
    AtBorder (word ++ after) ↔ AtBorder word := by
  obtain ⟨c, tail, rfl⟩ := List.exists_cons_of_ne_nil some
  exact Iff.rfl

theorem atBorder_dropWhile (text : List Char) :
    AtBorder (text.dropWhile fun d => !Text.isUppercase d) := by
  intro c first
  have stops := List.head?_dropWhile_not (fun d => !Text.isUppercase d) text
  rw [Option.mem_def.mp first] at stops
  simpa using stops

/-- What is before a border is not part of a word behind it. -/
theorem takeWhile_append_border {tail after : List Char}
    (small : ∀ d ∈ tail, Text.isUppercase d = false) (border : AtBorder after) :
    (tail ++ after).takeWhile (fun d => !Text.isUppercase d) = tail := by
  have passes : ∀ d ∈ tail, (!Text.isUppercase d) = true := fun d mem => by simp [small d mem]
  rw [List.takeWhile_append_of_pos passes]
  cases after with
  | nil => exact List.append_nil tail
  | cons d after =>
    have capital : Text.isUppercase d = true := border d rfl
    rw [List.takeWhile_cons_of_neg (by simp [capital]), List.append_nil]

/-- A capital and what follows it are not dropped. -/
theorem dropWhile_append_capital (before : List Char) (capital : Text.isUppercase c = true) :
    ∃ kept, (before ++ c :: rest).dropWhile (fun d => !Text.isUppercase d) = kept ++ c :: rest := by
  rw [List.dropWhile_append]
  split
  · exact ⟨[], List.dropWhile_cons_of_neg (by simp [capital])⟩
  · exact ⟨_, rfl⟩

/-- Between `before` and `after`, a word starts at the front or at a capital, and goes on up to the
next capital. -/
structure WordBetween (before word after : List Char) : Prop where
  some : word ≠ []
  starts : before = [] ∨ AtBorder word
  small : ∀ d ∈ word.tail, Text.isUppercase d = false
  ends : AtBorder after

/-- The words of a name are what starts at the front or at a capital and goes on up to the next
capital. -/
theorem mem_words_iff : word ∈ words name ↔
    ∃ before after, name = before ++ word ++ after ∧ WordBetween before word after := by
  induction name using words_induction with
  | nil =>
    constructor
    · intro mem
      cases mem
    · rintro ⟨before, after, split, between⟩
      rw [List.nil_eq, List.append_eq_nil_iff, List.append_eq_nil_iff] at split
      exact absurd split.1.2 between.some
  | cons x rest ih =>
    have border := atBorder_dropWhile rest
    have cut := List.takeWhile_append_dropWhile (p := fun d => !Text.isUppercase d) (l := rest)
    rw [words_cons, List.mem_cons, ih]
    constructor
    · rintro (rfl | ⟨before, after, split, between⟩)
      · refine ⟨[], _, ?_, List.cons_ne_nil _ _, .inl rfl, fun d mem => ?_, border⟩
        · rw [List.nil_append, List.cons_append, cut]
        · simpa using List.mem_takeWhile_imp mem
      · refine ⟨x :: (rest.takeWhile fun d => !Text.isUppercase d) ++ before, after, ?_,
          { between with starts := .inr ?_ }⟩
        · rw [List.append_assoc, List.append_assoc, ← List.append_assoc before, ← split,
            List.cons_append, cut]
        · rcases between.starts with rfl | capital
          · rwa [split, List.nil_append, atBorder_append between.some] at border
          · exact capital
    · rintro ⟨before, after, split, between⟩
      obtain ⟨c, tail, rfl⟩ := List.exists_cons_of_ne_nil between.some
      cases before with
      | nil =>
        rw [List.nil_append, List.cons_append] at split
        obtain ⟨rfl, rfl⟩ := List.cons.inj split
        exact .inl (congrArg _ (takeWhile_append_border between.small between.ends).symm)
      | cons y before =>
        rw [List.cons_append, List.cons_append, List.append_assoc] at split
        obtain ⟨rfl, rfl⟩ := List.cons.inj split
        have starts := between.starts.resolve_left (List.cons_ne_nil _ _)
        obtain ⟨kept, same⟩ : ∃ kept, (before ++ c :: (tail ++ after)).dropWhile
            (fun d => !Text.isUppercase d) = kept ++ c :: (tail ++ after) :=
          dropWhile_append_capital before (starts c rfl)
        refine .inr ⟨kept, after, ?_, { between with starts := .inr starts }⟩
        rw [List.append_assoc]
        exact same

end Words

/-! ### Quotients -/

/-- The word that names a quotient. -/
def per : List Char := ['P', 'e', 'r']

/-- A name that describes a quotient: the separator stands in it at two places, or the word `Per`,
that is, followed by a capital or by nothing. -/
def QuotientName (name : String) : Prop :=
  (∃ i j, i < j ∧ StandsAt separator name.toList i ∧ StandsAt separator name.toList j) ∨
    ∃ place, StandsAt per name.toList place ∧ AtBorder (name.toList.drop (place + per.length))

theorem per_mem_words_iff {name : List Char} : per ∈ words name ↔
    ∃ place, StandsAt per name place ∧ AtBorder (name.drop (place + per.length)) := by
  rw [mem_words_iff]
  constructor
  · rintro ⟨before, after, rfl, between⟩
    refine ⟨before.length, standsAt_length, ?_⟩
    rw [List.append_assoc, List.drop_length_add_append, List.drop_left]
    exact between.ends
  · rintro ⟨place, ⟨after, stands⟩, border⟩
    have small : ∀ d ∈ per.tail, Text.isUppercase d = false :=
      List.forall_mem_cons.mpr ⟨by decide, List.forall_mem_singleton.mpr (by decide)⟩
    refine ⟨name.take place, after, ?_, List.cons_ne_nil _ _,
      .inr (atBorder_cons.mpr (by decide)), small, ?_⟩
    · rw [List.append_assoc, stands, List.take_append_drop]
    · rwa [← List.drop_drop, ← stands, List.drop_left] at border

theorem describesQuotient_iff {name : String} :
    describesQuotient name = true ↔ QuotientName name := by
  rw [describesQuotient, Bool.or_eq_true, hasTwoSeparators_iff, List.contains_iff_mem]
  exact or_congr_right per_mem_words_iff

end Footprint.UnitType
