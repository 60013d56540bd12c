import Footprint.Proofs.UnitType.Name

/-!
The words of a name, and the pieces of text that they are.

A name is cut into words at its capitals, and this can be done in one way only (`CutAtCapitals`).

A program that keeps names as UTF-8 text finds where words start by places counted in bytes, and
takes the piece between each of them and the next (`pieces?`). There is no piece where a place is
inside of a character. To say what the pieces are therefore says that each place is between two
characters.

* `cutAtCapitals_iff`: what the words of a name are;
* `pieces?_eq`: the words are pieces of the name;
* `names_recognised`: both together, with the names that describe quotients.
-/

namespace Footprint.UnitType

/-! ### Cutting a name at its capitals -/

/-- Put together the words are the name. None is empty, within a word no capital follows, and all
but the first one start with a capital. -/
structure CutAtCapitals (name : List Char) (cut : List (List Char)) : Prop where
  whole : cut.flatten = name
  some : ∀ word ∈ cut, word ≠ []
  small : ∀ word ∈ cut, ∀ c ∈ word.tail, Text.isUppercase c = false
  starts : ∀ word ∈ cut.tail, ∃ c rest, word = c :: rest ∧ Text.isUppercase c = true

section Cutting

variable {name : List Char} {cut : List (List Char)}

theorem cutAtCapitals_nil : CutAtCapitals [] [] := ⟨rfl, nofun, nofun, nofun⟩

/-- What follows the first word starts with a capital, if anything does. -/
theorem CutAtCapitals.atBorder_tail {word : List Char} (cuts : CutAtCapitals name (word :: cut)) :
    AtBorder cut.flatten := by
  cases cut with
  | nil => exact nofun
  | cons second others =>
    obtain ⟨c, rest, rfl, capital⟩ := cuts.starts second List.mem_cons_self
    exact atBorder_cons.mpr capital

theorem CutAtCapitals.tail {word : List Char} (cuts : CutAtCapitals name (word :: cut)) :
    CutAtCapitals cut.flatten cut where
  whole := rfl
  some := fun other mem => cuts.some other (List.mem_cons_of_mem _ mem)
  small := fun other mem => cuts.small other (List.mem_cons_of_mem _ mem)
  starts := fun other mem => cuts.starts other (List.mem_of_mem_tail mem)

/-- A word in front, if what follows it starts with a capital. -/
theorem CutAtCapitals.cons {c : Char} {tail : List Char} (cuts : CutAtCapitals name cut)
    (border : AtBorder name) (small : ∀ d ∈ tail, Text.isUppercase d = false) :
    CutAtCapitals (c :: tail ++ name) ((c :: tail) :: cut) where
  whole := by rw [List.flatten_cons, cuts.whole]
  some := List.forall_mem_cons.mpr ⟨List.cons_ne_nil _ _, cuts.some⟩
  small := List.forall_mem_cons.mpr ⟨small, cuts.small⟩
  starts := by
    intro word mem
    cases cut with
    | nil => cases mem
    | cons second others =>
      rcases List.mem_cons.mp mem with rfl | later
      · obtain ⟨d, rest, rfl⟩ := List.exists_cons_of_ne_nil (cuts.some word List.mem_cons_self)
        have capital : AtBorder (d :: (rest ++ others.flatten)) := by
          rwa [← cuts.whole] at border
        exact ⟨d, rest, rfl, atBorder_cons.mp capital⟩
      · exact cuts.starts word later

/-- The words of a name are cut at its capitals. -/
theorem cutAtCapitals_words (name : List Char) : CutAtCapitals name (words name) := by
  induction name using words_induction with
  | nil => exact cutAtCapitals_nil
  | cons c rest ih =>
    have small : ∀ d ∈ rest.takeWhile (fun d => !Text.isUppercase d),
        Text.isUppercase d = false := by
      intro d mem
      simpa using List.mem_takeWhile_imp mem
    have cuts := ih.cons (c := c) (atBorder_dropWhile rest) small
    rw [List.cons_append, List.takeWhile_append_dropWhile] at cuts
    rwa [words_cons]

/-- A first word that is followed by a capital, or by nothing. -/
theorem words_append_border {c : Char} {tail after : List Char}
    (small : ∀ d ∈ tail, Text.isUppercase d = false) (border : AtBorder after) :
    words (c :: (tail ++ after)) = (c :: tail) :: words after := by
  have front := takeWhile_append_border small border
  have behind : (tail ++ after).dropWhile (fun d => !Text.isUppercase d) = after := by
    have both := List.takeWhile_append_dropWhile (p := fun d => !Text.isUppercase d)
      (l := tail ++ after)
    rw [front] at both
    exact List.append_cancel_left both
  rw [words_cons, front, behind]

/-- There is only one way to cut a name at its capitals. -/
theorem CutAtCapitals.eq_words (cuts : CutAtCapitals name cut) : cut = words name := by
  induction cut generalizing name with
  | nil =>
    rw [← cuts.whole]
    rfl
  | cons word cut ih =>
    obtain ⟨c, tail, rfl⟩ := List.exists_cons_of_ne_nil (cuts.some word List.mem_cons_self)
    have small : ∀ d ∈ tail, Text.isUppercase d = false := cuts.small _ List.mem_cons_self
    rw [← cuts.whole, List.flatten_cons, List.cons_append,
      words_append_border small cuts.atBorder_tail, ← ih cuts.tail]

theorem cutAtCapitals_iff : CutAtCapitals name cut ↔ cut = words name := by
  constructor
  · exact CutAtCapitals.eq_words
  · rintro rfl
    exact cutAtCapitals_words name

end Cutting

/-! ### Pieces -/

/-- The piece of a text between two places, counted in bytes. There is none where one of them is not
between two characters, or the second one is in front of the first. -/
def piece? (text : String) (start stop : Nat) : Option String := do
  let first ← text.pos? ⟨start⟩
  let last ← text.pos? ⟨stop⟩
  let piece ← text.slice? first last
  return piece.copy

/-- Characters with their places, counted in bytes from a first one on. -/
def placed : Nat → List Char → List (Nat × Char)
  | _, [] => []
  | place, c :: rest => (place, c) :: placed (place + c.utf8Size) rest

/-- Whether a word starts with a character at its place: at the front, or at a capital. -/
def startsWord (placed : Nat × Char) : Bool := placed.1 = 0 || Text.isUppercase placed.2

/-- Where the words of a name start, and where it ends. -/
def bounds (name : String) : List Nat :=
  ((placed 0 name.toList).filter startsWord).map Prod.fst ++ [name.utf8ByteSize]

/-- The words of a name, each taken out of it between a bound and the next. -/
def pieces? (name : String) : Option (List String) :=
  (List.zipWith (piece? name) (bounds name) (bounds name).tail).mapM id

section Bounds

/-- The bounds of words that stand one behind the other. -/
def boundsFrom : Nat → List (List Char) → List Nat
  | place, [] => [place]
  | place, word :: rest => place :: boundsFrom (place + (String.ofList word).utf8ByteSize) rest

variable {name tail : List Char} {cut : List (List Char)} {place : Nat}

theorem boundsFrom_eq_cons (place : Nat) (cut : List (List Char)) :
    ∃ rest, boundsFrom place cut = place :: rest := by
  cases cut with
  | nil => exact ⟨[], rfl⟩
  | cons word cut => exact ⟨_, rfl⟩

theorem utf8ByteSize_append (first second : List Char) :
    (String.ofList (first ++ second)).utf8ByteSize =
      (String.ofList first).utf8ByteSize + (String.ofList second).utf8ByteSize := by
  rw [String.ofList_append, String.utf8ByteSize_append]

theorem utf8ByteSize_cons (c : Char) (rest : List Char) :
    (String.ofList (c :: rest)).utf8ByteSize =
      c.utf8Size + (String.ofList rest).utf8ByteSize := by
  rw [String.ofList_cons, String.utf8ByteSize_append, String.utf8ByteSize_singleton]

theorem placed_append (place : Nat) (first second : List Char) :
    placed place (first ++ second) =
      placed place first ++ placed (place + (String.ofList first).utf8ByteSize) second := by
  induction first generalizing place with
  | nil => rfl
  | cons c first ih =>
    rw [List.cons_append, placed, ih, placed, utf8ByteSize_cons, Nat.add_assoc, List.cons_append]

theorem le_and_mem_of_mem_placed {other : Nat} {c : Char} (mem : (other, c) ∈ placed place name) :
    place ≤ other ∧ c ∈ name := by
  induction name generalizing place with
  | nil => cases mem
  | cons d rest ih =>
    rcases List.mem_cons.mp mem with same | later
    · cases same
      exact ⟨Nat.le_refl _, List.mem_cons_self⟩
    · obtain ⟨le, inRest⟩ := ih later
      exact ⟨Nat.le_trans (Nat.le_add_right ..) le, List.mem_cons_of_mem _ inRest⟩

/-- Behind the front, no word starts where no capital is. -/
theorem filter_placed_small (small : ∀ d ∈ tail, Text.isUppercase d = false) (behind : 0 < place) :
    (placed place tail).filter startsWord = [] := by
  refine List.filter_eq_nil_iff.mpr fun (other, c) mem => ?_
  obtain ⟨le, inTail⟩ := le_and_mem_of_mem_placed mem
  have notFront : other ≠ 0 := by omega
  simp [startsWord, notFront, small c inTail]

/-- At the front, and from a capital on, the places where words start are the words' bounds. -/
theorem CutAtCapitals.starts_eq (cuts : CutAtCapitals name cut) (place : Nat)
    (starts : place = 0 ∨ AtBorder name) :
    ((placed place name).filter startsWord).map Prod.fst ++
        [place + (String.ofList name).utf8ByteSize] =
      boundsFrom place cut := by
  induction cut generalizing name place with
  | nil =>
    rw [← cuts.whole]
    rfl
  | cons word cut ih =>
    obtain ⟨c, tail, rfl⟩ := List.exists_cons_of_ne_nil (cuts.some word List.mem_cons_self)
    have small : ∀ d ∈ tail, Text.isUppercase d = false := cuts.small _ List.mem_cons_self
    have others := ih cuts.tail (place + (String.ofList (c :: tail)).utf8ByteSize)
      (.inr cuts.atBorder_tail)
    have first : startsWord (place, c) = true := by
      rw [← cuts.whole] at starts
      rcases starts with rfl | border
      · rfl
      · have capital : Text.isUppercase c = true := border c rfl
        simp [startsWord, capital]
    -- Only the first character of the name is at the front, so in a tail only capitals count.
    have behind : 0 < place + c.utf8Size := Nat.add_pos_right _ c.utf8Size_pos
    have word : (placed place (c :: tail)).filter startsWord = [(place, c)] := by
      rw [placed, List.filter_cons_of_pos first, filter_placed_small small behind]
    rw [← cuts.whole, List.flatten_cons, placed_append, List.filter_append, word, List.map_append,
      List.append_assoc, utf8ByteSize_append, ← Nat.add_assoc, others]
    rfl

theorem bounds_eq (name : String) : bounds name = boundsFrom 0 (words name.toList) := by
  have starts := (cutAtCapitals_words name.toList).starts_eq 0 (.inl rfl)
  rw [← starts, String.ofList_toList, Nat.zero_add]
  rfl

end Bounds

section Pieces

variable {text before piece after : String}

/-- Between two parts of a text there is a place. -/
theorem exists_pos?_eq (split : text = before ++ after) :
    ∃ p : text.Pos, text.pos? ⟨before.utf8ByteSize⟩ = some p ∧ p.Splits before after := by
  subst split
  have between :
      String.Pos.Raw.isValidForSlice (before ++ after).toSlice before.rawEndPos = true := by
    rw [String.Pos.Raw.isValidForSlice_eq_true_iff, String.Pos.Raw.isValidForSlice_toSlice_iff]
    exact String.Pos.Raw.isValid_rawEndPos.append_right after
  refine ⟨_, ?_, String.Pos.splits_append_rawEndPos⟩
  exact congrArg (Option.map String.Pos.ofToSlice) (dif_pos between)

/-- What stands between two parts of a text is a piece of it. -/
theorem piece?_eq (split : text = before ++ piece ++ after) :
    piece? text before.utf8ByteSize (before.utf8ByteSize + piece.utf8ByteSize) = some piece := by
  obtain ⟨last, atLast, splitsLast⟩ := exists_pos?_eq split
  rw [String.append_assoc] at split
  obtain ⟨first, atFirst, splitsFirst⟩ := exists_pos?_eq split
  obtain ⟨le, same⟩ := String.copy_slice_eq_iff_splits.mpr ⟨before, after, splitsFirst, splitsLast⟩
  rw [String.utf8ByteSize_append] at atLast
  rw [piece?, atFirst, atLast]
  simp only [Option.bind_eq_bind, Option.bind_some]
  rw [String.slice?, dif_pos le, Option.bind_some, same]
  rfl

/-- Words that stand one behind the other are the pieces between their bounds. -/
theorem mapM_piece?_eq (cut : List (List Char))
    (split : text = before ++ String.ofList cut.flatten) :
    (List.zipWith (piece? text) (boundsFrom before.utf8ByteSize cut)
        (boundsFrom before.utf8ByteSize cut).tail).mapM id =
      some (cut.map String.ofList) := by
  induction cut generalizing before with
  | nil => rfl
  | cons word cut ih =>
    rw [List.flatten_cons, String.ofList_append, ← String.append_assoc] at split
    have first := piece?_eq split
    have others := ih split
    rw [String.utf8ByteSize_append] at others
    obtain ⟨rest, bounds⟩ := boundsFrom_eq_cons
      (before.utf8ByteSize + (String.ofList word).utf8ByteSize) cut
    rw [bounds, List.tail_cons] at others
    rw [boundsFrom, bounds, List.tail_cons, List.zipWith_cons_cons, List.mapM_cons, id, first,
      others]
    rfl

/-- All pieces are between two characters each, and they are the words. -/
theorem pieces?_eq (name : String) :
    pieces? name = some ((words name.toList).map String.ofList) := by
  have split : name = "" ++ String.ofList (words name.toList).flatten := by
    rw [(cutAtCapitals_words name.toList).whole, String.ofList_toList, String.empty_append]
  have pieces := mapM_piece?_eq (words name.toList) split
  rwa [String.utf8ByteSize_empty, ← bounds_eq] at pieces

end Pieces

/-! ### Names -/

/-- The name is cut into words in the only way there is, these are pieces of it, and it is known
whether the name describes a quotient. -/
structure Recognised (name : String) : Prop where
  cut : ∀ cut, CutAtCapitals name.toList cut ↔ cut = words name.toList
  pieces : pieces? name = some ((words name.toList).map String.ofList)
  quotient : describesQuotient name = true ↔ QuotientName name

theorem names_recognised (name : String) : Recognised name where
  cut := fun _ => cutAtCapitals_iff
  pieces := pieces?_eq name
  quotient := describesQuotient_iff

/-- `Percentage` starts with `Per`, but this is not a word of it. -/
example : describesQuotient "PercentageOverÉnergie" = false ∧
    describesQuotient "ÉnergiePerTime" = true := by
  decide

end Footprint.UnitType
