import Footprint.Unit.Resolve
import Mathlib.Data.List.Nodup
import Mathlib.Data.List.Pairwise
import Mathlib.Data.List.Sort

/-!
Which unit a text means, whatever the order of the table.

`UnitEntry.Reads` says it without an order: in lower case and without the blanks at its ends, the
text is the symbol of a unit, its name or an alias, or a plural of one of these. The search of
`MeasureUnit.resolve` has three stages and takes first matches, but no text reads two entries of
the table, so neither an earlier stage nor an earlier entry can hide another unit.

* `UnitEntry.place_unique`: no text is a reading of two entries;
* `UnitEntry.search?_eq_some_iff`: a search in such entries finds the one that the text reads;
* `MeasureUnit.resolve_orderFree`: what follows for `MeasureUnit.resolve`.

That no text is shared is checked by sorting all readings: texts that are equal would be
neighbours.
-/

namespace Footprint

namespace UnitEntry

/-! ### Readings -/

/-- The text means the unit of the entry, when case and order do not count. -/
def Reads (e : UnitEntry) (text : String) : Prop :=
  Text.lower (Text.trim text) = Text.lower e.symbol ∨
    ∃ name ∈ e.name :: e.aliases,
      Text.lower (Text.trim text) = Text.lower name ∨
      Text.lower (Text.trim text) = Text.lower name ++ "s" ∨
      Text.lower (Text.trim text) = Text.lower name ++ "es"

/-- The texts in lower case that mean the unit of the entry. -/
def readings (e : UnitEntry) : List (List Char) :=
  Text.lowerChars e.symbol.toList :: (e.name :: e.aliases).flatMap fun name =>
    let chars := Text.lowerChars name.toList
    [chars, chars ++ ['s'], chars ++ ['e', 's']]

variable {entries : List UnitEntry} {e f : UnitEntry} {text : String}

theorem isCalled_iff {folded : String} : e.isCalled folded = true ↔
    ∃ name ∈ e.name :: e.aliases, folded = Text.lower name ∨
      folded = Text.lower name ++ "s" ∨ folded = Text.lower name ++ "es" := by
  simp only [isCalled, List.any_eq_true, decide_eq_true_eq]

theorem reads_of_symbol (same : e.symbol = Text.trim text) : e.Reads text :=
  .inl (congrArg Text.lower same.symm)

theorem reads_congr {other : String}
    (same : Text.lower (Text.trim other) = Text.lower (Text.trim text)) :
    e.Reads other ↔ e.Reads text := by
  rw [Reads, Reads, same]

theorem mem_readings_of_reads (reads : e.Reads text) :
    (Text.lower (Text.trim text)).toList ∈ e.readings := by
  rcases reads with symbol | ⟨name, listed, called⟩
  · rw [symbol, Text.lower, String.toList_ofList]
    exact List.mem_cons_self
  · refine List.mem_cons_of_mem _ (List.mem_flatMap.mpr ⟨name, listed, ?_⟩)
    rcases called with same | plural | plural
    · rw [same, Text.lower, String.toList_ofList]
      exact List.mem_cons_self
    · rw [plural, String.toList_append, Text.lower, String.toList_ofList]
      exact List.mem_cons_of_mem _ List.mem_cons_self
    · rw [plural, String.toList_append, Text.lower, String.toList_ofList]
      exact List.mem_cons_of_mem _ (List.mem_cons_of_mem _ List.mem_cons_self)

/-! ### No reading is shared -/

/-- The characters of a text as one number. -/
def textNumber (chars : List Char) : Nat := chars.foldl (fun n c => n * 0x110000 + c.toNat) 0

/-- The numbers of all readings, each with the place of its entry. -/
def places (entries : List UnitEntry) : List (Nat × Nat) :=
  entries.zipIdx.flatMap fun (e, place) => e.readings.map fun reading => (textNumber reading, place)

/-- A smaller number, or the same place. -/
def Before (p q : Nat × Nat) : Prop := p.1 < q.1 ∨ p = q

instance (p q : Nat × Nat) : Decidable (Before p q) := inferInstanceAs (Decidable (_ ∨ _))

instance : Trans Before Before Before where
  trans := by
    rintro p q r (less | rfl) (less' | rfl)
    · exact .inl (Nat.lt_trans less less')
    · exact .inl less
    · exact .inl less'
    · exact .inr rfl

/-- In the order of their numbers, equal readings have the same place. -/
def Apart (entries : List UnitEntry) : Prop :=
  ((places entries).insertionSort fun p q => p.1 ≤ q.1).IsChain Before

instance (entries : List UnitEntry) : Decidable (Apart entries) :=
  inferInstanceAs (Decidable (List.IsChain _ _))

/-- The check of the table. -/
theorem apart_table : Apart table := by
  decide +kernel

theorem mem_places {place : Nat} {reading : List Char} (found : entries[place]? = some e)
    (listed : reading ∈ e.readings) : (textNumber reading, place) ∈ places entries := by
  refine List.mem_flatMap.mpr ⟨(e, place), ?_, List.mem_map_of_mem listed⟩
  exact List.mem_zipIdx_iff_getElem?.mpr found

theorem eq_of_mem_places (apart : Apart entries) {p q : Nat × Nat} (hp : p ∈ places entries)
    (hq : q ∈ places entries) (same : p.1 = q.1) : p = q := by
  have symmetric : Std.Symm fun p q : Nat × Nat => p.1 = q.1 → p = q :=
    ⟨fun _ _ h equal => (h equal.symm).symm⟩
  have ordered := (List.isChain_iff_pairwise.mp apart).imp (S := fun p q => p.1 = q.1 → p = q) <| by
    rintro p q (less | equal) same
    · exact absurd same (Nat.ne_of_lt less)
    · exact equal
  exact ordered.forall_of_forall (fun _ _ _ => rfl) ((List.mem_insertionSort _).mpr hp)
    ((List.mem_insertionSort _).mpr hq) same

/-- A reading belongs to the entry at one place only. -/
theorem place_unique (apart : Apart entries) {i j : Nat} {reading : List Char}
    (foundE : entries[i]? = some e) (foundF : entries[j]? = some f)
    (ofE : reading ∈ e.readings) (ofF : reading ∈ f.readings) : i = j :=
  congrArg Prod.snd (eq_of_mem_places apart (mem_places foundE ofE) (mem_places foundF ofF) rfl)

/-! ### Separate entries -/

/-- No entry is listed twice, and no text means two of them. -/
structure Separate (entries : List UnitEntry) : Prop where
  nodup : entries.Nodup
  unique : ∀ e ∈ entries, ∀ f ∈ entries, ∀ text, e.Reads text → f.Reads text → e = f

theorem eq_of_mem_readings (apart : Apart entries) {reading : List Char} (memE : e ∈ entries)
    (memF : f ∈ entries) (ofE : reading ∈ e.readings) (ofF : reading ∈ f.readings) : e = f := by
  obtain ⟨i, foundE⟩ := List.mem_iff_getElem?.mp memE
  obtain ⟨j, foundF⟩ := List.mem_iff_getElem?.mp memF
  obtain rfl := place_unique apart foundE foundF ofE ofF
  exact Option.some.inj (foundE.symm.trans foundF)

theorem separate_of_apart (apart : Apart entries) : Separate entries := by
  constructor
  · rw [List.nodup_iff_getElem?_ne_getElem?]
    intro i j less inside same
    -- Both places would hold the symbol of the one entry.
    have foundJ := List.getElem?_eq_getElem inside
    have place := place_unique apart (same.trans foundJ) foundJ List.mem_cons_self
      List.mem_cons_self
    exact absurd place (Nat.ne_of_lt less)
  · intro e memE f memF text readsE readsF
    exact eq_of_mem_readings apart memE memF (mem_readings_of_reads readsE)
      (mem_readings_of_reads readsF)

theorem Separate.perm {other : List UnitEntry} (separate : Separate entries)
    (same : other.Perm entries) : Separate other where
  nodup := same.nodup_iff.mpr separate.nodup
  unique := by
    intro e memE f memF
    exact separate.unique e (same.mem_iff.mp memE) f (same.mem_iff.mp memF)

theorem separate_table : Separate table := separate_of_apart apart_table

/-! ### Searching -/

/-- The element of a list that has just one. -/
def only? {α : Type} : List α → Option α
  | [a] => some a
  | _ => none

theorem only?_eq_some_iff {α : Type} {items : List α} {a : α} :
    only? items = some a ↔ items = [a] := by
  match items with
  | [] => simp [only?]
  | [b] => simp [only?]
  | b :: c :: rest => simp [only?]

/-- The entry that a search of the entries, in this order, finds for a text. -/
def search? (entries : List UnitEntry) (text : String) : Option UnitEntry :=
  let folded := Text.lower (Text.trim text)
  (entries.find? fun e => e.symbol = Text.trim text)
    |>.or (entries.find? fun e => e.isCalled folded)
    |>.or (only? (entries.filter fun e => Text.lower e.symbol = folded))

theorem onlyFolded?_eq (folded : String) :
    onlyFolded? folded = only? (table.filter fun e => Text.lower e.symbol = folded) := by
  unfold onlyFolded?
  generalize table.filter _ = found
  match found with
  | [] => rfl
  | [_] => rfl
  | _ :: _ :: _ => rfl

theorem resolve_of_search? (found : search? table text = some e) :
    MeasureUnit.resolve text = .ok e.unit := by
  simp only [search?, ← onlyFolded?_eq] at found
  simp only [MeasureUnit.resolve, found]

theorem resolve_of_search?_eq_none (missing : search? table text = none) :
    ∃ meant, MeasureUnit.resolve text = .error (.unknownUnit (Text.trim text) meant) := by
  simp only [search?, ← onlyFolded?_eq] at missing
  simp only [MeasureUnit.resolve, missing]
  exact ⟨_, rfl⟩

/-- A search finds an entry that the text means. -/
theorem reads_of_search? (found : search? entries text = some e) : e ∈ entries ∧ e.Reads text := by
  rw [search?, Option.or_eq_some_iff, Option.or_eq_some_iff, only?_eq_some_iff] at found
  rcases found with (symbol | ⟨-, called⟩) | ⟨-, folded⟩
  · have same : e.symbol = Text.trim text := by simpa using List.find?_some symbol
    exact ⟨List.mem_of_find?_eq_some symbol, reads_of_symbol same⟩
  · have known : e.isCalled (Text.lower (Text.trim text)) = true := by
      simpa using List.find?_some called
    exact ⟨List.mem_of_find?_eq_some called, .inr (isCalled_iff.mp known)⟩
  · have mem : e ∈ entries.filter fun e => Text.lower e.symbol = Text.lower (Text.trim text) := by
      rw [folded]
      exact List.mem_singleton_self e
    obtain ⟨listed, same⟩ := List.mem_filter.mp mem
    exact ⟨listed, .inl (of_decide_eq_true same).symm⟩

/-- A search finds some entry where the text means one. -/
theorem search?_ne_none (separate : Separate entries) (mem : e ∈ entries) (reads : e.Reads text) :
    search? entries text ≠ none := by
  intro missing
  rw [search?, Option.or_eq_none_iff, Option.or_eq_none_iff] at missing
  obtain ⟨⟨-, notCalled⟩, notFolded⟩ := missing
  rcases reads with symbol | called
  · -- The first stage may miss the symbol because of its case; no other symbol folds to it.
    have single : (entries.filter fun f => Text.lower f.symbol = Text.lower (Text.trim text)) =
        [e] := by
      by_contra differs
      rcases ((separate.nodup.filter _).ne_singleton_iff e).mp differs with empty | ⟨f, kept, other⟩
      · exact absurd (decide_eq_true symbol.symm) (List.filter_eq_nil_iff.mp empty e mem)
      · obtain ⟨listed, same⟩ := List.mem_filter.mp kept
        exact other (separate.unique f listed e mem text (.inl (of_decide_eq_true same).symm)
          (.inl symbol))
    rw [single] at notFolded
    cases notFolded
  · exact List.find?_eq_none.mp notCalled e mem (isCalled_iff.mpr called)

/-- A search finds the entry that the text means. -/
theorem search?_eq_some_iff (separate : Separate entries) :
    search? entries text = some e ↔ e ∈ entries ∧ e.Reads text := by
  constructor
  · exact reads_of_search?
  · rintro ⟨mem, reads⟩
    obtain ⟨f, found⟩ := Option.ne_none_iff_exists'.mp (search?_ne_none separate mem reads)
    obtain ⟨listed, alsoReads⟩ := reads_of_search? found
    rw [found, separate.unique f listed e mem text alsoReads reads]

/-- The order of the entries does not matter. -/
theorem search?_perm {other : List UnitEntry} (separate : Separate entries)
    (same : other.Perm entries) (text : String) : search? other text = search? entries text := by
  apply Option.ext
  intro e
  rw [search?_eq_some_iff (separate.perm same), search?_eq_some_iff separate, same.mem_iff]

/-! ### The own symbol and name -/

theorem trimmed_table : ∀ e ∈ table, Text.trimChars e.symbol.toList = e.symbol.toList ∧
    Text.trimChars e.name.toList = e.name.toList := by
  decide +kernel

theorem reads_symbol (mem : e ∈ table) : e.Reads e.symbol := by
  refine .inl (congrArg Text.lower ?_)
  rw [Text.trim, (trimmed_table e mem).1, String.ofList_toList]

theorem reads_name (mem : e ∈ table) : e.Reads e.name := by
  refine .inr ⟨e.name, List.mem_cons_self, .inl (congrArg Text.lower ?_)⟩
  rw [Text.trim, (trimmed_table e mem).2, String.ofList_toList]

theorem eq_of_unit_eq (memE : e ∈ table) (memF : f ∈ table) (same : e.unit = f.unit) : e = f := by
  have symbol : e.symbol = f.symbol := congrArg MeasureUnit.symbol same
  refine eq_of_mem_readings apart_table memE memF List.mem_cons_self ?_
  rw [symbol]
  exact List.mem_cons_self

end UnitEntry

namespace MeasureUnit

open UnitEntry

/-! ### Resolving -/

theorem resolve_eq_ok_iff {text : String} {u : MeasureUnit} :
    resolve text = .ok u ↔ ∃ e ∈ table, e.unit = u ∧ e.Reads text := by
  cases found : search? table text with
  | some e =>
    obtain ⟨mem, reads⟩ := reads_of_search? found
    rw [resolve_of_search? found, Except.ok.injEq]
    constructor
    · intro same
      exact ⟨e, mem, same, reads⟩
    · rintro ⟨f, listed, rfl, alsoReads⟩
      rw [separate_table.unique e mem f listed text reads alsoReads]
  | none =>
    obtain ⟨meant, unknown⟩ := resolve_of_search?_eq_none found
    rw [unknown]
    constructor
    · rintro ⟨⟩
    · rintro ⟨e, mem, -, reads⟩
      exact absurd found (search?_ne_none separate_table mem reads)

/-- What a text is resolved to depends neither on the order of the table nor on case. -/
structure OrderFree (text : String) : Prop where
  /-- The text is resolved to a known unit exactly when it means this unit. -/
  resolved : ∀ e ∈ table, resolve text = .ok e.unit ↔ e.Reads text
  /-- It does not mean two units. -/
  single : ∀ e ∈ table, ∀ f ∈ table, e.Reads text → f.Reads text → e.unit = f.unit
  /-- A text that means no unit is reported, without the blanks at its ends. -/
  unknown : (∀ e ∈ table, ¬ e.Reads text) →
    ∃ meant, resolve text = .error (.unknownUnit (Text.trim text) meant)
  /-- A table with the same entries in another order gives the same. -/
  reordered : ∀ entries, entries.Perm table → search? entries text = search? table text
  /-- So does a text that differs in case only. -/
  recased : ∀ other, Text.lower (Text.trim other) = Text.lower (Text.trim text) →
    ∀ u, resolve other = .ok u ↔ resolve text = .ok u
  /-- The unit that is found is known, and is found by its own symbol and by its own name. -/
  itself : ∀ u, resolve text = .ok u → u ∈ known ∧ resolve u.symbol = .ok u ∧
    resolve u.name = .ok u

/-- A text is resolved by what it means alone. -/
theorem resolve_orderFree (text : String) : OrderFree text where
  resolved := by
    intro e mem
    rw [resolve_eq_ok_iff]
    constructor
    · rintro ⟨f, listed, same, reads⟩
      rwa [← eq_of_unit_eq listed mem same]
    · intro reads
      exact ⟨e, mem, rfl, reads⟩
  single := by
    intro e memE f memF readsE readsF
    rw [separate_table.unique e memE f memF text readsE readsF]
  unknown := by
    intro none
    cases found : search? table text with
    | some e =>
      obtain ⟨mem, reads⟩ := reads_of_search? found
      exact absurd reads (none e mem)
    | none => exact resolve_of_search?_eq_none found
  reordered := by
    intro entries same
    exact search?_perm separate_table same text
  recased := by
    intro other same u
    rw [resolve_eq_ok_iff, resolve_eq_ok_iff]
    simp only [reads_congr same]
  itself := by
    intro u found
    obtain ⟨e, mem, rfl, -⟩ := resolve_eq_ok_iff.mp found
    refine ⟨List.mem_map_of_mem mem, resolve_eq_ok_iff.mpr ?_, resolve_eq_ok_iff.mpr ?_⟩
    · exact ⟨e, mem, rfl, reads_symbol mem⟩
    · exact ⟨e, mem, rfl, reads_name mem⟩

end MeasureUnit

end Footprint
