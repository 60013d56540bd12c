import Footprint.Proofs.Double.Numeral

/-!
Cutting written documents into tokens.

`tokens` are the tokens that a tree is written with, whatever the blanks between them. Both layouts
of the writer are cut into exactly these:

* `scan?_compactChars`, `scan?_prettyChars`.

Cutting is described by a relation, `Token.Cuts`, that leaves the fuel of the scanner out. `Plain`
trees, whose numbers are whole, are what can be read back unchanged.
-/

namespace Footprint.Json

/-! ### Trees -/

/-- Induction over a tree; a container may use what holds of the trees in it. -/
@[elab_as_elim]
theorem tree_induction {motive : Json → Prop} (null : motive .null)
    (bool : ∀ b, motive (.bool b)) (int : ∀ i, motive (.int i)) (float : ∀ x, motive (.float x))
    (string : ∀ s, motive (.string s)) (unreadable : motive .unreadable)
    (array : ∀ items, (∀ item ∈ items, motive item) → motive (.array items))
    (object : ∀ members, (∀ e ∈ members, motive e.2) → motive (.object members)) :
    ∀ j, motive j
  | .null => null
  | .bool b => bool b
  | .int i => int i
  | .float x => float x
  | .string s => string s
  | .unreadable => unreadable
  | .array items => array items fun item mem =>
      have smaller := List.sizeOf_lt_of_mem mem
      tree_induction null bool int float string unreadable array object item
  | .object members => object members fun e mem =>
      have smaller : sizeOf e.2 < sizeOf members := by
        obtain ⟨name, value⟩ := e
        have pair := List.sizeOf_lt_of_mem mem
        rw [Prod.mk.sizeOf_spec] at pair
        show sizeOf value < sizeOf members
        omega
      tree_induction null bool int float string unreadable array object e.2
termination_by j => sizeOf j
decreasing_by
  · simp only [Json.array.sizeOf_spec]
    omega
  · simp only [Json.object.sizeOf_spec]
    omega

/-! ### Plain trees -/

/-- A tree whose numbers are whole, with containers in at most `levels` levels. -/
inductive Plain : Nat → Json → Prop where
  | null {levels : Nat} : Plain levels .null
  | bool {levels : Nat} {b : Bool} : Plain levels (.bool b)
  | int {levels : Nat} {i : Int} : IntRange i → Plain levels (.int i)
  | string {levels : Nat} {s : String} : Plain levels (.string s)
  | array {levels : Nat} {items : List Json} : (∀ item ∈ items, Plain levels item) →
      Plain (levels + 1) (.array items)
  | object {levels : Nat} {members : List (String × Json)} :
      (∀ e ∈ members, Plain levels e.2) → Plain (levels + 1) (.object members)

/-- A tree whose whole numbers are in range, with containers in at most `levels` levels; fractions
stand in it only if `fractions` holds. -/
inductive Written (fractions : Prop) : Nat → Json → Prop where
  | null {levels : Nat} : Written fractions levels .null
  | bool {levels : Nat} {b : Bool} : Written fractions levels (.bool b)
  | int {levels : Nat} {i : Int} : IntRange i → Written fractions levels (.int i)
  | float {levels : Nat} {x : Double} : fractions → Written fractions levels (.float x)
  | string {levels : Nat} {s : String} : Written fractions levels (.string s)
  | array {levels : Nat} {items : List Json} : (∀ item ∈ items, Written fractions levels item) →
      Written fractions (levels + 1) (.array items)
  | object {levels : Nat} {members : List (String × Json)} :
      (∀ e ∈ members, Written fractions levels e.2) →
      Written fractions (levels + 1) (.object members)

/-- A plain tree is written without fractions. -/
theorem plain_iff_written {levels : Nat} {j : Json} : Plain levels j ↔ Written False levels j := by
  constructor
  · intro plain
    induction plain with
    | null => exact .null
    | bool => exact .bool
    | int inRange => exact .int inRange
    | string => exact .string
    | array _ ih => exact .array ih
    | object _ ih => exact .object ih
  · intro written
    induction written with
    | null => exact .null
    | bool => exact .bool
    | int inRange => exact .int inRange
    | float fraction => exact fraction.elim
    | string => exact .string
    | array _ ih => exact .array ih
    | object _ ih => exact .object ih

theorem Written.mono {fractions : Prop} {levels more : Nat} {j : Json}
    (written : Written fractions levels j) (le : levels ≤ more) : Written fractions more j := by
  induction written generalizing more with
  | null => exact .null
  | bool => exact .bool
  | int inRange => exact .int inRange
  | float fraction => exact .float fraction
  | string => exact .string
  | array _ ih =>
    obtain ⟨more, rfl⟩ := Nat.exists_eq_add_of_lt (Nat.lt_of_succ_le le)
    exact .array fun item mem => ih item mem (Nat.le_add_right ..)
  | object _ ih =>
    obtain ⟨more, rfl⟩ := Nat.exists_eq_add_of_lt (Nat.lt_of_succ_le le)
    exact .object fun e mem => ih e mem (Nat.le_add_right ..)

theorem readableItems_iff {items : List Json} :
    readableItems items = true ↔ ∀ item ∈ items, item.readable = true := by
  induction items with
  | nil => simp [readableItems]
  | cons item rest ih => simp [readableItems, ih]

theorem Written.readable {fractions : Prop} {levels : Nat} {j : Json}
    (written : Written fractions levels j) : j.readable = true := by
  induction written with
  | null | bool | float | string => rfl
  | int inRange => exact decide_eq_true inRange
  | array _ ih => exact readableItems_iff.mpr ih
  | object _ ih => exact readableMembers_iff.mpr ih

/-! ### Texts -/

namespace Piece

theorem hexUnit?_control : ∀ n < 32, hexUnit? '0' '0' (hexChar (n / 16)) (hexChar (n % 16)) =
    some n := by
  decide

/-- A character is read back from what it is written as, escaped or not. -/
theorem scan?_writeChar (c : Char) (rest : List Char) :
    scan? (writeChar c ++ rest) = (scan? rest).map fun p => (.char c :: p.1, p.2) := by
  have bound : ∀ p : Option (List Piece × List Char),
      (p.bind fun p => some (Piece.char c :: p.1, p.2)) = p.map fun p => (.char c :: p.1, p.2) :=
    fun p => by cases p <;> rfl
  unfold writeChar
  repeat' split
  iterate 7
    · subst_vars
      simp [scan?, escaped?, bound]
  · -- The remaining control characters are written with four hexadecimal digits.
    rename_i control
    have unit := hexUnit?_control c.toNat control
    have plain : ofUnit c.toNat = .char c := by
      unfold ofUnit
      rw [if_neg (by omega), Char.ofNat_toNat]
    simp only [List.cons_append, List.nil_append]
    rw [scan?]
    simp [unit, plain, bound]
  · rename_i notQuote notBackslash _ _ _ _ _ printable
    simp only [List.cons_append, List.nil_append]
    rw [scan?.eq_def]
    split
    · simp_all
    · simp_all
    · simp_all
    · simp_all
    · rename_i same
      cases same
      rw [if_neg (by simp [notBackslash]; omega)]
      simp [bound]

/-- The pieces of a written text are its characters. -/
theorem scan?_writeChars (text rest : List Char) :
    scan? (text.flatMap writeChar ++ '"' :: rest) = some (text.map .char, rest) := by
  induction text with
  | nil => simp [scan?]
  | cons c text ih =>
    rw [List.flatMap_cons, List.append_assoc, scan?_writeChar, ih]
    rfl

theorem join?_map_char (text : List Char) : join? (text.map .char) = some text := by
  induction text with
  | nil => rfl
  | cons c text ih => simp [join?, ih]

end Piece

/-! ### Tokens -/

/-- Items with commas between them. -/
def separated : List (List Token) → List Token
  | [] => []
  | [item] => item
  | item :: rest => item ++ .comma :: separated rest

mutual

/-- The tokens that a tree is written with. -/
def tokens : Json → List Token
  | .null | .unreadable => [.null]
  | .bool b => [.bool b]
  | .int i => [.number (Numeral.ofInt i)]
  | .float x => [.number x.numeral]
  | .string s => [.string (some s)]
  | .array items => .openArray :: (separated (itemTokens items) ++ [.closeArray])
  | .object members => .openObject :: (separated (memberTokens members) ++ [.closeObject])

/-- The tokens of each item. -/
def itemTokens : List Json → List (List Token)
  | [] => []
  | item :: rest => item.tokens :: itemTokens rest

/-- The tokens of each member. -/
def memberTokens : List (String × Json) → List (List Token)
  | [] => []
  | (name, value) :: rest =>
    (.string (some name) :: .colon :: value.tokens) :: memberTokens rest

end

namespace Token

/-- How a text is cut into tokens. -/
inductive Cuts : List Char → List Token → Prop where
  | nil : Cuts [] []
  | blank {c : Char} {rest : List Char} {ts : List Token} : isBlank c = true → Cuts rest ts →
      Cuts (c :: rest) ts
  | token {c : Char} {tail rest : List Char} {t : Token} {ts : List Token} : isBlank c = false →
      next? (c :: tail) = some (t, rest) → rest.length ≤ tail.length → Cuts rest ts →
      Cuts (c :: tail) (t :: ts)

theorem scanWith_of_cuts {text : List Char} {ts : List Token} (cuts : Cuts text ts) (fuel : Nat)
    (enough : text.length < fuel) : scanWith fuel text = some ts := by
  induction cuts generalizing fuel with
  | nil =>
    obtain ⟨fuel, rfl⟩ := Nat.exists_eq_add_of_lt enough
    rfl
  | blank isBlank _ ih =>
    obtain ⟨fuel, rfl⟩ := Nat.exists_eq_add_of_lt enough
    simp only [scanWith, isBlank, if_true]
    exact ih _ (by simp only [List.length_cons]; omega)
  | token solid next shorter _ ih =>
    obtain ⟨fuel, rfl⟩ := Nat.exists_eq_add_of_lt enough
    simp only [scanWith, solid, Bool.false_eq_true, if_false, next, Option.bind_some]
    rw [ih _ (by simp only [List.length_cons]; omega)]
    rfl

theorem scan?_of_cuts {text : List Char} {ts : List Token} (cuts : Cuts text ts) :
    scan? text = some ts :=
  scanWith_of_cuts cuts _ (Nat.lt_succ_self _)

theorem Cuts.blanks {blanks rest : List Char} {ts : List Token}
    (all : ∀ c ∈ blanks, isBlank c = true) (cuts : Cuts rest ts) : Cuts (blanks ++ rest) ts := by
  induction blanks with
  | nil => exact cuts
  | cons c blanks ih =>
    exact .blank (all c List.mem_cons_self) (ih fun d mem => all d (List.mem_cons_of_mem _ mem))

/-- A word of several characters that is read as a token. -/
theorem Cuts.word {c : Char} {word rest : List Char} {t : Token} {ts : List Token}
    (solid : isBlank c = false) (next : next? (c :: (word ++ rest)) = some (t, rest))
    (cuts : Cuts rest ts) : Cuts (c :: (word ++ rest)) (t :: ts) :=
  .token solid next (by simp) cuts

/-- A token of one character. -/
theorem Cuts.mark {c : Char} {rest : List Char} {t : Token} {ts : List Token}
    (solid : isBlank c = false) (next : next? (c :: rest) = some (t, rest)) (cuts : Cuts rest ts) :
    Cuts (c :: rest) (t :: ts) :=
  .token solid next (Nat.le_refl _) cuts

theorem next?_of_number {c : Char} {rest : List Char} (number : c = '-' ∨ c.isDigit = true) :
    next? (c :: rest) = (Numeral.scan? (c :: rest)).map fun p => (.number p.1, p.2) := by
  have notMark : ∀ mark ∈ ['[', ']', '{', '}', ',', ':', 'n', 't', 'f', '"'], c ≠ mark := by
    intro mark mem same
    subst same
    rcases number with minus | digit
    · subst minus
      exact absurd mem (by decide)
    · revert digit
      simp only [List.mem_cons, List.not_mem_nil, or_false] at mem
      rcases mem with rfl | rfl | rfl | rfl | rfl | rfl | rfl | rfl | rfl | rfl <;> decide
  rw [next?.eq_def]
  split
  iterate 10
    · rename_i same
      cases same
      exact absurd rfl (notMark _ (by decide))
  · rfl

theorem cuts_number {n : Numeral} (proper : n.Proper) {rest : List Char} {ts : List Token}
    (ends : Numeral.EndsNumber rest) (cuts : Cuts rest ts) :
    Cuts (n.chars ++ rest) (.number n :: ts) := by
  have read := Numeral.scan?_chars proper ends
  obtain ⟨c, word, written, number⟩ := Numeral.chars_eq_cons proper
  rw [written, List.cons_append] at read ⊢
  refine .word ?_ ?_ cuts
  · rcases number with rfl | digit
    · rfl
    · apply Bool.eq_false_iff.mpr
      intro blank
      simp only [isBlank, Bool.or_eq_true, decide_eq_true_eq] at blank
      rcases blank with ((rfl | rfl) | rfl) | rfl <;> exact absurd digit (by decide)
  · rw [next?_of_number number, read]
    rfl

theorem cuts_writeString (s : String) {rest : List Char} {ts : List Token} (cuts : Cuts rest ts) :
    Cuts (writeString s ++ rest) (.string (some s) :: ts) := by
  unfold writeString
  rw [List.cons_append, List.append_assoc, List.singleton_append]
  refine .token rfl ?_ (by simp; omega) cuts
  rw [next?, Piece.scan?_writeChars]
  simp [Piece.join?_map_char]

end Token

theorem itemTokens_eq_map (items : List Json) : itemTokens items = items.map tokens := by
  induction items with
  | nil => rfl
  | cons item rest ih => rw [itemTokens, ih, List.map_cons]

theorem memberTokens_eq_map (members : List (String × Json)) :
    memberTokens members =
      members.map fun e => .string (some e.1) :: .colon :: e.2.tokens := by
  induction members with
  | nil => rfl
  | cons e rest ih => rw [memberTokens, ih, List.map_cons]

/-! ### Both layouts

The two layouts differ in the blanks before an item and behind a colon only. -/

/-- Words with commas between them, each with `lead` before it. -/
def joined (lead : List Char) : List (List Char) → List Char
  | [] => []
  | [word] => lead ++ word
  | word :: rest => lead ++ (word ++ ',' :: joined lead rest)

theorem compactItems_eq_joined (items : List Json) :
    compactItems items = joined [] (items.map compactChars) := by
  induction items with
  | nil => rfl
  | cons item rest ih =>
    cases rest with
    | nil => rfl
    | cons next rest =>
      rw [compactItems, ih]
      · rfl
      · simp

theorem compactMembers_eq_joined (members : List (String × Json)) :
    compactMembers members =
      joined [] (members.map fun e => writeString e.1 ++ ':' :: ([] ++ e.2.compactChars)) := by
  induction members with
  | nil => rfl
  | cons e rest ih =>
    cases rest with
    | nil => rfl
    | cons next rest =>
      rw [compactMembers, ih]
      · simp only [List.map_cons, joined, List.nil_append, List.append_assoc, List.cons_append]
      · simp

theorem prettyItems_eq_joined (depth : Nat) (items : List Json) :
    prettyItems depth items = joined (newLine depth) (items.map (prettyChars depth)) := by
  induction items with
  | nil => rfl
  | cons item rest ih =>
    cases rest with
    | nil => rfl
    | cons next rest =>
      rw [prettyItems, ih]
      · rfl
      · simp

theorem prettyMembers_eq_joined (depth : Nat) (members : List (String × Json)) :
    prettyMembers depth members = joined (newLine depth)
      (members.map fun e => writeString e.1 ++ ':' :: ([' '] ++ e.2.prettyChars depth)) := by
  induction members with
  | nil => rfl
  | cons e rest ih =>
    cases rest with
    | nil => rfl
    | cons next rest =>
      rw [prettyMembers, ih]
      · simp only [List.map_cons, joined, List.cons_append, List.nil_append, List.append_assoc]
      · simp

theorem isBlank_of_mem_newLine {depth : Nat} : ∀ c ∈ newLine depth, Token.isBlank c = true := by
  intro c mem
  rcases List.mem_cons.mp mem with rfl | mem
  · rfl
  · rw [List.eq_of_mem_replicate mem]
    rfl

namespace Token

/-- The text is cut into the tokens, whatever stands behind it as long as a number may end
there. -/
def Spells (text : List Char) (ts : List Token) : Prop :=
  ∀ (rest : List Char) (more : List Token), Numeral.EndsNumber rest → Cuts rest more →
    Cuts (text ++ rest) (ts ++ more)

/-- Items with commas between them are cut item by item. -/
theorem spells_joined {α : Type} {items : List α} {write : α → List Char}
    {cut : α → List Token} {lead : List Char} (blank : ∀ c ∈ lead, isBlank c = true)
    (each : ∀ item ∈ items, Spells (write item) (cut item)) :
    Spells (joined lead (items.map write)) (separated (items.map cut)) := by
  induction items with
  | nil => exact fun rest more _ cuts => cuts
  | cons item tail ih =>
    intro rest more ends cuts
    have first := each item List.mem_cons_self
    cases tail with
    | nil =>
      simp only [List.map_cons, List.map_nil, joined, separated, List.append_assoc]
      exact .blanks blank (first rest more ends cuts)
    | cons next tail =>
      have others := ih (fun other mem => each other (List.mem_cons_of_mem _ mem)) rest more ends
        cuts
      simp only [List.map_cons, joined, separated, List.append_assoc, List.cons_append] at others ⊢
      refine .blanks blank (first _ _ (Numeral.endsNumber_cons (by decide)) ?_)
      exact .mark rfl rfl others

/-- A member is its name, a colon and its value. -/
theorem isBlank_of_mem_singleton : ∀ c ∈ [' '], isBlank c = true := by
  intro c mem
  cases List.mem_singleton.mp mem
  rfl

theorem spells_member {name : String} {gap text : List Char} {ts : List Token}
    (blank : ∀ c ∈ gap, isBlank c = true) (value : Spells text ts) :
    Spells (writeString name ++ ':' :: (gap ++ text)) (.string (some name) :: .colon :: ts) := by
  intro rest more ends cuts
  simp only [List.append_assoc, List.cons_append]
  exact cuts_writeString name (.mark rfl rfl (.blanks blank (value rest more ends cuts)))

/-- A container is its two brackets and what stands between them. -/
theorem spells_container {opening closing : Char} {start stop : Token} {inside : List Char}
    {ts : List Token} (gap : List Char)
    (starts : ∀ rest, next? (opening :: rest) = some (start, rest))
    (stops : ∀ rest, next? (closing :: rest) = some (stop, rest))
    (solid : isBlank opening = false ∧ isBlank closing = false)
    (blank : ∀ c ∈ gap, isBlank c = true) (ended : Numeral.EndsNumber (gap ++ [closing]))
    (spelled : Spells inside ts) :
    Spells (opening :: (inside ++ (gap ++ [closing]))) (start :: (ts ++ [stop])) := by
  intro rest more _ cuts
  have last : Cuts (gap ++ closing :: rest) (stop :: more) :=
    .blanks blank (.mark solid.2 (stops rest) cuts)
  simp only [List.cons_append, List.append_assoc, List.nil_append]
  refine .mark solid.1 (starts _) (spelled _ _ ?_ last)
  cases gap with
  | nil => exact ended
  | cons c gap => exact ended

theorem spells_null : Spells ['n', 'u', 'l', 'l'] [.null] :=
  fun _ _ _ cuts => .word rfl rfl cuts

theorem spells_bool (b : Bool) : Spells (Json.bool b).writeScalar [.bool b] := by
  intro rest more _ cuts
  cases b with
  | true => exact .word rfl rfl cuts
  | false => exact .word rfl rfl cuts

theorem spells_int (i : Int) : Spells (writeInt i) [.number (Numeral.ofInt i)] := by
  intro rest more ends cuts
  rw [Numeral.writeInt_eq_chars]
  exact cuts_number (Numeral.proper_ofInt i) ends cuts

theorem spells_float (x : Double) : Spells (x.chars .document) [.number x.numeral] := by
  intro rest more ends cuts
  rw [x.chars_document]
  exact cuts_number x.proper_numeral ends cuts

theorem spells_string (s : String) : Spells (writeString s) [.string (some s)] :=
  fun _ _ _ cuts => cuts_writeString s cuts

theorem spells_compactChars (j : Json) : Spells j.compactChars j.tokens := by
  induction j using tree_induction with
  | null | unreadable => exact spells_null
  | bool b => exact spells_bool b
  | int i => exact spells_int i
  | float x => exact spells_float x
  | string s => exact spells_string s
  | array items ih =>
    rw [compactChars, compactItems_eq_joined, tokens, itemTokens_eq_map]
    exact spells_container [] (fun _ => rfl) (fun _ => rfl) ⟨rfl, rfl⟩ (by simp)
      (Numeral.endsNumber_cons (by decide)) (spells_joined (by simp) ih)
  | object members ih =>
    rw [compactChars, compactMembers_eq_joined, tokens, memberTokens_eq_map]
    exact spells_container [] (fun _ => rfl) (fun _ => rfl) ⟨rfl, rfl⟩ (by simp)
      (Numeral.endsNumber_cons (by decide))
      (spells_joined (by simp) fun e mem => spells_member (by simp) (ih e mem))

theorem endsNumber_newLine (depth : Nat) (rest : List Char) :
    Numeral.EndsNumber (newLine depth ++ rest) :=
  Numeral.endsNumber_cons (by decide)

theorem spells_prettyChars (j : Json) (depth : Nat) : Spells (j.prettyChars depth) j.tokens := by
  induction j using tree_induction generalizing depth with
  | null | unreadable => exact spells_null
  | bool b => exact spells_bool b
  | int i => exact spells_int i
  | float x => exact spells_float x
  | string s => exact spells_string s
  | array items ih =>
    cases items with
    | nil => exact fun rest more _ cuts => .mark rfl rfl (.mark rfl rfl cuts)
    | cons item tail =>
      rw [prettyChars, prettyItems_eq_joined, tokens, itemTokens_eq_map, List.append_assoc]
      · exact spells_container (newLine depth) (fun _ => rfl) (fun _ => rfl) ⟨rfl, rfl⟩
          isBlank_of_mem_newLine (endsNumber_newLine depth _)
          (spells_joined isBlank_of_mem_newLine fun item mem => ih item mem (depth + 1))
      · simp
  | object members ih =>
    cases members with
    | nil => exact fun rest more _ cuts => .mark rfl rfl (.mark rfl rfl cuts)
    | cons e tail =>
      rw [prettyChars, prettyMembers_eq_joined, tokens, memberTokens_eq_map, List.append_assoc]
      · exact spells_container (newLine depth) (fun _ => rfl) (fun _ => rfl) ⟨rfl, rfl⟩
          isBlank_of_mem_newLine (endsNumber_newLine depth _)
          (spells_joined isBlank_of_mem_newLine fun e mem =>
            spells_member isBlank_of_mem_singleton (ih e mem (depth + 1)))
      · simp

/-- A tree without blanks is cut into its tokens. -/
theorem scan?_compactChars (j : Json) : scan? j.compactChars = some j.tokens := by
  have cuts := spells_compactChars j [] [] Numeral.endsNumber_nil .nil
  rw [List.append_nil, List.append_nil] at cuts
  exact scan?_of_cuts cuts

/-- A tree with one item a line is cut into its tokens. -/
theorem scan?_prettyChars (j : Json) : scan? (j.prettyChars 0) = some j.tokens := by
  have cuts := spells_prettyChars j 0 [] [] Numeral.endsNumber_nil .nil
  rw [List.append_nil, List.append_nil] at cuts
  exact scan?_of_cuts cuts

end Token

end Footprint.Json
