import Footprint.Proofs.Dimension.Product
import Footprint.Proofs.UnitType.Name
import Footprint.UnitType.Registry

/-!
Registries built from declarations.

A product is declared by its name alone, which is cut at the separator into the names of its
factors. `Declares` says what one declaration does to the unit types declared before it, without the
cutting and the searching; `Built` says what a whole list of declarations leaves behind.

* `declareNext?_eq_iff`: a declaration does what `Declares` says and nothing else;
* `Built.declared`: one more declaration keeps what a registry says of those before it;
* `buildsAsDeclared`: in every registry that can be built no name describes a quotient, and every
  product is one of two atomic unit types declared before it.
-/

namespace Footprint

open UnitType (QuotientName StandsAt separator)

/-! ### Names of products -/

/-- In a name, the separator stands between two parts and nowhere else. -/
structure ProductName (name first second : String) : Prop where
  whole : name.toList = first.toList ++ separator ++ second.toList
  first_ne : first ≠ ""
  second_ne : second ≠ ""
  once : ∀ place, StandsAt separator name.toList place ↔ place = first.toList.length
  first_free : ∀ place, ¬ StandsAt separator first.toList place
  second_free : ∀ place, ¬ StandsAt separator second.toList place

/-- A name without a separator, or with nothing on one side of it. -/
def Undivided (name : String) : Prop :=
  (∀ place, ¬ StandsAt separator name.toList place) ∨
    separator <+: name.toList ∨ separator <:+ name.toList

section Names

variable {name : String} {f s : List Char}

/-- Where a name does not describe a quotient, the separator stands at one place at most. -/
theorem standsAt_iff_of_single (single : ¬ QuotientName name)
    (whole : name.toList = f ++ separator ++ s) (place : Nat) :
    StandsAt separator name.toList place ↔ place = f.length := by
  have here : StandsAt separator name.toList f.length := whole ▸ UnitType.standsAt_length
  constructor
  · intro stands
    rcases Nat.lt_trichotomy place f.length with less | same | more
    · exact absurd (.inl ⟨_, _, less, stands, here⟩) single
    · exact same
    · exact absurd (.inl ⟨_, _, more, here, stands⟩) single
  · rintro rfl
    exact here

/-- The two parts of a name are shorter than it. -/
theorem ProductName.ne {first second : String} (parts : ProductName name first second) :
    name ≠ first ∧ name ≠ second := by
  have lengths := congrArg List.length parts.whole
  have some : 0 < separator.length := by decide
  simp only [List.length_append] at lengths
  constructor
  · rintro rfl
    omega
  · rintro rfl
    omega

theorem productName_of_split (single : ¬ QuotientName name)
    (whole : name.toList = f ++ separator ++ s) (before : f ≠ []) (behind : s ≠ []) :
    ProductName name (String.ofList f) (String.ofList s) := by
  have once := standsAt_iff_of_single single whole
  constructor
  case whole => simpa only [String.toList_ofList] using whole
  case first_ne => simpa using before
  case second_ne => simpa using behind
  case once => simpa only [String.toList_ofList] using once
  case first_free =>
    intro place stands
    rw [String.toList_ofList] at stands
    have inName : StandsAt separator name.toList place := by
      rw [whole, List.append_assoc]
      exact stands.append _
    rw [(once place).mp inName, StandsAt, List.drop_length, List.prefix_nil] at stands
    exact absurd stands (by decide)
  case second_free =>
    intro place stands
    rw [String.toList_ofList] at stands
    have inName : StandsAt separator name.toList ((f ++ separator).length + place) := by
      rw [whole]
      exact UnitType.standsAt_append.mpr stands
    have tooFar := (once _).mp inName
    have some : 0 < separator.length := by decide
    rw [List.length_append] at tooFar
    omega

end Names

namespace Registry

section Names

variable {name first second : String}

theorem factorNames?_of_productName (parts : ProductName name first second) :
    factorNames? name = .ok (first, second) := by
  have cut : UnitType.splitName? name.toList = some (first.toList, second.toList) := by
    refine UnitType.splitName?_eq_some_iff.mpr ⟨parts.whole, fun place less stands => ?_⟩
    exact absurd ((parts.once place).mp stands) (Nat.ne_of_lt less)
  have some : ¬ (first.toList.isEmpty = true ∨ second.toList.isEmpty = true) := by
    simp [parts.first_ne, parts.second_ne]
  simp only [factorNames?, cut, if_neg some, String.ofList_toList]

theorem factorNames?_of_undivided (single : ¬ QuotientName name) (undivided : Undivided name) :
    factorNames? name = .error (.unknownUnitType name) := by
  unfold factorNames?
  cases cut : UnitType.splitName? name.toList with
  | none => rfl
  | some parts =>
    obtain ⟨f, s⟩ := parts
    obtain ⟨whole, -⟩ := UnitType.splitName?_eq_some_iff.mp cut
    have once := standsAt_iff_of_single single whole
    refine if_pos ?_
    rw [List.isEmpty_iff, List.isEmpty_iff]
    rcases undivided with nowhere | atFront | atEnd
    · exact absurd ((once _).mpr rfl) (nowhere _)
    · exact .inl (List.length_eq_zero_iff.mp ((once 0).mp atFront).symm)
    · obtain ⟨t, ends⟩ := atEnd
      have same : t.length = f.length := by
        refine (once _).mp ?_
        have stands : StandsAt UnitType.separator (t ++ UnitType.separator ++ []) t.length :=
          UnitType.standsAt_length
        rwa [List.append_nil, ends] at stands
      have lengths := congrArg List.length (ends.trans whole)
      simp only [List.length_append] at lengths
      exact .inr (List.length_eq_zero_iff.mp (by omega))

/-- A name that does not describe a quotient is that of a product unless it is undivided. -/
theorem exists_productName (single : ¬ QuotientName name) (divided : ¬ Undivided name) :
    ∃ first second, ProductName name first second := by
  cases cut : UnitType.splitName? name.toList with
  | none => exact absurd (.inl (UnitType.splitName?_eq_none_iff.mp cut)) divided
  | some parts =>
    obtain ⟨f, s⟩ := parts
    obtain ⟨whole, -⟩ := UnitType.splitName?_eq_some_iff.mp cut
    refine ⟨_, _, productName_of_split single whole ?_ ?_⟩
    · rintro rfl
      exact divided (.inr (.inl ⟨s, whole.symm⟩))
    · rintro rfl
      exact divided (.inr (.inr ⟨f, by rw [whole, List.append_nil]⟩))

end Names

/-! ### Factors -/

/-- An atomic unit type of this name. -/
def Atomic (name : String) (d : UnitType) : Prop := d.name = name ∧ d.isComposed = false

/-- The first atomic unit type of a name among some types. -/
structure FirstAtomic (types : List UnitType) (name : String) (d : UnitType) : Prop where
  atomic : Atomic name d
  first : ∃ before after, types = before ++ d :: after ∧ ∀ e ∈ before, ¬ Atomic name e

/-- No atomic unit type has the name. -/
def NoAtomic (types : List UnitType) (name : String) : Prop := ∀ d ∈ types, ¬ Atomic name d

/-- The name is that of the product of two unit types, each the first atomic one of its part. -/
structure Factors (types : List UnitType) (name : String) (a b : UnitType) : Prop where
  parts : ProductName name a.name b.name
  first : FirstAtomic types a.name a
  second : FirstAtomic types b.name b

section Factors

variable {r : Registry} {name : String} {a b d : UnitType}

theorem atomic?_of_firstAtomic (first : FirstAtomic r.definitions name d) :
    r.atomic? name = .ok d := by
  obtain ⟨atomic, before, after, split, others⟩ := first
  have found : r.definitions.find? (fun d => d.name = name ∧ ¬ d.isComposed) = some d := by
    refine List.find?_eq_some_iff_append.mpr ⟨?_, before, after, split, fun e mem => ?_⟩
    · simpa [Atomic] using atomic
    · simpa [Atomic, imp_iff_not_or] using others e mem
  rw [atomic?, found]

theorem atomic?_of_noAtomic (none : NoAtomic r.definitions name) :
    r.atomic? name = .error (.unknownUnitType name) := by
  have missing : r.definitions.find? (fun d => d.name = name ∧ ¬ d.isComposed) = Option.none := by
    refine List.find?_eq_none.mpr fun d mem => ?_
    simpa [Atomic] using none d mem
  rw [atomic?, missing]

theorem exists_firstAtomic {types : List UnitType} (some : ¬ NoAtomic types name) :
    ∃ d, FirstAtomic types name d := by
  cases found : types.find? (fun d => d.name = name ∧ ¬ d.isComposed) with
  | none =>
    refine absurd (fun d mem => ?_) some
    simpa [Atomic] using List.find?_eq_none.mp found d mem
  | some d =>
    obtain ⟨fits, before, after, split, others⟩ := List.find?_eq_some_iff_append.mp found
    refine ⟨d, ?_, before, after, split, fun e mem => ?_⟩
    · simpa [Atomic] using fits
    · simpa [Atomic, imp_iff_not_or] using others e mem

end Factors

/-! ### Products -/

/-- `d` is the product of `a` and `b`, and has this name. -/
structure ProductOf (name : String) (a b d : UnitType) : Prop where
  named : d.name = name
  composed : ∃ dim, d = .composed dim a b
  /-- Its exponents are the exact sums of theirs. -/
  exponents : ∀ base, (d.dim.exponent base).toInt = (a.dim.exponent base).toInt +
    (b.dim.exponent base).toInt
  /-- It has one symbol for each pair of theirs, … -/
  length_symbols : d.symbols.length = a.symbols.length * b.symbols.length
  /-- … in the order of the first and then of the second. -/
  symbols : ∀ i j x y, a.symbols[i]? = some x → b.symbols[j]? = some y →
    d.symbols[i * b.symbols.length + j]? = some (x ++ "*" ++ y)

/-- Pairs stand in the order of the first and then of the second. -/
theorem getElem?_pairs {α β γ : Type} (f : α → β → γ) (first : List α) (second : List β) {i j : Nat}
    {x : α} {y : β} (atFirst : first[i]? = some x) (atSecond : second[j]? = some y) :
    (first.flatMap fun a => second.map (f a))[i * second.length + j]? = some (f x y) := by
  have inside : j < second.length := (List.getElem?_eq_some_iff.mp atSecond).1
  induction first generalizing i with
  | nil => cases atFirst
  | cons a rest ih =>
    rw [List.flatMap_cons]
    cases i with
    | zero =>
      cases atFirst
      rw [Nat.zero_mul, Nat.zero_add, List.getElem?_append_left (by rwa [List.length_map]),
        List.getElem?_map, atSecond, Option.map_some]
    | succ i =>
      have later : (i + 1) * second.length + j = (second.map (f a)).length +
          (i * second.length + j) := by
        rw [List.length_map, Nat.succ_mul]
        omega
      rw [later, List.getElem?_append_right (Nat.le_add_right ..), Nat.add_sub_cancel_left]
      exact ih atFirst

section Products

variable {name : String} {a b d : UnitType}

theorem productOf_composed {dim : Dimension} (parts : ProductName name a.name b.name)
    (product : a.dim.mul b.dim = .ok dim) : ProductOf name a b (.composed dim a b) where
  named := by
    refine String.toList_inj.mp ?_
    rw [parts.whole, UnitType.name, String.toList_append, String.toList_append,
      String.toList_ofList]
  composed := ⟨dim, rfl⟩
  exponents := by
    cases Dimension.mul_eq_iff.mp product with
    | exact value => exact value
  length_symbols := by
    simp only [UnitType.symbols, List.length_flatMap, List.length_map, List.map_const',
      List.sum_replicate_nat]
  symbols _ _ _ _ atFirst atSecond :=
    getElem?_pairs (fun x y => x ++ "*" ++ y) _ _ atFirst atSecond

theorem ProductOf.compose (product : ProductOf name a b d) : UnitType.compose a b = .ok d := by
  obtain ⟨dim, rfl⟩ := product.composed
  have exact : a.dim.mul b.dim = .ok dim := Dimension.mul_eq_iff.mpr (.exact product.exponents)
  rw [UnitType.compose, exact]
  rfl

end Products

/-! ### One declaration -/

/-- The name that is declared. -/
def Declaration.name : Declaration → String
  | .asIs d => d.name
  | .product name => name

/-- `d` is what is declared behind `types`: the given unit type, or the product of two of them. -/
inductive Gives (types : List UnitType) : Declaration → UnitType → Prop where
  | asIs {d : UnitType} : Gives types (.asIs d) d
  | product {name : String} {a b d : UnitType} : Factors types name a b → ProductOf name a b d →
      Gives types (.product name) d

/-- What a declaration does to the unit types declared before it. -/
inductive Declares (types : List UnitType) : Declaration → Except Error Registry → Prop where
  | quotient {next : Declaration} : QuotientName next.name →
      Declares types next (.error (.quotientUnitType next.name))
  | undivided {name : String} : ¬ QuotientName name → Undivided name →
      Declares types (.product name) (.error (.unknownUnitType name))
  | unknownFirst {name first second : String} : ¬ QuotientName name →
      ProductName name first second → NoAtomic types first →
      Declares types (.product name) (.error (.unknownUnitType first))
  | unknownSecond {name first second : String} {a : UnitType} : ¬ QuotientName name →
      ProductName name first second → FirstAtomic types first a → NoAtomic types second →
      Declares types (.product name) (.error (.unknownUnitType second))
  | overflow {name base : String} {a b : UnitType} : ¬ QuotientName name →
      Factors types name a b → ¬ ExponentRange (a.dim.productExponent b.dim base) →
      (∀ other, Text.BytesBefore other base →
        ExponentRange (a.dim.productExponent b.dim other)) →
      Declares types (.product name) (.error (.exponentOverflow base))
  | declared {next : Declaration} {d : UnitType} : ¬ QuotientName next.name →
      Gives types next d → Declares types next (.ok ⟨types ++ [d]⟩)

section Declares

variable {r : Registry} {next : Declaration} {answer : Except Error Registry} {name : String}

theorem checkName_of_quotientName (quotient : QuotientName name) :
    checkName name = .error (.quotientUnitType name) :=
  if_pos (UnitType.describesQuotient_iff.mpr quotient)

theorem checkName_of_not (single : ¬ QuotientName name) : checkName name = .ok ⟨⟩ :=
  if_neg (mt UnitType.describesQuotient_iff.mp single)

theorem declare?_of_quotientName {d : UnitType} (quotient : QuotientName d.name) :
    r.declare? d = .error (.quotientUnitType d.name) := by
  rw [declare?, checkName_of_quotientName quotient]
  rfl

theorem declare?_of_single {d : UnitType} (single : ¬ QuotientName d.name) :
    r.declare? d = .ok ⟨r.definitions ++ [d]⟩ := by
  rw [declare?, checkName_of_not single]
  rfl

theorem declareProduct?_of_quotientName (quotient : QuotientName name) :
    r.declareProduct? name = .error (.quotientUnitType name) := by
  rw [declareProduct?, checkName_of_quotientName quotient]
  rfl

/-- Where a name is fit to be declared, it is cut, both factors are looked up, and multiplied. -/
theorem declareProduct?_of_single (single : ¬ QuotientName name) :
    r.declareProduct? name = (factorNames? name).bind fun (first, second) =>
      (r.atomic? first).bind fun a => (r.atomic? second).bind fun b =>
        (UnitType.compose a b).map fun product => ⟨r.definitions ++ [product]⟩ := by
  rw [declareProduct?, checkName_of_not single]
  rfl

theorem compose_of_overflow {a b : UnitType} {base : String}
    (leaves : ¬ ExponentRange (a.dim.productExponent b.dim base))
    (before : ∀ other, Text.BytesBefore other base →
      ExponentRange (a.dim.productExponent b.dim other)) :
    UnitType.compose a b = .error (.exponentOverflow base) := by
  rw [UnitType.compose, Dimension.mul_eq_iff.mpr (.overflow leaves before)]
  rfl

/-- A product of known factors is declared if their exponents can be added. -/
theorem declareProduct?_of_factors {a b : UnitType} (single : ¬ QuotientName name)
    (factors : Factors r.definitions name a b) :
    r.declareProduct? name =
      (UnitType.compose a b).map fun product => ⟨r.definitions ++ [product]⟩ := by
  simp only [declareProduct?_of_single single, factorNames?_of_productName factors.parts,
    atomic?_of_firstAtomic factors.first, atomic?_of_firstAtomic factors.second, Except.bind]

theorem Declares.declareNext?_eq (declares : Declares r.definitions next answer) :
    r.declareNext? next = answer := by
  cases declares with
  | quotient quotient =>
    cases next with
    | asIs d => exact declare?_of_quotientName quotient
    | product name => exact declareProduct?_of_quotientName quotient
  | undivided single undivided =>
    rw [declareNext?, declareProduct?_of_single single, factorNames?_of_undivided single undivided]
    rfl
  | unknownFirst single parts none =>
    simp only [declareNext?, declareProduct?_of_single single, factorNames?_of_productName parts,
      atomic?_of_noAtomic none, Except.bind]
  | unknownSecond single parts first none =>
    simp only [declareNext?, declareProduct?_of_single single, factorNames?_of_productName parts,
      atomic?_of_firstAtomic first, atomic?_of_noAtomic none, Except.bind]
  | overflow single factors leaves before =>
    rw [declareNext?, declareProduct?_of_factors single factors, compose_of_overflow leaves before]
    rfl
  | declared single gives =>
    cases gives with
    | asIs => exact declare?_of_single single
    | @product name a b d factors product =>
      have fits : ¬ QuotientName name := single
      rw [declareNext?, declareProduct?_of_factors fits factors, product.compose]
      rfl

/-- Every declaration does something. -/
theorem exists_declares (types : List UnitType) (next : Declaration) :
    ∃ answer, Declares types next answer := by
  by_cases quotient : QuotientName next.name
  · exact ⟨_, .quotient quotient⟩
  cases next with
  | asIs d => exact ⟨_, .declared quotient .asIs⟩
  | product name =>
    by_cases undivided : Undivided name
    · exact ⟨_, .undivided quotient undivided⟩
    obtain ⟨first, second, parts⟩ := exists_productName quotient undivided
    by_cases firstNone : NoAtomic types first
    · exact ⟨_, .unknownFirst quotient parts firstNone⟩
    obtain ⟨a, aFirst⟩ := exists_firstAtomic firstNone
    by_cases secondNone : NoAtomic types second
    · exact ⟨_, .unknownSecond quotient parts aFirst secondNone⟩
    obtain ⟨b, bFirst⟩ := exists_firstAtomic secondNone
    obtain ⟨rfl, -⟩ := aFirst.atomic
    obtain ⟨rfl, -⟩ := bFirst.atomic
    have factors : Factors types name a b := ⟨parts, aFirst, bFirst⟩
    cases product : a.dim.mul b.dim with
    | ok dim =>
      exact ⟨_, .declared quotient (.product factors (productOf_composed parts product))⟩
    | error e =>
      cases Dimension.mul_eq_iff.mp product with
      | overflow leaves before => exact ⟨_, .overflow quotient factors leaves before⟩

/-- A declaration does what `Declares` says, and nothing else. -/
theorem declareNext?_eq_iff :
    r.declareNext? next = answer ↔ Declares r.definitions next answer := by
  constructor
  · rintro rfl
    obtain ⟨answer, declares⟩ := exists_declares r.definitions next
    exact declares.declareNext?_eq ▸ declares
  · exact Declares.declareNext?_eq

end Declares

/-! ### Whole lists of declarations -/

/-- What a registry that was built says of its declarations. -/
structure Built (declarations : List Declaration) (r : Registry) : Prop where
  /-- There is one unit type for each declaration. -/
  length : r.definitions.length = declarations.length
  /-- It is what is declared behind the unit types before it. -/
  each : ∀ i next, declarations[i]? = some next →
    ∃ d, r.definitions[i]? = some d ∧ Gives (r.definitions.take i) next d
  /-- No name describes a quotient. -/
  single : ∀ d ∈ r.definitions, ¬ QuotientName d.name

theorem built_empty : Built [] empty := ⟨rfl, by simp, by simp [empty]⟩

section Built

variable {declarations before : List Declaration} {next : Declaration} {r s : Registry} {e : Error}

theorem Gives.name_eq {types : List UnitType} {d : UnitType} (gives : Gives types next d) :
    d.name = next.name := by
  cases gives with
  | asIs => rfl
  | product _ product => exact product.named

/-- One more declaration changes nothing about those before it. -/
theorem Built.declared (built : Built declarations r)
    (declares : Declares r.definitions next (.ok s)) : Built (declarations ++ [next]) s := by
  obtain ⟨length, each, single⟩ := built
  cases declares with
  | @declared _ d fits gives =>
    constructor
    case length => simp [length]
    case each =>
      intro i declared found
      show ∃ e, (r.definitions ++ [d])[i]? = some e ∧ Gives ((r.definitions ++ [d]).take i) _ e
      rcases Nat.lt_trichotomy i declarations.length with earlier | rfl | later
      · have inside : i < r.definitions.length := length ▸ earlier
        rw [List.getElem?_append_left earlier] at found
        rw [List.getElem?_append_left inside, List.take_append_of_le_length (Nat.le_of_lt inside)]
        exact each i declared found
      · rw [List.getElem?_concat_length] at found
        cases found
        rw [← length, List.getElem?_concat_length, List.take_left]
        exact ⟨d, rfl, gives⟩
      · have outside : (declarations ++ [next]).length ≤ i := by
          rwa [List.length_append, List.length_singleton]
        rw [List.getElem?_eq_none outside] at found
        cases found
    case single =>
      rw [List.forall_mem_append, List.forall_mem_singleton, gives.name_eq]
      exact ⟨single, fits⟩

theorem build?_concat :
    build? (before ++ [next]) = (build? before).bind fun r => r.declareNext? next := by
  simp only [build?, List.foldlM_append, List.foldlM_cons, List.foldlM_nil, bind_pure]
  rfl

/-- What is built lists the declarations. -/
theorem built_of_build? (made : build? declarations = .ok r) : Built declarations r := by
  induction declarations using List.reverseRecOn generalizing r with
  | nil =>
    cases made
    exact built_empty
  | append_singleton before next ih =>
    rw [build?_concat] at made
    cases earlier : build? before with
    | error e =>
      rw [earlier] at made
      cases made
    | ok r' =>
      rw [earlier] at made
      exact (ih earlier).declared (declareNext?_eq_iff.mp made)

/-- The first declaration that fails ends a list. -/
theorem build?_eq_error_iff : build? declarations = .error e ↔
    ∃ before next after r, declarations = before ++ next :: after ∧ build? before = .ok r ∧
      r.declareNext? next = .error e := by
  constructor
  · intro failed
    induction declarations using List.reverseRecOn with
    | nil => cases failed
    | append_singleton before next ih =>
      rw [build?_concat] at failed
      cases earlier : build? before with
      | error e' =>
        rw [earlier] at failed
        cases failed
        obtain ⟨first, lost, after, r, rfl, made, failed⟩ := ih earlier
        exact ⟨first, lost, after ++ [next], r, by simp, made, failed⟩
      | ok r =>
        rw [earlier] at failed
        exact ⟨before, next, [], r, rfl, earlier, failed⟩
  · rintro ⟨before, next, after, r, rfl, made, failed⟩
    rw [build?] at made ⊢
    rw [List.foldlM_append, made]
    show (after.foldlM declareNext? =<< r.declareNext? next) = .error e
    rw [failed]
    rfl

/-- What one declaration answers. -/
structure StepsAsDeclared (r : Registry) (next : Declaration) : Prop where
  answers : ∀ answer, r.declareNext? next = answer ↔ Declares r.definitions next answer
  quotient : r.declareNext? next = .error (.quotientUnitType next.name) ↔ QuotientName next.name
  undivided : ∀ name, next = .product name → ¬ QuotientName name →
    (r.declareNext? next = .error (.unknownUnitType name) ↔ Undivided name)

theorem stepsAsDeclared (r : Registry) (next : Declaration) : StepsAsDeclared r next where
  answers _ := declareNext?_eq_iff
  quotient := by
    rw [declareNext?_eq_iff]
    constructor
    · intro declares
      cases declares with
      | quotient quotient => exact quotient
    · exact .quotient
  undivided := by
    rintro name rfl single
    rw [declareNext?_eq_iff]
    constructor
    · intro declares
      cases declares with
      | undivided _ undivided => exact undivided
      | unknownFirst _ parts _ => exact absurd rfl parts.ne.1
      | unknownSecond _ parts _ _ => exact absurd rfl parts.ne.2
    · exact .undivided single

/-- What a list of declarations comes to, step by step and as a whole. -/
structure BuildsAsDeclared (declarations : List Declaration) : Prop where
  built : ∀ r, build? declarations = .ok r → Built declarations r
  /-- It fails with the first declaration that does. -/
  failed : ∀ e, build? declarations = .error e ↔
    ∃ before next after r, declarations = before ++ next :: after ∧ build? before = .ok r ∧
      r.declareNext? next = .error e
  steps : ∀ before next after r, declarations = before ++ next :: after →
    build? before = .ok r → StepsAsDeclared r next

/-- A registry lists what was declared: every product is one of the first two atomic unit types of
its parts, and no name describes a quotient. -/
theorem buildsAsDeclared (declarations : List Declaration) : BuildsAsDeclared declarations where
  built _ := built_of_build?
  failed _ := build?_eq_error_iff
  steps _ next _ r _ _ := stepsAsDeclared r next

/-- A product accepts each pair of symbols, those of its first factor in front. -/
example : (build? [.asIs (.atomic "Weight" "Weight" (.base Dimension.mass) ["g", "kg"]),
    .asIs (.atomic "Time" "Time" (.base Dimension.time) ["h", "s"]),
    .product "WeightOverTime"]).toOption.map (fun r => r.definitions.map (·.symbols)) =
      some [["g", "kg"], ["h", "s"], ["g*h", "g*s", "kg*h", "kg*s"]] := by
  decide +kernel

end Built

end Registry

end Footprint
