import Footprint.Boundary
import Footprint.Proofs.Text.Blank

/-!
Arguments of calls over the boundary.

A parameter says how its argument is read, and what it stands for if it may be omitted. What the
text of an argument holds is a relation, `Parameter.Reads`; the readers of the boundary compute it
(`Parameter.Computes`), and fail in one way only.

* `Parameter.computes_mandatory`, `Parameter.computes_optional`, `Parameter.computes_defaulted`
-/

namespace Footprint.Boundary

/-! ### What an argument holds -/

/-- The argument is blank or the word `null`, with blanks around it. -/
def Omitted (text : String) : Prop := Text.Padded "" text ∨ Text.Padded "null" text

/-- How an argument is read, and what it stands for if it may be omitted. -/
structure Parameter (α : Type) where
  value? : Json → Option α
  default? : Option α

namespace Parameter

variable {α : Type}

/-- An argument that may not be omitted. -/
def mandatory (value? : Json → Option α) : Parameter α := ⟨value?, none⟩

/-- An argument that may be omitted. -/
def optional (value? : Json → Option α) : Parameter (Option α) :=
  ⟨fun j => (value? j).map some, some none⟩

/-- An argument that stands for a default when it is omitted. -/
def defaulted (value? : Json → Option α) (value : α) : Parameter α := ⟨value?, some value⟩

/-- The text of an argument holds this value. -/
inductive Reads (p : Parameter α) (text : String) : α → Prop where
  | omitted {a : α} (omitted : Omitted text) (default : p.default? = some a) : Reads p text a
  | document {j : Json} {a : α} (given : Omitted text → p.default? = none)
      (read : Json.read? text = some j) (value : p.value? j = some a) : Reads p text a

/-- The text holds a value. -/
def Readable (p : Parameter α) (text : String) : Prop := ∃ a, p.Reads text a

/-- The function reads the arguments of a parameter. -/
structure Computes (p : Parameter α) (f : String → Except Error α) : Prop where
  ok : ∀ {text a}, p.Reads text a ↔ f text = .ok a
  error : ∀ {text e}, f text = .error e → e = .document

end Parameter

/-! ### How arguments are read -/

theorem omitted_iff {text : String} :
    Text.isAllBlank text = true ∨ Text.trim text = "null" ↔ Omitted text :=
  or_congr Text.isAllBlank_iff (Text.trim_eq_iff ⟨by decide, by decide⟩)

theorem argument_eq_ok_iff {α : Type} {value? : Json → Option α} {text : String} {a : α} :
    argument value? text = .ok a ↔ ∃ j, Json.read? text = some j ∧ value? j = some a := by
  rw [← Option.bind_eq_some_iff, argument]
  cases (Json.read? text).bind value? with
  | none => exact ⟨nofun, nofun⟩
  | some b => exact ⟨fun same => by cases same; rfl, fun same => by cases same; rfl⟩

theorem argument_error {α : Type} {value? : Json → Option α} {text : String} {e : Error}
    (failed : argument value? text = .error e) : e = .document := by
  unfold argument at failed
  split at failed
  · cases failed
  · cases failed
    rfl

theorem argument_map {α β : Type} (g : α → β) (value? : Json → Option α) (text : String) :
    argument (fun j => (value? j).map g) text = (argument value? text).map g := by
  unfold argument
  cases Json.read? text with
  | none => rfl
  | some j => cases found : value? j <;> simp [found, Except.map]

theorem optionalArgument_of_omitted {α : Type} {value? : Json → Option α} {text : String}
    (omitted : Omitted text) : optionalArgument value? text = .ok none :=
  if_pos (omitted_iff.mpr omitted)

theorem optionalArgument_of_given {α : Type} {value? : Json → Option α} {text : String}
    (given : ¬ Omitted text) : optionalArgument value? text = (argument value? text).map some :=
  if_neg fun test => given (omitted_iff.mp test)

namespace Parameter

variable {α : Type} {p : Parameter α} {text : String} {a : α}

/-- A function reads a parameter if it gives the default where that applies, and otherwise what the
document holds. -/
theorem computes_of {f : String → Except Error α}
    (omitted : ∀ text a, Omitted text → p.default? = some a → f text = .ok a)
    (given : ∀ text, (Omitted text → p.default? = none) → f text = argument p.value? text) :
    p.Computes f where
  ok {text a} := by
    constructor
    · intro reads
      cases reads with
      | omitted blank default => exact omitted text a blank default
      | document kept read value =>
        rw [given text kept]
        exact argument_eq_ok_iff.mpr ⟨_, read, value⟩
    · intro read
      by_cases kept : Omitted text → p.default? = none
      · rw [given text kept] at read
        obtain ⟨j, document, value⟩ := argument_eq_ok_iff.mp read
        exact .document kept document value
      · obtain ⟨blank, some⟩ := Classical.not_imp.mp kept
        obtain ⟨b, default⟩ := Option.ne_none_iff_exists'.mp some
        rw [omitted text b blank default] at read
        cases read
        exact .omitted blank default
  error {text e} failed := by
    by_cases kept : Omitted text → p.default? = none
    · rw [given text kept] at failed
      exact argument_error failed
    · obtain ⟨blank, some⟩ := Classical.not_imp.mp kept
      obtain ⟨b, default⟩ := Option.ne_none_iff_exists'.mp some
      rw [omitted text b blank default] at failed
      cases failed

theorem computes_mandatory (value? : Json → Option α) :
    (mandatory value?).Computes (argument value?) :=
  computes_of (fun _ _ _ default => nomatch default) fun _ _ => rfl

theorem computes_optional (value? : Json → Option α) :
    (optional value?).Computes (optionalArgument value?) := by
  refine computes_of (fun text a omitted default => ?_) fun text given => ?_
  · cases default
    exact optionalArgument_of_omitted omitted
  · rw [optionalArgument_of_given fun omitted => nomatch given omitted]
    exact (argument_map some value? text).symm

theorem computes_defaulted (value? : Json → Option α) (value : α) :
    (defaulted value? value).Computes
      fun text => (optionalArgument value? text).map (·.getD value) := by
  refine computes_of (fun text a omitted default => ?_) fun text given => ?_
  · cases default
    rw [optionalArgument_of_omitted omitted]
    rfl
  · rw [optionalArgument_of_given fun omitted => nomatch given omitted]
    show _ = argument value? text
    cases argument value? text <;> rfl

/-- What holds no value is answered with a failure to read. -/
theorem Computes.of_not_readable {f : String → Except Error α} (computes : p.Computes f)
    (unreadable : ¬ p.Readable text) : f text = .error .document := by
  cases read : f text with
  | ok a => exact absurd ⟨a, computes.ok.mpr read⟩ unreadable
  | error e => rw [computes.error read]

/-- Reading goes wrong here or later. -/
theorem Computes.bind_eq_error {β : Type} {f : String → Except Error α} (computes : p.Computes f)
    {next : α → Except Error β} (rest : ∀ a, p.Reads text a → next a = .error .document) :
    (f text >>= next) = .error .document := by
  by_cases readable : p.Readable text
  · obtain ⟨a, reads⟩ := readable
    rw [computes.ok.mp reads]
    exact rest a reads
  · rw [computes.of_not_readable readable]
    rfl

/-- A default applies to the value that an optional argument may hold. -/
theorem exists_of_reads_defaulted {value? : Json → Option α} {value : α}
    (reads : (defaulted value? value).Reads text a) :
    ∃ held, optionalArgument value? text = .ok held ∧ held.getD value = a := by
  have read := (computes_defaulted value? value).ok.mp reads
  cases found : optionalArgument value? text with
  | ok held =>
    rw [found] at read
    exact ⟨held, rfl, Except.ok.inj read⟩
  | error e =>
    rw [found] at read
    cases read

theorem optionalArgument_of_not_readable {value? : Json → Option α} {value : α}
    (unreadable : ¬ (defaulted value? value).Readable text) :
    optionalArgument value? text = .error .document := by
  have failed := (computes_defaulted value? value).of_not_readable unreadable
  cases found : optionalArgument value? text with
  | ok held =>
    rw [found] at failed
    cases failed
  | error e =>
    rw [found] at failed
    exact congrArg Except.error (Except.error.inj failed)

end Parameter

end Footprint.Boundary
