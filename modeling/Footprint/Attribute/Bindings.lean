import Footprint.Attribute.Basic

/-!
Lists of bindings.

The bindings of a log are an ordered list. Looking an attribute up finds its first binding; all
changes give a new list.

* `Bindings.dedup` keeps the first binding of each attribute.
* `Bindings.ofLog` starts a list: one binding without unit for each numeric attribute of the log.
* `Bindings.reconcile` brings a list in line with the log: the numeric attributes of the log come
  first, with the units they have, and the other bindings follow.
-/

namespace Footprint

/-- The elements whose key has not come up before. -/
def firstsBy {α β : Type} [DecidableEq β] (key : α → β) : List α → List α
  | [] => []
  | a :: rest => a :: (firstsBy key rest).filter fun b => key b ≠ key a

/-- Bindings in the order of their list. -/
abbrev Bindings := List Binding

namespace Bindings

/-- The place of the first binding of an attribute. -/
def index? (a : Attribute) (bs : Bindings) : Option Nat := bs.findIdx? fun b => b.subject = a

/-- Whether the attribute has a binding, with a unit or without. -/
def isBound (a : Attribute) (bs : Bindings) : Bool := (index? a bs).isSome

/-- The first binding of an attribute. -/
def find? (a : Attribute) (bs : Bindings) : Option Binding := List.find? (fun b => b.subject = a) bs

/-- The unit of an attribute; `none` also where it has no binding. -/
def unitOf (a : Attribute) (bs : Bindings) : Option MeasureUnit := (find? a bs).bind (·.unit)

/-- The list with another unit for an attribute, which has to be bound. -/
def assign (a : Attribute) (unit : Option MeasureUnit) (bs : Bindings) : Except Error Bindings :=
  match index? a bs with
  | some i => .ok (bs.modify i fun b => { b with unit := unit })
  | none => .error (.unknownAttribute a.display)

/-- A binding for each of the attributes, in order; without a unit where there is none. -/
def select (attributes : List Attribute) (bs : Bindings) : Bindings :=
  attributes.map fun a => ⟨a, unitOf a bs⟩

/-- The first binding of each attribute. -/
def dedup (bs : Bindings) : Bindings := firstsBy (·.subject) bs

/-- A binding without unit for each numeric attribute. -/
def ofLog (log : List Descriptor) : Bindings :=
  (firstsBy (·.subject) (log.filter (·.numeric))).map fun d => .unbound d.subject

/-- The bindings in line with the log. -/
def reconcile (bs : Bindings) (log : List Descriptor) : Bindings :=
  let existing := dedup bs
  let listed := (ofLog log).map fun b => (find? b.subject existing).getD b
  listed ++ existing.filter fun b => !isBound b.subject listed

/-- The dimension of the product of the bound attributes; one without unit is a pure number. -/
def requiredDimension (bs : Bindings) : Except Error Dimension :=
  Dimension.product (bs.map fun b => (b.unit.map (·.dim)).getD Dimension.one)

end Bindings

end Footprint
