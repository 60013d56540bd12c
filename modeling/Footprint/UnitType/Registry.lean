import Footprint.UnitType.Basic
import Footprint.Unit.Table

/-!
The registry of unit types.

A registry lists unit types in the order of their declaration, and answers which of them have a
dimension. `Registry.declare?` and `Registry.declareProduct?` add to it: products are declared by
name, and their factors are atomic types declared before. `Registry.build?` builds a registry from
declarations.
-/

namespace Footprint

/-- Unit types in the order of their declaration. -/
structure Registry where
  definitions : List UnitType
deriving DecidableEq, Repr, Inhabited

namespace Registry

/-- The registry without unit types. -/
def empty : Registry := ⟨[]⟩

/-- The first unit type of a name. -/
def get? (r : Registry) (name : String) : Option UnitType :=
  r.definitions.find? fun d => d.name = name

/-- The names of the unit types of a dimension, in order. -/
def matching (r : Registry) (dim : Dimension) : List String :=
  (r.definitions.filter fun d => d.dim = dim).map (·.name)

/-! ### Declarations -/

/-- Refuse the name of a quotient. -/
def checkName (name : String) : Except Error PUnit :=
  if UnitType.describesQuotient name then .error (.quotientUnitType name) else .ok ⟨⟩

/-- Add a unit type as it is. -/
def declare? (r : Registry) (d : UnitType) : Except Error Registry := do
  checkName d.name
  return ⟨r.definitions ++ [d]⟩

/-- The first atomic unit type of a name. -/
def atomic? (r : Registry) (name : String) : Except Error UnitType :=
  match r.definitions.find? fun d => d.name = name ∧ ¬ d.isComposed with
  | some d => .ok d
  | none => .error (.unknownUnitType name)

/-- The names of the two factors of a product. -/
def factorNames? (name : String) : Except Error (String × String) :=
  match UnitType.splitName? name.toList with
  | some (first, second) =>
    if first.isEmpty ∨ second.isEmpty then .error (.unknownUnitType name)
    else .ok (String.ofList first, String.ofList second)
  | none => .error (.unknownUnitType name)

/-- Add the product that a name describes. -/
def declareProduct? (r : Registry) (name : String) : Except Error Registry := do
  checkName name
  let (first, second) ← factorNames? name
  let product ← UnitType.compose (← r.atomic? first) (← r.atomic? second)
  return ⟨r.definitions ++ [product]⟩

/-- A declaration: a unit type as it is, or the product that a name describes. -/
inductive Declaration where
  | asIs (d : UnitType)
  | product (name : String)
deriving DecidableEq, Repr

/-- Add what is declared. -/
def declareNext? (r : Registry) : Declaration → Except Error Registry
  | .asIs d => r.declare? d
  | .product name => r.declareProduct? name

/-- The registry of some declarations, in their order; the first failure ends it. -/
def build? (declarations : List Declaration) : Except Error Registry :=
  declarations.foldlM declareNext? empty

/-! ### The default registry -/

/-- The atomic unit types of the catalog. -/
def atomicTypes : List UnitType :=
  [.atomic "Number" "Number" .one ["number"],
   .atomic "Money" "Money" .currency
     ["eur", "usd", "gbp", "jpy", "cny", "chf", "cad", "aud", "inr", "sek"],
   .atomic "Weight" "Weight" QuantityKind.mass ["g", "kg", "t", "lb", "ton"],
   .atomic "Distance" "Distance" QuantityKind.length ["m", "km", "ft", "mi", "nmi"],
   .atomic "Area" "Area" QuantityKind.area ["m2", "km2", "ft2", "ha"],
   .atomic "Volume" "Volume" QuantityKind.volume ["ml", "l", "m3", "gal"],
   .atomic "Time" "Time" QuantityKind.time ["ms", "s", "min", "h", "day", "year"],
   .atomic "Force" "Force" QuantityKind.force ["N", "kN"],
   .atomic "Energy" "Energy" QuantityKind.energy
     ["Wh", "kWh", "MWh", "GWh", "J", "kJ", "MJ", "GJ", "BTU"],
   .atomic "Power" "Power" QuantityKind.power ["W", "kW", "MW"],
   .atomic "Data" "Data" QuantityKind.data ["B", "kB", "MB", "GB", "TB"],
   .atomic "ElectricCurrent" "Electric current" (.base Dimension.current) ["A"],
   .atomic "Temperature" "Temperature" (.base Dimension.temperature) ["K"],
   .atomic "AmountOfSubstance" "Amount of substance" (.base Dimension.substance) ["mol"],
   .atomic "LuminousIntensity" "Luminous intensity" (.base Dimension.luminosity) ["cd"]]

/-- The names of the products of the catalog. -/
def productNames : List String :=
  ["WeightOverDistance", "WeightOverTime", "NumberOverTime", "DataOverTime", "AreaOverTime"]

/-- The unit types of the catalog. -/
def default : Registry :=
  productNames.foldl (fun r name => (r.declareProduct? name).toOption.getD r) ⟨atomicTypes⟩

end Registry

end Footprint
