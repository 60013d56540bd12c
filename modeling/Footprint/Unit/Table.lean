import Footprint.Unit.Basic

/-!
The units that are known, in the order in which they are offered, and the dimensions of the common
quantities.
-/

namespace Footprint

/-! ### Dimensions of common quantities -/

namespace QuantityKind

/-- The dimension of masses. -/
def mass : Dimension := .base Dimension.mass

/-- The dimension of lengths. -/
def length : Dimension := .base Dimension.length

/-- The dimension of areas. -/
def area : Dimension := Dimension.ofEntries [(Dimension.length, 2)]

/-- The dimension of volumes. -/
def volume : Dimension := Dimension.ofEntries [(Dimension.length, 3)]

/-- The dimension of durations. -/
def time : Dimension := .base Dimension.time

/-- The dimension of forces. -/
def force : Dimension :=
  Dimension.ofEntries [(Dimension.mass, 1), (Dimension.length, 1), (Dimension.time, -2)]

/-- The dimension of energies. -/
def energy : Dimension :=
  Dimension.ofEntries [(Dimension.mass, 1), (Dimension.length, 2), (Dimension.time, -2)]

/-- The dimension of powers. -/
def power : Dimension :=
  Dimension.ofEntries [(Dimension.mass, 1), (Dimension.length, 2), (Dimension.time, -3)]

/-- The dimension of amounts of data. -/
def data : Dimension := .base Dimension.data

end QuantityKind

/-! ### The table -/

namespace UnitEntry

/-- Units of mass. -/
def masses : List UnitEntry :=
  [⟨"mg", "milligram", ["milligramme"], QuantityKind.mass⟩,
   ⟨"g", "gram", ["gramme"], QuantityKind.mass⟩,
   ⟨"kg", "kilogram", ["kilogramme", "kilo"], QuantityKind.mass⟩,
   ⟨"t", "tonne", ["metric_ton", "metric ton"], QuantityKind.mass⟩,
   ⟨"lb", "pound", ["lbs"], QuantityKind.mass⟩,
   ⟨"ton", "short_ton", ["short ton", "us_ton"], QuantityKind.mass⟩]

/-- Units of length. -/
def lengths : List UnitEntry :=
  [⟨"mm", "millimeter", ["millimetre"], QuantityKind.length⟩,
   ⟨"cm", "centimeter", ["centimetre"], QuantityKind.length⟩,
   ⟨"m", "meter", ["metre"], QuantityKind.length⟩,
   ⟨"km", "kilometer", ["kilometre"], QuantityKind.length⟩,
   ⟨"in", "inch", ["inches"], QuantityKind.length⟩,
   ⟨"ft", "foot", ["feet"], QuantityKind.length⟩,
   ⟨"mi", "mile", [], QuantityKind.length⟩,
   ⟨"nmi", "nautical_mile", ["nautical mile"], QuantityKind.length⟩]

/-- Units of area. -/
def areas : List UnitEntry :=
  [⟨"m2", "square_meter", ["square meter", "square_metre", "m²"], QuantityKind.area⟩,
   ⟨"km2", "square_kilometer", ["square kilometer", "km²"], QuantityKind.area⟩,
   ⟨"ft2", "square_foot", ["square foot", "square_feet", "ft²"], QuantityKind.area⟩,
   ⟨"ha", "hectare", [], QuantityKind.area⟩]

/-- Units of volume. -/
def volumes : List UnitEntry :=
  [⟨"ml", "milliliter", ["millilitre", "mL"], QuantityKind.volume⟩,
   ⟨"l", "liter", ["litre", "L"], QuantityKind.volume⟩,
   ⟨"m3", "cubic_meter", ["cubic meter", "cubic_metre", "m³"], QuantityKind.volume⟩,
   ⟨"gal", "gallon", ["us_gallon"], QuantityKind.volume⟩]

/-- Units of time. -/
def times : List UnitEntry :=
  [⟨"ms", "millisecond", ["msec"], QuantityKind.time⟩,
   ⟨"s", "second", ["sec"], QuantityKind.time⟩,
   ⟨"min", "minute", [], QuantityKind.time⟩,
   ⟨"h", "hour", ["hr"], QuantityKind.time⟩,
   ⟨"day", "day", ["d"], QuantityKind.time⟩,
   ⟨"year", "year", ["yr", "a"], QuantityKind.time⟩]

/-- Units of force. -/
def forces : List UnitEntry :=
  [⟨"N", "newton", [], QuantityKind.force⟩,
   ⟨"kN", "kilonewton", [], QuantityKind.force⟩]

/-- Units of energy. -/
def energies : List UnitEntry :=
  [⟨"J", "joule", [], QuantityKind.energy⟩,
   ⟨"kJ", "kilojoule", [], QuantityKind.energy⟩,
   ⟨"MJ", "megajoule", [], QuantityKind.energy⟩,
   ⟨"GJ", "gigajoule", [], QuantityKind.energy⟩,
   ⟨"Wh", "watt_hour", ["watthour", "watt hour"], QuantityKind.energy⟩,
   ⟨"kWh", "kilowatt_hour", ["kilowatthour", "kilowatt hour"], QuantityKind.energy⟩,
   ⟨"MWh", "megawatt_hour", ["megawatthour", "megawatt hour"], QuantityKind.energy⟩,
   ⟨"GWh", "gigawatt_hour", ["gigawatthour", "gigawatt hour"], QuantityKind.energy⟩,
   ⟨"BTU", "british_thermal_unit", ["btu"], QuantityKind.energy⟩]

/-- Units of power. -/
def powers : List UnitEntry :=
  [⟨"W", "watt", [], QuantityKind.power⟩,
   ⟨"kW", "kilowatt", [], QuantityKind.power⟩,
   ⟨"MW", "megawatt", [], QuantityKind.power⟩]

/-- Units of data. -/
def dataSizes : List UnitEntry :=
  [⟨"B", "byte", [], QuantityKind.data⟩,
   ⟨"kB", "kilobyte", [], QuantityKind.data⟩,
   ⟨"MB", "megabyte", [], QuantityKind.data⟩,
   ⟨"GB", "gigabyte", [], QuantityKind.data⟩,
   ⟨"TB", "terabyte", [], QuantityKind.data⟩]

/-- Units of money. -/
def currencies : List UnitEntry :=
  [⟨"EUR", "euro", [], .currency⟩,
   ⟨"USD", "us_dollar", ["dollar", "us dollar"], .currency⟩,
   ⟨"GBP", "pound_sterling", ["pound sterling"], .currency⟩,
   ⟨"JPY", "yen", [], .currency⟩,
   ⟨"CNY", "yuan", ["renminbi"], .currency⟩,
   ⟨"CHF", "swiss_franc", ["swiss franc"], .currency⟩,
   ⟨"CAD", "canadian_dollar", ["canadian dollar"], .currency⟩,
   ⟨"AUD", "australian_dollar", ["australian dollar"], .currency⟩,
   ⟨"INR", "indian_rupee", ["rupee"], .currency⟩,
   ⟨"SEK", "swedish_krona", ["krona"], .currency⟩]

/-- All known units. -/
def table : List UnitEntry :=
  masses ++ lengths ++ areas ++ volumes ++ times ++ forces ++ energies ++ powers ++ dataSizes ++
    currencies

end UnitEntry

namespace MeasureUnit

/-- All known units, in order. -/
def known : List MeasureUnit := UnitEntry.table.map (·.unit)

/-- The known units of a dimension, in order. -/
def knownOf (dim : Dimension) : List MeasureUnit := known.filter fun u => u.dim = dim

end MeasureUnit

end Footprint
