import Footprint.Dimension.Basic
import Footprint.Json.Record

/-!
Dimensions in documents: an object from bases to exponents. Zeros are dropped when it is read, and
of members with equal names the last one counts.
-/

namespace Footprint

/-- A whole number of 32 bits with sign. -/
def Json.int32? (j : Json) : Option Int32 := j.int?.bind fitExponent?

namespace Dimension

/-- Read a dimension. -/
def ofJson? (j : Json) : Option Dimension := (j.map? Json.int32?).map fun m => ofEntries m.entries

/-- Write a dimension. -/
def toJson (d : Dimension) : Json := Json.ofMap (fun e => .int e.toInt) d.exponents

end Dimension

end Footprint
