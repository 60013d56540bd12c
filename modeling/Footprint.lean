import Footprint.Boundary
import Footprint.Search.Request
import Footprint.Search.Schedule
import Footprint.Unit.Resolve
import Footprint.Workspace
import Footprint.Proofs.Unit.Reading
import Footprint.Proofs.UnitType.Lookup
import Footprint.Proofs.UnitType.Declared
import Footprint.Proofs.Rule.Eligibility
import Footprint.Proofs.Rule.History
import Footprint.Proofs.Rule.Issues
import Footprint.Proofs.Search.Latest
import Footprint.Proofs.Search.Restriction
import Footprint.Proofs.Search.Document
import Footprint.Proofs.Session.RoundTrip
import Footprint.Proofs.Json.Record
import Footprint.Proofs.Session.Parts
import Footprint.Proofs.Attribute.History
import Footprint.Proofs.Session.Reload
import Footprint.Proofs.Decimal.Value
import Footprint.Proofs.Display.Number
import Footprint.Proofs.Double.Nearest
import Footprint.Proofs.Double.Scientific
import Footprint.Proofs.Double.Shortest
import Footprint.Proofs.Double.Reread
import Footprint.Proofs.Decimal.Double
import Footprint.Proofs.Session.Saved
import Footprint.Proofs.Boundary.Agreement
import Footprint.Proofs.Dimension.Canonical
import Footprint.Proofs.Dimension.Power
import Footprint.Proofs.Dimension.Quotient
import Footprint.Proofs.Dimension.Reordered
import Footprint.Proofs.Dimension.Saturation
import Footprint.Proofs.Dimension.Trimmed
import Footprint.Proofs.Display.Range
import Footprint.Proofs.Search.Spacing
import Footprint.Proofs.Search.Schedule
import Footprint.Proofs.Attribute.Arrangement
import Footprint.Proofs.Attribute.Assignment
import Footprint.Proofs.Display.Alike
import Footprint.Proofs.Session.Variation
import Footprint.Proofs.Display.Ends
import Footprint.Proofs.Dimension.Display
import Footprint.Proofs.Unit.Suggestion
import Footprint.Proofs.Display.Money
import Footprint.Proofs.Text.Metric
import Footprint.Proofs.UnitType.Words
import Footprint.Proofs.Workspace
