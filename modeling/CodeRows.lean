import CodeRows.Display
import CodeRows.Hover
import CodeRows.Inspect
import CodeRows.Json.Container
import CodeRows.Json.Fault
import CodeRows.Json.Number
import CodeRows.Json.Record
import CodeRows.Json.Scan
import CodeRows.Json.Settings
import CodeRows.Json.Skip
import CodeRows.Json.Snippet
import CodeRows.Json.Value
import CodeRows.Json.Writer
import CodeRows.Listing
import CodeRows.Numeric.Binary64
import CodeRows.Numeric.Integer
import CodeRows.Numeric.Layout
import CodeRows.Numeric.Shortest
import CodeRows.OrderedSet
import CodeRows.Pointer
import CodeRows.Position
import CodeRows.Proofs.Bare
import CodeRows.Proofs.ClassLists
import CodeRows.Proofs.ClassNames
import CodeRows.Proofs.Confined
import CodeRows.Proofs.Coverage
import CodeRows.Proofs.Emphasis
import CodeRows.Proofs.Extent
import CodeRows.Proofs.Gutter
import CodeRows.Proofs.Kinds
import CodeRows.Proofs.Layout
import CodeRows.Proofs.Locality
import CodeRows.Proofs.Lookup
import CodeRows.Proofs.Machine
import CodeRows.Proofs.Marked
import CodeRows.Proofs.Marking
import CodeRows.Proofs.Matching
import CodeRows.Proofs.Members
import CodeRows.Proofs.Numbering
import CodeRows.Proofs.Openers
import CodeRows.Proofs.Painted
import CodeRows.Proofs.Related
import CodeRows.Proofs.Report
import CodeRows.Proofs.Run
import CodeRows.Proofs.Selection
import CodeRows.Proofs.Sheet
import CodeRows.Proofs.Spans
import CodeRows.Proofs.Styling
import CodeRows.Proofs.Tagging
import CodeRows.Proofs.Unlit
import CodeRows.Proofs.Visits
import CodeRows.Proofs.Walk
import CodeRows.Proofs.WholeRows
import CodeRows.Row
import CodeRows.Session
import CodeRows.Settings
import CodeRows.Tag
import CodeRows.Text.Blank
import CodeRows.Text.Extending
import CodeRows.Text.Invisible
import CodeRows.Token
import CodeRows.Workspace
