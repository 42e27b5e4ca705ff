import SqlInterchange.Backend.Scripted
import SqlInterchange.Operation
import SqlInterchange.Settings
import SqlInterchange.Sql.Script.Scan
import SqlInterchange.Proofs.Script.Lexeme
import SqlInterchange.Proofs.Script.Scanner
import SqlInterchange.Proofs.Script.Verbatim
import SqlInterchange.Proofs.Statement.Rendered
import SqlInterchange.Proofs.Document.Accepted
import SqlInterchange.Proofs.Statement.Written
import SqlInterchange.Proofs.Operation.DataOnly
import SqlInterchange.Proofs.Pipeline.Course
import SqlInterchange.Proofs.Pipeline.Run
import SqlInterchange.Proofs.Pipeline.Phases
import SqlInterchange.Proofs.Operation.TwoPhases
import SqlInterchange.Proofs.Operation.Request
import SqlInterchange.Proofs.Operation.Transactions
import SqlInterchange.Proofs.Operation.Refusals
import SqlInterchange.Proofs.Script.Whole
import SqlInterchange.Proofs.Script.Squeezed
import SqlInterchange.Proofs.Export.Script
import SqlInterchange.Proofs.Json.Strings
import SqlInterchange.Proofs.Number.Decimal
import SqlInterchange.Proofs.Text.Utf8
import SqlInterchange.Proofs.Number.Binary64
import SqlInterchange.Proofs.Json.Numbers
import SqlInterchange.Proofs.Json.RoundTrip
import SqlInterchange.Proofs.Document.RoundTrip
import SqlInterchange.Proofs.Statement.Batches
import SqlInterchange.Proofs.Export.Served
import SqlInterchange.Proofs.Export.Valid
import SqlInterchange.Proofs.Database
import SqlInterchange.Proofs.Export.Completed
import SqlInterchange.Proofs.Operation.Effects
import SqlInterchange.Proofs.Export.Stable
import SqlInterchange.Proofs.Document.Judged
import SqlInterchange.Proofs.Export.Counted
import SqlInterchange.Proofs.Export.Alike
import SqlInterchange.Proofs.Operation.Invisible
import SqlInterchange.Proofs.Operation.Joined
import SqlInterchange.Proofs.Operation.Outcome
import SqlInterchange.Proofs.Statement.Partition
import SqlInterchange.Proofs.Json.Missing
import SqlInterchange.Proofs.Operation.Sourced
import SqlInterchange.Proofs.Statement.Name
import SqlInterchange.Proofs.Statement.Routing
import SqlInterchange.Proofs.Statement.Recovery
import SqlInterchange.Proofs.Statement.Alteration
import SqlInterchange.Proofs.Script.Stable
import SqlInterchange.Proofs.Script.Wrapper
import SqlInterchange.Proofs.Operation.Wrapped
import SqlInterchange.Proofs.Script.Scans
import SqlInterchange.Proofs.Statement.Runs
import SqlInterchange.Proofs.Statement.Sections
import SqlInterchange.Proofs.Statement.Definition
import SqlInterchange.Proofs.Statement.Reserved
import SqlInterchange.Proofs.Export.Dropped
import SqlInterchange.Proofs.Export.Shapes
import SqlInterchange.Proofs.Settings
import SqlInterchange.Proofs.Registry
import SqlInterchange.Proofs.Pipeline.Once
