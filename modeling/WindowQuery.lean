import WindowQuery.Binary64.Basic
import WindowQuery.Binary64.Decimal
import WindowQuery.Binary64.Text
import WindowQuery.Calendar
import WindowQuery.CommandLine.Arguments
import WindowQuery.CommandLine.Command
import WindowQuery.CommandLine.Failure
import WindowQuery.CommandLine.Program
import WindowQuery.Directive.Catalog
import WindowQuery.Directive.Error
import WindowQuery.Directive.Expansion
import WindowQuery.Directive.Token
import WindowQuery.Files
import WindowQuery.FillPolicy
import WindowQuery.Frame.Basic
import WindowQuery.Frame.Cell
import WindowQuery.Frame.Coercion
import WindowQuery.Frame.Document
import WindowQuery.Frame.Error
import WindowQuery.Frame.Materialize
import WindowQuery.Frame.Pivot
import WindowQuery.Frame.Schema
import WindowQuery.Frame.TextTable
import WindowQuery.Frame.TypeName
import WindowQuery.Instant.Basic
import WindowQuery.Instant.Reader
import WindowQuery.Instant.Text
import WindowQuery.Interval
import WindowQuery.Json.Basic
import WindowQuery.Json.Number
import WindowQuery.Json.Printer
import WindowQuery.Json.Reader
import WindowQuery.Json.Record
import WindowQuery.Keyed
import WindowQuery.Main
import WindowQuery.Proofs.Frame.ColumnWise
import WindowQuery.Query.Backend
import WindowQuery.Query.Batch
import WindowQuery.Query.Error
import WindowQuery.Query.Model
import WindowQuery.Query.Request
import WindowQuery.Query.Run
import WindowQuery.ResultFormat
import WindowQuery.Settings.Basic
import WindowQuery.Settings.Document
import WindowQuery.Settings.Layers
import WindowQuery.Settings.Template
import WindowQuery.Store.Database
import WindowQuery.Store.Document
import WindowQuery.Store.Table
import WindowQuery.Text.Blank
import WindowQuery.Text.Hexadecimal
import WindowQuery.Text.Numeral
import WindowQuery.Text.Quoted
import WindowQuery.Text.Reader
import WindowQuery.Text.Utf8
import WindowQuery.Text.Visible
import WindowQuery.TimeWindow
import WindowQuery.Toml.Reader
import WindowQuery.Toml.Scalar
import WindowQuery.Toml.Table
import WindowQuery.Proofs.Frame.Reference
import WindowQuery.Proofs.Frame.Placement
import WindowQuery.Proofs.Frame.Roles
import WindowQuery.Proofs.Keyed
import WindowQuery.Proofs.Frame.Wide
import WindowQuery.Proofs.Directive.Opening
import WindowQuery.Proofs.Text.Slice
import WindowQuery.Proofs.Directive.Decomposition
import WindowQuery.Proofs.Directive.Residue
import WindowQuery.Proofs.Directive.Replacement
import WindowQuery.Proofs.Frame.Permitted
import WindowQuery.Proofs.Frame.Shape
import WindowQuery.Proofs.Query.Asked
import WindowQuery.Proofs.Query.Responses
import WindowQuery.Proofs.Query.WellFormed
import WindowQuery.Proofs.Query.Isolation
import WindowQuery.Proofs.Frame.Refusal
import WindowQuery.Proofs.Frame.Access
import WindowQuery.Proofs.Frame.FirstFault
import WindowQuery.Proofs.Frame.Labels
import WindowQuery.Proofs.Directive.Cutting
import WindowQuery.Proofs.Directive.Juxtaposition
import WindowQuery.Proofs.Interval.Words
import WindowQuery.Proofs.Interval.Precision
import WindowQuery.Proofs.Directive.ValueList
import WindowQuery.Proofs.Directive.Pieces
import WindowQuery.Proofs.Frame.Reading
import WindowQuery.Proofs.Frame.Undeclared
import WindowQuery.Proofs.Calendar
import WindowQuery.Proofs.Text.Reader
import WindowQuery.Proofs.Instant.Reading
import WindowQuery.Proofs.Instant.Text
import WindowQuery.Proofs.Instant.RoundTrip
import WindowQuery.Proofs.Frame.Idempotence
import WindowQuery.Proofs.Frame.RowOrder
import WindowQuery.Proofs.Text.Lenient
import WindowQuery.Proofs.Frame.TypeName
import WindowQuery.Proofs.Store.Temporal
import WindowQuery.Proofs.Json.Token
import WindowQuery.Proofs.Json.Reading
import WindowQuery.Proofs.Json.Record
import WindowQuery.Proofs.Frame.Document
import WindowQuery.Proofs.Query.Document
import WindowQuery.Proofs.Instant.Past
import WindowQuery.Proofs.Directive.EpochFilter
import WindowQuery.Proofs.Frame.Printed
import WindowQuery.Proofs.Directive.BucketWidth
import WindowQuery.Proofs.Frame.Spelling
import WindowQuery.Proofs.Settings.Layers
import WindowQuery.Proofs.Frame.TextTable
import WindowQuery.Proofs.Offsets
