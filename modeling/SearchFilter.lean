import SearchFilter.CommandLine.Request
import SearchFilter.CommandLine.Run
import SearchFilter.CommandLine.Report
import SearchFilter.Main
import SearchFilter.Proofs.Query.Mode
import SearchFilter.Proofs.Query.Cut
import SearchFilter.Proofs.Query.Compose
import SearchFilter.Proofs.Query.Literal
import SearchFilter.Proofs.Sql.Literal
import SearchFilter.Proofs.Sql.Reading
import SearchFilter.Proofs.Sql.RoundTrip
import SearchFilter.Proofs.Fragment.Membership
import SearchFilter.Proofs.Fragment.StoredValues
import SearchFilter.Proofs.Fragment.Failure
import SearchFilter.Proofs.Fragment.Dependence
import SearchFilter.Proofs.Number.Numeral
import SearchFilter.Proofs.Number.Layout
import SearchFilter.Proofs.Sql.Token
import SearchFilter.Proofs.Fragment.Comparison
import SearchFilter.Proofs.Query.Closed
import SearchFilter.Proofs.Sql.Closed
import SearchFilter.Proofs.Fragment.Closed
import SearchFilter.Proofs.Fragment.IndexedValues
import SearchFilter.Proofs.Sql.Steps
import SearchFilter.Proofs.Sql.Injective
import SearchFilter.Proofs.Value.Fingerprint
import SearchFilter.Proofs.LastWrite
import SearchFilter.Proofs.Catalog.Changes
import SearchFilter.Proofs.Environment.Override
import SearchFilter.Proofs.Json.Token
import SearchFilter.Proofs.Json.RoundTrip
import SearchFilter.Proofs.Json.Number
import SearchFilter.Proofs.Filter.RoundTrip
import SearchFilter.Proofs.Catalog.AttributeRoundTrip
import SearchFilter.Proofs.Catalog.Reading
import SearchFilter.Proofs.Number.Longest
import SearchFilter.Proofs.Number.Rounding
import SearchFilter.Proofs.Query.Fitting
import SearchFilter.Proofs.Query.Path
import SearchFilter.Proofs.Query.Idempotent
import SearchFilter.Proofs.Value.Integer
import SearchFilter.Proofs.Environment.File
import SearchFilter.Proofs.Value.Word
import SearchFilter.Proofs.CommandLine.Answer
import SearchFilter.Proofs.CommandLine.Arguments
import SearchFilter.Proofs.CommandLine.Report
import SearchFilter.Proofs.Query.Parts
import SearchFilter.Proofs.Query.Tail
import SearchFilter.Proofs.Fragment.EntityColumn
import SearchFilter.Proofs.Environment.Assignment
import SearchFilter.Proofs.Fragment.Aliases
import SearchFilter.Proofs.Environment.Quoting
import SearchFilter.Proofs.Fragment.Narrowing
import SearchFilter.Proofs.Query.Position
import SearchFilter.Proofs.Text.Offset
import SearchFilter.Proofs.Number.Offset
import SearchFilter.Proofs.Text.Cuts
