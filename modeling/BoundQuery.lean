import BoundQuery.Binding.Kept
import BoundQuery.Binding.Plan
import BoundQuery.Binding.Table
import BoundQuery.Binding.Template
import BoundQuery.Duration.Basic
import BoundQuery.Duration.Row
import BoundQuery.Duration.Span
import BoundQuery.Duration.TimeUnit
import BoundQuery.Error
import BoundQuery.Identifier
import BoundQuery.Json.Basic
import BoundQuery.Json.Reader
import BoundQuery.Json.Record
import BoundQuery.Number.Double
import BoundQuery.Number.Layout
import BoundQuery.Number.Shortest
import BoundQuery.Pattern.Basic
import BoundQuery.Pattern.Limits
import BoundQuery.Pattern.Property
import BoundQuery.Pattern.Reader
import BoundQuery.Pattern.Spelling
import BoundQuery.Pattern.Syntax
import BoundQuery.Pipeline.Call
import BoundQuery.Pipeline.Query
import BoundQuery.Pipeline.Stage
import BoundQuery.Predicate.Basic
import BoundQuery.Predicate.Inspected
import BoundQuery.Scan.Basic
import BoundQuery.Scan.Bytes
import BoundQuery.Scan.Literal
import BoundQuery.Scan.Number
import BoundQuery.Settings.Basic
import BoundQuery.Settings.Config
import BoundQuery.Settings.Document
import BoundQuery.Settings.Package
import BoundQuery.Settings.Policy
import BoundQuery.Text.CharSet
import BoundQuery.Text.Inspected
import BoundQuery.Text.Letter
import BoundQuery.Text.Numeral
import BoundQuery.Text.Printable
import BoundQuery.Text.Quoted
import BoundQuery.Time.Date
import BoundQuery.Time.Instant
import BoundQuery.Time.Reader
import BoundQuery.Tree.Basic
import BoundQuery.Tree.Stored
import BoundQuery.Value.Basic
import BoundQuery.Value.Literal
import BoundQuery.Value.Stored
import BoundQuery.Proofs.Number.Rounding
import BoundQuery.Proofs.Pattern.Spelling
import BoundQuery.Proofs.Text.Quoted
import BoundQuery.Proofs.Number.ReadBack
import BoundQuery.Proofs.Duration.ReadBack
import BoundQuery.Proofs.Time.ReadBack
import BoundQuery.Proofs.Scan.Choice
import BoundQuery.Proofs.Value.ReadBack
import BoundQuery.Proofs.Binding.Draft
import BoundQuery.Proofs.Binding.Reference
import BoundQuery.Proofs.Pipeline.PolicyIndependence
import BoundQuery.Proofs.Binding.Alike
import BoundQuery.Proofs.Pipeline.Noninterference
import BoundQuery.Proofs.Binding.Cancel
import BoundQuery.Proofs.Predicate.Readability
import BoundQuery.Proofs.Binding.Name
import BoundQuery.Proofs.Binding.Mark
import BoundQuery.Proofs.Binding.Calls
import BoundQuery.Proofs.Binding.Closure
import BoundQuery.Proofs.Binding.Continuation
import BoundQuery.Proofs.Predicate.Faults
import BoundQuery.Proofs.Predicate.Progress
import BoundQuery.Proofs.Predicate.Grammar
import BoundQuery.Proofs.Predicate.Composition
import BoundQuery.Proofs.Pipeline.Invariant
import BoundQuery.Proofs.Pipeline.Texts
import BoundQuery.Proofs.Pipeline.References
import BoundQuery.Proofs.Tree.Evaluation
import BoundQuery.Proofs.Tree.Literals
import BoundQuery.Proofs.Pipeline.Declarations
import BoundQuery.Proofs.Pipeline.Imports
import BoundQuery.Proofs.Pipeline.Source
import BoundQuery.Proofs.Pipeline.Lines
import BoundQuery.Proofs.Pipeline.Instants
import BoundQuery.Proofs.Pipeline.Uses
import BoundQuery.Proofs.Tree.Stored
import BoundQuery.Proofs.Text.Enclosed
import BoundQuery.Proofs.Pattern.Pairs
import BoundQuery.Proofs.Pattern.ReadBack
import BoundQuery.Proofs.Pipeline.Failures
import BoundQuery.Proofs.Duration.Stored
import BoundQuery.Proofs.Time.Stored
import BoundQuery.Proofs.Value.Stored
import BoundQuery.Proofs.Duration.Search
import BoundQuery.Proofs.Duration.Sums
import BoundQuery.Proofs.Duration.Grammar
import BoundQuery.Proofs.Duration.Row
import BoundQuery.Proofs.Duration.Clock
import BoundQuery.Proofs.Duration.Total
import BoundQuery.Proofs.Duration.Made
import BoundQuery.Proofs.Binding.Format
import BoundQuery.Proofs.Binding.Kept
import BoundQuery.Proofs.Time.Scanned
import BoundQuery.Proofs.Scan.Forms
import BoundQuery.Proofs.Value.Rewritten
import BoundQuery.Proofs.Pattern.Delimited
import BoundQuery.Proofs.Value.BareNumbers
import BoundQuery.Proofs.Settings.Changes
import BoundQuery.Proofs.Settings.Config
import BoundQuery.Proofs.Scan.Ends
import BoundQuery.Proofs.Scan.Cuts
import BoundQuery.Proofs.Scan.Bytes
import BoundQuery.Proofs.Scan.Reports
