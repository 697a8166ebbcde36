import Semijoin.Access.Attach
import Semijoin.Access.Basic
import Semijoin.Access.Fixed
import Semijoin.Access.Remote
import Semijoin.Access.Tables
import Semijoin.Failure
import Semijoin.Filter.Compile
import Semijoin.Filter.Race
import Semijoin.Filter.Source
import Semijoin.Filter.Window
import Semijoin.Http.Endpoint
import Semijoin.Http.Intercept
import Semijoin.Http.Internal
import Semijoin.Http.Message
import Semijoin.Http.Query
import Semijoin.Include
import Semijoin.Json.Bytes
import Semijoin.Json.Syntax
import Semijoin.Json.Write
import Semijoin.Numeric.Binary64
import Semijoin.Numeric.Shortest
import Semijoin.Path.Case
import Semijoin.Path.Leaves
import Semijoin.Path.Steps
import Semijoin.Path.Walk
import Semijoin.Proofs.Access.Batch
import Semijoin.Proofs.Access.Chain
import Semijoin.Proofs.Access.Find
import Semijoin.Proofs.Access.Join
import Semijoin.Proofs.Access.Levels
import Semijoin.Proofs.Access.Lookup
import Semijoin.Proofs.Access.Outcome
import Semijoin.Proofs.Access.Records
import Semijoin.Proofs.Access.Refusal
import Semijoin.Proofs.Access.Steady
import Semijoin.Proofs.Filter.Acceptance
import Semijoin.Proofs.Filter.Forms
import Semijoin.Proofs.Filter.Loop
import Semijoin.Proofs.Filter.Merge
import Semijoin.Proofs.Filter.Ordering
import Semijoin.Proofs.Filter.Parsed
import Semijoin.Proofs.Filter.Schedule
import Semijoin.Proofs.Filter.Serialized
import Semijoin.Proofs.Filter.Window
import Semijoin.Proofs.Http.Delivery
import Semijoin.Proofs.Http.Relay
import Semijoin.Proofs.Http.Substitution
import Semijoin.Proofs.Json.Document
import Semijoin.Proofs.Json.Halts
import Semijoin.Proofs.Json.RoundTrip
import Semijoin.Proofs.Json.String
import Semijoin.Proofs.Path.Case
import Semijoin.Proofs.Path.DepthFirst
import Semijoin.Proofs.Path.Naming
import Semijoin.Proofs.Path.Resolution
import Semijoin.Proofs.Path.Retrace
import Semijoin.Proofs.Path.Visits
import Semijoin.Proofs.Place
import Semijoin.Proofs.Reversal.Answer
import Semijoin.Proofs.Reversal.Collect
import Semijoin.Proofs.Reversal.Deduplicate
import Semijoin.Proofs.Reversal.Plan
import Semijoin.Proofs.Reversal.Reaches
import Semijoin.Proofs.Reversal.Refusal
import Semijoin.Proofs.Reversal.Selection
import Semijoin.Proofs.Reversal.Union
import Semijoin.Proofs.Schema.Accepted
import Semijoin.Proofs.Schema.Exact
import Semijoin.Proofs.Schema.Faithful
import Semijoin.Proofs.Schema.Faults
import Semijoin.Proofs.Schema.Hop
import Semijoin.Proofs.Schema.RoundTrip
import Semijoin.Proofs.Schema.Rules
import Semijoin.Proofs.Schema.Turns
import Semijoin.Proofs.Sorting
import Semijoin.Proofs.Sql.Agreement
import Semijoin.Proofs.Sql.Connection
import Semijoin.Proofs.Sql.Operators
import Semijoin.Proofs.Sql.Reading
import Semijoin.Proofs.Text.Casing
import Semijoin.Proofs.Text.Seam
import Semijoin.Proofs.Value.Columns
import Semijoin.Proofs.Value.Distinct
import Semijoin.Proofs.Value.Document
import Semijoin.Proofs.Value.Mirror
import Semijoin.Proofs.Value.Rank
import Semijoin.Proofs.Where.Derived
import Semijoin.Proofs.Where.Expansion
import Semijoin.Proofs.Where.Parts
import Semijoin.Proofs.Where.Selection
import Semijoin.Proofs.Where.Tree
import Semijoin.Proofs.Where.Wildcard
import Semijoin.Reversal
import Semijoin.Schema.Basic
import Semijoin.Schema.Checker
import Semijoin.Schema.Declaration
import Semijoin.Schema.Model
import Semijoin.Settings.Basic
import Semijoin.Settings.Conversion
import Semijoin.Settings.EnvFile
import Semijoin.Shape
import Semijoin.Sorting
import Semijoin.Sql.Compile
import Semijoin.Sql.Connection
import Semijoin.Sql.Expression
import Semijoin.Sql.Store
import Semijoin.Sql.Truth
import Semijoin.Text.Blank
import Semijoin.Text.Casing
import Semijoin.Text.Digit
import Semijoin.Text.Printable
import Semijoin.Text.Ranges
import Semijoin.Text.Regex
import Semijoin.Text.Seam
import Semijoin.Text.Utf8
import Semijoin.Value.Access
import Semijoin.Value.Basic
import Semijoin.Value.Equality
import Semijoin.Value.Fault
import Semijoin.Value.Order
import Semijoin.Value.Text
import Semijoin.Where.Basic
import Semijoin.Where.Operator
import Semijoin.Where.Wildcard
