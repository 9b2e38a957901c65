import QueryProjection.Calendar.Date
import QueryProjection.Calendar.TimeOfDay
import QueryProjection.Calendar.Timestamp
import QueryProjection.Error
import QueryProjection.Evaluation.Interpreter
import QueryProjection.Evaluation.StableSort
import QueryProjection.Expansion.Options
import QueryProjection.Expansion.Refinement
import QueryProjection.Expr.Basic
import QueryProjection.Expr.Printer
import QueryProjection.Expr.ReservedNames
import QueryProjection.Expr.Substitution
import QueryProjection.Expr.Subterms
import QueryProjection.Filter.Arrangement
import QueryProjection.Filter.Basic
import QueryProjection.Filter.Binder
import QueryProjection.Filter.Literal
import QueryProjection.Forest.Includes
import QueryProjection.Forest.Path
import QueryProjection.Forest.Resolution
import QueryProjection.Json.Basic
import QueryProjection.Json.Number
import QueryProjection.Json.Parser
import QueryProjection.Json.Printer
import QueryProjection.Mapping.Basic
import QueryProjection.Mapping.Projection
import QueryProjection.Mapping.Source
import QueryProjection.Number.Binary64
import QueryProjection.Number.Decimal
import QueryProjection.Number.FloatText
import QueryProjection.Number.Numeral
import QueryProjection.Number.Shortest
import QueryProjection.Proofs.Calendar.Days
import QueryProjection.Proofs.Calendar.Instants
import QueryProjection.Proofs.Calendar.Texts
import QueryProjection.Proofs.Evaluation.Agreement
import QueryProjection.Proofs.Evaluation.Arrangement
import QueryProjection.Proofs.Evaluation.Guards
import QueryProjection.Proofs.Evaluation.LevelByLevel
import QueryProjection.Proofs.Evaluation.Levels
import QueryProjection.Proofs.Evaluation.Mirroring
import QueryProjection.Proofs.Evaluation.NullReferences
import QueryProjection.Proofs.Evaluation.Renaming
import QueryProjection.Proofs.Evaluation.ReservedNames
import QueryProjection.Proofs.Evaluation.Scoping
import QueryProjection.Proofs.Evaluation.Sequences
import QueryProjection.Proofs.Evaluation.SideBySide
import QueryProjection.Proofs.Evaluation.StableSorting
import QueryProjection.Proofs.Evaluation.Substitution
import QueryProjection.Proofs.Expansion.Calls
import QueryProjection.Proofs.Expansion.Changes
import QueryProjection.Proofs.Expansion.Elements
import QueryProjection.Proofs.Expansion.Frame
import QueryProjection.Proofs.Expansion.Items
import QueryProjection.Proofs.Expansion.Landing
import QueryProjection.Proofs.Expansion.Options
import QueryProjection.Proofs.Expansion.Placement
import QueryProjection.Proofs.Expansion.Reading
import QueryProjection.Proofs.Expansion.Records
import QueryProjection.Proofs.Expansion.Refinement
import QueryProjection.Proofs.Expansion.RequestCalls
import QueryProjection.Proofs.Expansion.Requests
import QueryProjection.Proofs.Expansion.Retyping
import QueryProjection.Proofs.Expansion.Selections
import QueryProjection.Proofs.Expansion.Shape
import QueryProjection.Proofs.Expr.FreeUses
import QueryProjection.Proofs.Expr.Places
import QueryProjection.Proofs.Expr.PlainNames
import QueryProjection.Proofs.Expr.Positions
import QueryProjection.Proofs.Expr.Subterms
import QueryProjection.Proofs.Filter.Binding
import QueryProjection.Proofs.Filter.Built
import QueryProjection.Proofs.Filter.Meaning
import QueryProjection.Proofs.Filter.Modes
import QueryProjection.Proofs.Filter.NullSafety
import QueryProjection.Proofs.Filter.Paths
import QueryProjection.Proofs.Filter.Reading
import QueryProjection.Proofs.Filter.TimeZones
import QueryProjection.Proofs.Filter.Translated
import QueryProjection.Proofs.Filter.Verdicts
import QueryProjection.Proofs.Forest.Building
import QueryProjection.Proofs.Forest.DefaultDepth
import QueryProjection.Proofs.Forest.DefaultSteps
import QueryProjection.Proofs.Forest.Defaults
import QueryProjection.Proofs.Forest.Encoding
import QueryProjection.Proofs.Forest.ExpandItems
import QueryProjection.Proofs.Forest.Includes
import QueryProjection.Proofs.Forest.Inclusion
import QueryProjection.Proofs.Forest.Invariant
import QueryProjection.Proofs.Forest.Levels
import QueryProjection.Proofs.Forest.Listing
import QueryProjection.Proofs.Forest.Paths
import QueryProjection.Proofs.Forest.Slashes
import QueryProjection.Proofs.Forest.Walk
import QueryProjection.Proofs.Forest.WellFormed
import QueryProjection.Proofs.Json.Members
import QueryProjection.Proofs.Limits.Nesting
import QueryProjection.Proofs.Mapping.Arrangement
import QueryProjection.Proofs.Mapping.Calls
import QueryProjection.Proofs.Mapping.Evaluation
import QueryProjection.Proofs.Mapping.Includes
import QueryProjection.Proofs.Mapping.Layers
import QueryProjection.Proofs.Mapping.Nesting
import QueryProjection.Proofs.Mapping.Population
import QueryProjection.Proofs.Mapping.Projection
import QueryProjection.Proofs.Mapping.Pushdown
import QueryProjection.Proofs.Mapping.Reading
import QueryProjection.Proofs.Mapping.Records
import QueryProjection.Proofs.Mapping.Shape
import QueryProjection.Proofs.Mapping.Source
import QueryProjection.Proofs.Mapping.Steps
import QueryProjection.Proofs.Mapping.Termination
import QueryProjection.Proofs.Number.DecimalText
import QueryProjection.Proofs.Outcome
import QueryProjection.Proofs.Provider.Paging
import QueryProjection.Proofs.Request.Answer
import QueryProjection.Proofs.Request.Bookkeeping
import QueryProjection.Proofs.Request.Calls
import QueryProjection.Proofs.Request.Cancellable
import QueryProjection.Proofs.Request.Cancellation
import QueryProjection.Proofs.Request.Closed
import QueryProjection.Proofs.Request.Continuing
import QueryProjection.Proofs.Request.Inlining
import QueryProjection.Proofs.Request.NextLink
import QueryProjection.Proofs.Request.Paging
import QueryProjection.Proofs.Request.Pushdown
import QueryProjection.Proofs.Request.Response
import QueryProjection.Proofs.Request.Uncancelled
import QueryProjection.Proofs.Schema.Bases
import QueryProjection.Proofs.Schema.Flattening
import QueryProjection.Proofs.Schema.Lookup
import QueryProjection.Proofs.Schema.Members
import QueryProjection.Proofs.Schema.Types
import QueryProjection.Proofs.Text.Digits
import QueryProjection.Proofs.Url.Form
import QueryProjection.Proofs.Url.Utf8
import QueryProjection.Proofs.UuidText
import QueryProjection.Proofs.Value.Json
import QueryProjection.Proofs.Value.Order
import QueryProjection.Proofs.Value.Preorder
import QueryProjection.Proofs.Value.RoundTrip
import QueryProjection.Proofs.Value.Rows
import QueryProjection.Provider.Basic
import QueryProjection.Provider.Disturbed
import QueryProjection.Provider.Memory
import QueryProjection.Request.Clause
import QueryProjection.Request.Limits
import QueryProjection.Request.Options
import QueryProjection.Run.Basic
import QueryProjection.Run.Projection
import QueryProjection.Run.Reading
import QueryProjection.Run.Request
import QueryProjection.Run.Session
import QueryProjection.Schema.Basic
import QueryProjection.Schema.DataType
import QueryProjection.Settings.Configuration
import QueryProjection.Text.Basic
import QueryProjection.Text.CaseMapping
import QueryProjection.Text.CaseTable
import QueryProjection.Url.Basic
import QueryProjection.Url.Form
import QueryProjection.Url.Utf8
import QueryProjection.Uuid
import QueryProjection.Value.Basic
import QueryProjection.Value.Json
import QueryProjection.Value.Order
