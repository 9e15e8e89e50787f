import GameRules.Cache.Blob
import GameRules.Cache.Digest
import GameRules.Cache.Format
import GameRules.Cascade.Graph
import GameRules.Cascade.Loops
import GameRules.Cascade.Order
import GameRules.Document.Error
import GameRules.Document.Fields
import GameRules.Document.Record
import GameRules.Effect.Basic
import GameRules.Effect.Decode
import GameRules.Entries
import GameRules.Filter
import GameRules.Grammar.Failure
import GameRules.Json.Basic
import GameRules.Json.Equality
import GameRules.Json.Numeral
import GameRules.Json.Reader
import GameRules.Json.Reader.Basic
import GameRules.Json.Reader.Number
import GameRules.Json.Reader.Text
import GameRules.Json.Writer
import GameRules.Keyword
import GameRules.Number.Binary64
import GameRules.Number.Notation
import GameRules.Number.Power
import GameRules.Number.Rounding
import GameRules.Number.Shortest
import GameRules.Path.Basic
import GameRules.Path.Segment
import GameRules.Path.Set
import GameRules.Reads.Collector
import GameRules.Rule.Basic
import GameRules.Rule.Equality
import GameRules.Rule.Index
import GameRules.Rule.Set
import GameRules.Selector
import GameRules.Text.Alphanumeric
import GameRules.Text.Blank
import GameRules.Text.Front
import GameRules.Time.Clock
import GameRules.Time.Duration
import GameRules.Time.DurationLiteral
import GameRules.Trigger.Basic
import GameRules.Trigger.Decode
import GameRules.Value.Basic
import GameRules.Value.Decode
import GameRules.Value.Encode
import GameRules.Value.Equality
import GameRules.Value.Reads
import GameRules.Value.Vocabulary
import GameRules.View.Basic
import GameRules.View.Operation
import GameRules.View.Value
import GameRules.View.Vocabulary
import GameRules.Where.Basic
import GameRules.Where.Decode
import GameRules.Where.Equality
import GameRules.Proofs.Document.Fields
import GameRules.Proofs.Document.Record
import GameRules.Proofs.Document.Vocabulary
import GameRules.Proofs.Value.WellFormed
import GameRules.Proofs.Value.RoundTrip
import GameRules.Proofs.Cache.Corruption
import GameRules.Proofs.Cache.Integrity
import GameRules.Proofs.Cache.RoundTrip
import GameRules.Proofs.Cascade.Agreement
import GameRules.Proofs.Cascade.Graph
import GameRules.Proofs.Cascade.Loops
import GameRules.Proofs.Cascade.Order
import GameRules.Proofs.Cascade.Traversal
import GameRules.Proofs.Cascade.Worklist
import GameRules.Proofs.Clock
import GameRules.Proofs.Effect
import GameRules.Proofs.Filter
import GameRules.Proofs.Index
import GameRules.Proofs.Invariants
import GameRules.Proofs.Json.Fraction
import GameRules.Proofs.Json.Numeral
import GameRules.Proofs.Json.Reread
import GameRules.Proofs.Json.RoundTrip
import GameRules.Proofs.Reads
import GameRules.Proofs.RoundTrip
import GameRules.Proofs.Path.Union
import GameRules.Proofs.Path.Spelling
import GameRules.Proofs.Walk.Law
import GameRules.Proofs.Walk.Steps
import GameRules.Proofs.Walk.Nodes
import GameRules.Proofs.Walk.Gaps
import GameRules.Proofs.Walk.Recognition
import GameRules.Proofs.Json.Limit
import GameRules.Proofs.Nesting.Document
import GameRules.Proofs.Nesting.Value
import GameRules.Proofs.Nesting.View
import GameRules.Proofs.Nesting.Rule
import GameRules.Proofs.Nesting.Reload
import GameRules.Proofs.Writes
import GameRules.Proofs.Where.Nameless
import GameRules.Proofs.Effect.Views
import GameRules.Proofs.Effect.Cycles
import GameRules.Proofs.Number.Nearest
import GameRules.Proofs.Number.Binary64
import GameRules.Proofs.Number.Notation
import GameRules.Proofs.Number.Shortest
import GameRules.Proofs.Amount
import GameRules.Proofs.Duration
import GameRules.Proofs.Path.Language
import GameRules.Proofs.Duration.Language
import GameRules.Proofs.Document.Failure
import GameRules.Proofs.Document.Agreement
import GameRules.Proofs.Where.ShortForm
import GameRules.Proofs.Effect.Inside
import GameRules.Proofs.Effect.Inference
import GameRules.Proofs.Readers
import GameRules.Proofs.Provenance
import GameRules.Proofs.Bounds
import GameRules.Proofs.Lookups.Kinds
import GameRules.Proofs.Lookups
import GameRules.Proofs.Waypoints.Fields
import GameRules.Proofs.Waypoints.Nodes
import GameRules.Proofs.Waypoints
