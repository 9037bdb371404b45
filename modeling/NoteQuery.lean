import NoteQuery.Cli.Arguments
import NoteQuery.Cli.FilePath
import NoteQuery.Cli.Invocation
import NoteQuery.Cli.Program
import NoteQuery.Cli.Usage
import NoteQuery.Datum.Basic
import NoteQuery.Datum.Serial
import NoteQuery.Datum.Shown
import NoteQuery.Decimal.Notation
import NoteQuery.Decimal.Shortest
import NoteQuery.Engine.Basic
import NoteQuery.Engine.Session
import NoteQuery.Intake.Check
import NoteQuery.Intake.Record
import NoteQuery.Intake.Scalar
import NoteQuery.Intake.Timestamp
import NoteQuery.Json.Basic
import NoteQuery.Json.Printer
import NoteQuery.Json.Reader
import NoteQuery.Main
import NoteQuery.Note.Basic
import NoteQuery.Note.Moment
import NoteQuery.Note.Snapshot
import NoteQuery.Order.Ascending
import NoteQuery.Order.Members
import NoteQuery.Proofs.Cli.Endings
import NoteQuery.Proofs.Engine.Answers
import NoteQuery.Proofs.Engine.Cancellation
import NoteQuery.Proofs.Engine.Composition
import NoteQuery.Proofs.Engine.Disclosure
import NoteQuery.Proofs.Engine.Highlights
import NoteQuery.Proofs.Engine.Snapshots
import NoteQuery.Proofs.Engine.Steps
import NoteQuery.Proofs.Search.Highlights
import NoteQuery.Proofs.Intake.Notes
import NoteQuery.Proofs.Query.Completion
import NoteQuery.Proofs.Query.Composition
import NoteQuery.Proofs.Query.Derivations
import NoteQuery.Proofs.Query.Flaws
import NoteQuery.Proofs.Query.Lexemes
import NoteQuery.Proofs.Query.Nesting
import NoteQuery.Proofs.Query.Printing
import NoteQuery.Proofs.Query.Reading
import NoteQuery.Proofs.Query.Recognition
import NoteQuery.Proofs.Query.Refusals
import NoteQuery.Proofs.Query.Rejections
import NoteQuery.Proofs.Query.RoundTrip
import NoteQuery.Proofs.Query.Steps
import NoteQuery.Proofs.Query.Tiling
import NoteQuery.Proofs.Query.Trees
import NoteQuery.Proofs.Query.Viability
import NoteQuery.Proofs.Query.Words
import NoteQuery.Proofs.Search.Answers
import NoteQuery.Proofs.Search.Excerpts
import NoteQuery.Proofs.Search.Explanations
import NoteQuery.Query.Checked
import NoteQuery.Query.Completion
import NoteQuery.Query.Error
import NoteQuery.Query.Grammar
import NoteQuery.Query.Help
import NoteQuery.Query.Lexer
import NoteQuery.Query.Parsed
import NoteQuery.Query.Parser
import NoteQuery.Query.Printer
import NoteQuery.Query.Shape
import NoteQuery.Query.Token
import NoteQuery.Query.Tree
import NoteQuery.Search.Evaluation
import NoteQuery.Search.Excerpt
import NoteQuery.Search.Highlight
import NoteQuery.Search.Matching
import NoteQuery.Search.Meaning
import NoteQuery.Search.Result
import NoteQuery.Settings.Basic
import NoteQuery.Settings.EnvFile
import NoteQuery.Telemetry.Bridge
import NoteQuery.Telemetry.Context
import NoteQuery.Telemetry.Event
import NoteQuery.Telemetry.Level
import NoteQuery.Telemetry.LogLine
import NoteQuery.Telemetry.Metrics
import NoteQuery.Telemetry.Startup
import NoteQuery.Telemetry.Tally
import NoteQuery.Telemetry.Template
import NoteQuery.Telemetry.TraceSpan
import NoteQuery.Text.Alike
import NoteQuery.Text.Basic
import NoteQuery.Text.CaseRun
import NoteQuery.Text.Digit
import NoteQuery.Text.Fold
import NoteQuery.Text.Lower
import NoteQuery.Text.Numeral
import NoteQuery.Text.Occurrence
import NoteQuery.Text.Printable
import NoteQuery.Text.Quoted
import NoteQuery.Text.Upper
import NoteQuery.Proofs.Engine.Conservation
import NoteQuery.Proofs.Note.Vocabulary
import NoteQuery.Proofs.Search.CaseModes
import NoteQuery.Proofs.Telemetry.Correlation
import NoteQuery.Proofs.Query.TagCompletion
import NoteQuery.Proofs.Engine.Suggestions
import NoteQuery.Proofs.Query.Seams
import NoteQuery.Proofs.Telemetry.Mirroring
import NoteQuery.Proofs.Telemetry.LineMembers
import NoteQuery.Proofs.Telemetry.Redaction
import NoteQuery.Proofs.Search.Occurrences
