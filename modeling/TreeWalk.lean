import TreeWalk.Text.Blank
import TreeWalk.Text.Digit
import TreeWalk.Text.Printable
import TreeWalk.Text.Basic
import TreeWalk.Text.Quoted
import TreeWalk.Text.Lines
import TreeWalk.Text.Utf8
import TreeWalk.Number.Basic
import TreeWalk.Number.Decimal
import TreeWalk.Number.Shortest
import TreeWalk.Number.Layout
import TreeWalk.Json.Basic
import TreeWalk.Json.Reader
import TreeWalk.Json.Writer
import TreeWalk.Tree.Token
import TreeWalk.Tree.Basic
import TreeWalk.Tree.Encode
import TreeWalk.Tree.Decode
import TreeWalk.Source.Lexeme
import TreeWalk.Source.Parser
import TreeWalk.Report
import TreeWalk.Value.Basic
import TreeWalk.Value.Operators
import TreeWalk.Scope.Name
import TreeWalk.Scope.Forest
import TreeWalk.Run.Event
import TreeWalk.Run.Action
import TreeWalk.Run.Evaluate
import TreeWalk.Run.Session
import TreeWalk.Prompt.Snippet
import TreeWalk.Prompt.Dialogue
import TreeWalk.CommandLine.Path
import TreeWalk.CommandLine.Options
import TreeWalk.CommandLine.Command
import TreeWalk.Scope.Describe
import TreeWalk.Scope.Operation
import TreeWalk.Main
import TreeWalk.Proofs.Number.Double
import TreeWalk.Proofs.Number.Decimal
import TreeWalk.Proofs.Json.Number
import TreeWalk.Proofs.Json.RoundTrip
import TreeWalk.Proofs.Text.Utf8
import TreeWalk.Proofs.Tree.Codec
import TreeWalk.Proofs.Source.Lines
import TreeWalk.Proofs.CommandLine.Emit
import TreeWalk.Proofs.Source.Tokens
import TreeWalk.Proofs.Source.Grammar
import TreeWalk.Proofs.Source.Completeness
import TreeWalk.Proofs.Source.Printer
import TreeWalk.Proofs.Run.Safety
import TreeWalk.Proofs.Run.Visits
import TreeWalk.Proofs.CommandLine.Safety
import TreeWalk.Proofs.Run.Simulation
import TreeWalk.Proofs.Run.Verbosity
import TreeWalk.Proofs.Source.StateTokens
import TreeWalk.Proofs.Source.Concatenation
import TreeWalk.Proofs.Source.Places
import TreeWalk.Proofs.Source.Layout
import TreeWalk.Proofs.Run.Diagnostics
import TreeWalk.Proofs.Prompt.Batch
import TreeWalk.Proofs.Run.Frames
import TreeWalk.Proofs.Run.Lexical
import TreeWalk.Proofs.Run.Cursor
import TreeWalk.Proofs.Run.Relevance
import TreeWalk.Proofs.Run.Causes
import TreeWalk.Proofs.Run.Faults
import TreeWalk.Proofs.Run.Strictness
import TreeWalk.Proofs.Source.Completion
import TreeWalk.Proofs.CommandLine.TreeFiles
import TreeWalk.Proofs.Run.Noninterference
import TreeWalk.Proofs.Run.Brackets
import TreeWalk.Proofs.Run.Renaming
import TreeWalk.Proofs.Source.Accuracy
import TreeWalk.Proofs.Scope.Visibility
import TreeWalk.Proofs.Scope.Independence
import TreeWalk.Proofs.Tree.Normal
import TreeWalk.Proofs.Source.Endings
import TreeWalk.Proofs.Prompt.Echo
import TreeWalk.Proofs.Source.Blocks
import TreeWalk.Proofs.Value.Comparison
import TreeWalk.Proofs.Value.Conversion
import TreeWalk.Proofs.Prompt.Braces
import TreeWalk.Proofs.Prompt.Isolation
