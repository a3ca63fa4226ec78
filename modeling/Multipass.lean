import Multipass.Assembly.Assemble
import Multipass.Assembly.EntryPoint
import Multipass.Assembly.Scaffold
import Multipass.Attribution
import Multipass.CommandLine.Arguments
import Multipass.CommandLine.Run
import Multipass.Comment
import Multipass.Compile.Report
import Multipass.Condition.Token
import Multipass.Condition.Value
import Multipass.Decimal.Shortest
import Multipass.Decimal.Text
import Multipass.Diagnostic
import Multipass.Document.Config
import Multipass.Document.Diagnostics
import Multipass.Document.Shader
import Multipass.Json.Number
import Multipass.Json.Problem
import Multipass.Json.Reader
import Multipass.Json.Record
import Multipass.Json.Scalar
import Multipass.Json.Skip
import Multipass.Json.Text
import Multipass.Json.Value
import Multipass.LineMap
import Multipass.Located
import Multipass.Log.Diagnostics
import Multipass.Log.Phrasing
import Multipass.Macro.Body
import Multipass.Macro.Call
import Multipass.Macro.Expansion
import Multipass.Macro.Table
import Multipass.Main
import Multipass.Overflow
import Multipass.Panic
import Multipass.Pass.Name
import Multipass.Pass.Source
import Multipass.Preprocess.Directive
import Multipass.Preprocess.Problem
import Multipass.Preprocess.Run
import Multipass.Preprocess.State
import Multipass.Queue.Basic
import Multipass.Queue.Machine
import Multipass.Queue.Worker
import Multipass.Text.Base64
import Multipass.Text.Blank
import Multipass.Text.CharRanges
import Multipass.Text.DecimalDigit
import Multipass.Text.Identifier
import Multipass.Text.Lexeme
import Multipass.Text.Lines
import Multipass.Text.Quoted
import Multipass.Text.Search
import Multipass.Text.Unprintable
import Multipass.Text.Uppercase
import Multipass.Text.Word
import Multipass.Thumbnail.Frame
import Multipass.Thumbnail.Render
import Multipass.Thumbnail.Uniforms
import Multipass.Proofs.Overflow
import Multipass.Proofs.Macro.Scanning
import Multipass.Proofs.Macro.Characters
import Multipass.Proofs.Text.Lines
import Multipass.Proofs.Preprocess.OneLine
import Multipass.Proofs.Preprocess.Seam
import Multipass.Proofs.Assembly.Sources
import Multipass.Proofs.Assembly.Seam
import Multipass.Proofs.Assembly.Provenance
import Multipass.Proofs.Preprocess.Tree
import Multipass.Proofs.Macro.Expansion
import Multipass.Proofs.Preprocess.Evaluate
import Multipass.Proofs.Preprocess.Conditional
import Multipass.Proofs.Queue.Steps
import Multipass.Proofs.Queue.Transition
import Multipass.Proofs.Queue.Orderly
import Multipass.Proofs.Queue.Custody
import Multipass.Proofs.Queue.Answers
import Multipass.Proofs.Condition.Literal
import Multipass.Proofs.Condition.Lexing
import Multipass.Proofs.Condition.Arithmetic
import Multipass.Proofs.Condition.Grammar
import Multipass.Proofs.Condition.Evaluation
import Multipass.Proofs.Preprocess.Prefix
import Multipass.Proofs.Queue.Order
import Multipass.Proofs.Queue.History
import Multipass.Proofs.Queue.Tickets
import Multipass.Proofs.Queue.Tasks
import Multipass.Proofs.Queue.Renderings
import Multipass.Proofs.Compile.Failures
import Multipass.Proofs.Compile.Verdict
import Multipass.Proofs.Text.Names
import Multipass.Proofs.Queue.Disposal
import Multipass.Proofs.Queue.Coalescing
import Multipass.Proofs.Queue.Retention
import Multipass.Proofs.Thumbnail.Alike
import Multipass.Proofs.Thumbnail.Escape
import Multipass.Proofs.Thumbnail.Size
import Multipass.Proofs.Queue.Contexts
import Multipass.Proofs.Queue.Isolation
import Multipass.Proofs.Queue.Independence
import Multipass.Proofs.Preprocess.KeptLines
import Multipass.Proofs.Text.Base64
import Multipass.Proofs.Json.Text
import Multipass.Proofs.Json.Record
import Multipass.Proofs.Document.RoundTrip
import Multipass.Proofs.Macro.Filling
import Multipass.Proofs.Macro.Call
import Multipass.Proofs.Macro.Circular
import Multipass.Proofs.Macro.Finished
import Multipass.Proofs.Assembly.Header
import Multipass.Proofs.Assembly.Template
import Multipass.Proofs.Assembly.Embedding
import Multipass.Proofs.Assembly.Within
import Multipass.Proofs.Assembly.Overflow
import Multipass.Proofs.Log.Entry
import Multipass.Proofs.Log.Stream
import Multipass.Proofs.Compile.BrokenCommon
import Multipass.Proofs.Compile.Independence
import Multipass.Proofs.Located
import Multipass.Proofs.Preprocess.Events
import Multipass.Proofs.Preprocess.ProblemLines
import Multipass.Proofs.Preprocess.Brackets
import Multipass.Proofs.Preprocess.Structure
import Multipass.Proofs.Preprocess.Recursion
import Multipass.Proofs.Assembly.Errors
import Multipass.Proofs.Text.Occurrences
import Multipass.Proofs.Macro.Levels
import Multipass.Proofs.Macro.Depth
import Multipass.Proofs.Comment.Lexing
import Multipass.Proofs.Preprocess.CodeLine
import Multipass.Proofs.Preprocess.DirectiveLines
import Multipass.Proofs.Text.Token
import Multipass.Proofs.Macro.Parts
import Multipass.Proofs.Macro.Pasting
import Multipass.Proofs.Macro.Enclosed
import Multipass.Proofs.Preprocess.Pasting
import Multipass.Proofs.Comment.Blanking
import Multipass.Proofs.EntryPoint.Spelling
import Multipass.Proofs.EntryPoint.Declarations
import Multipass.Proofs.EntryPoint.Acceptance
import Multipass.Proofs.EntryPoint.Layout
import Multipass.Proofs.EntryPoint.WrongSignature
import Multipass.Proofs.Assembly.Continuation
import Multipass.Proofs.Macro.Placement
import Multipass.Proofs.Preprocess.Renumbered
import Multipass.Proofs.Assembly.CommentedOut
import Multipass.Proofs.Macro.Arguments
import Multipass.Proofs.Comment.Layout
import Multipass.Proofs.Preprocess.Unowned
