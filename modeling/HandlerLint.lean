import HandlerLint.Check.Result
import HandlerLint.Check.Run
import HandlerLint.Check.Selection
import HandlerLint.CommandLine.Arguments
import HandlerLint.CommandLine.Init
import HandlerLint.CommandLine.Lint
import HandlerLint.CommandLine.Outcome
import HandlerLint.CommandLine.Run
import HandlerLint.CommandLine.Snapshot
import HandlerLint.Config.Basic
import HandlerLint.Config.Decode
import HandlerLint.Diagnosis.Diagnostic
import HandlerLint.Diagnosis.Finding
import HandlerLint.Diagnosis.Rule
import HandlerLint.Diagnosis.Verdict
import HandlerLint.Files.Error
import HandlerLint.Files.System
import HandlerLint.Files.Traversal
import HandlerLint.Files.Workspace
import HandlerLint.Glob.Match
import HandlerLint.Glob.Pattern
import HandlerLint.Json.Basic
import HandlerLint.Json.Parse
import HandlerLint.Json.Token
import HandlerLint.Language.Basic
import HandlerLint.Language.Handler
import HandlerLint.Language.Rethrow
import HandlerLint.Language.Role
import HandlerLint.Lowering.Machine
import HandlerLint.Lowering.Part
import HandlerLint.Lowering.Recursive
import HandlerLint.Main
import HandlerLint.Model
import HandlerLint.Path.Component
import HandlerLint.Path.Relative
import HandlerLint.Proofs.Lowering.Recursion
import HandlerLint.Proofs.Diagnosis.Findings
import HandlerLint.Proofs.Lowering.Simulation
import HandlerLint.Proofs.Lowering.Success
import HandlerLint.Proofs.Search.Distinct
import HandlerLint.Proofs.Search.Site
import HandlerLint.Proofs.Search.Tour
import HandlerLint.Report.Document
import HandlerLint.Report.Paint
import HandlerLint.Report.Pretty
import HandlerLint.Report.Sarif
import HandlerLint.Severity
import HandlerLint.Source.Node
import HandlerLint.Suppression.Basic
import HandlerLint.Suppression.Directive
import HandlerLint.Text.Blank
import HandlerLint.Text.Glyph
import HandlerLint.Text.Hex
import HandlerLint.Text.Quoted
import HandlerLint.Text.Split
import HandlerLint.Text.Utf8
import HandlerLint.Yaml.Cursor
import HandlerLint.Yaml.Document
import HandlerLint.Yaml.Node
import HandlerLint.Yaml.Scalar
import HandlerLint.Yaml.Tag
import HandlerLint.Yaml.Token
import HandlerLint.Proofs.Search.Follow
import HandlerLint.Proofs.Search.Report
import HandlerLint.Proofs.Search.Constructs
import HandlerLint.Proofs.Check.Order
import HandlerLint.Proofs.Suppression.Partition
import HandlerLint.Proofs.Check.Contribution
import HandlerLint.Proofs.Check.Schedule
import HandlerLint.Proofs.Check.Conservation
import HandlerLint.Proofs.Search.Origin
import HandlerLint.Proofs.Suppression.Rows
import HandlerLint.Proofs.Suppression.Style
import HandlerLint.Proofs.Suppression.Grammar
import HandlerLint.Proofs.Suppression.Single
import HandlerLint.Proofs.Diagnosis.Outline
import HandlerLint.Proofs.Lowering.Likeness
import HandlerLint.Proofs.Source.Everywhere
import HandlerLint.Proofs.Language.Comments
import HandlerLint.Proofs.Lowering.Comments
import HandlerLint.Proofs.Diagnosis.Nesting
import HandlerLint.Proofs.Lowering.Placement
import HandlerLint.Proofs.Lowering.Limit
import HandlerLint.Proofs.Lowering.Depth
import HandlerLint.Proofs.Json.Tokens
import HandlerLint.Proofs.Json.RoundTrip
import HandlerLint.Proofs.Report.ReadBack
import HandlerLint.Proofs.Check.Selection
import HandlerLint.Proofs.Check.Skipping
import HandlerLint.Proofs.CommandLine.ExitCode
import HandlerLint.Proofs.Check.Configuration
import HandlerLint.Proofs.Report.Interchange
import HandlerLint.Proofs.Search.Scope
import HandlerLint.Proofs.Lowering.Throws
import HandlerLint.Proofs.Search.Thrown
import HandlerLint.Proofs.Search.Rethrow
import HandlerLint.Proofs.Source.Change
import HandlerLint.Proofs.Source.Errors
import HandlerLint.Proofs.Search.Interchange
import HandlerLint.Proofs.Search.ChangedChild
import HandlerLint.Proofs.Search.Replacement
import HandlerLint.Proofs.Search.Transparency
import HandlerLint.Proofs.Path.Relative
import HandlerLint.Proofs.Path.Identity
import HandlerLint.Proofs.Language.Filters
import HandlerLint.Proofs.Search.EmptyStatements
import HandlerLint.Proofs.Path.Parent
import HandlerLint.Proofs.Files.Growth
import HandlerLint.Proofs.Files.Making
import HandlerLint.Proofs.CommandLine.Template
import HandlerLint.Proofs.CommandLine.MachineReport
import HandlerLint.Proofs.Lowering.Discipline
import HandlerLint.Proofs.Lowering.Turns
import HandlerLint.Proofs.Search.Loops
