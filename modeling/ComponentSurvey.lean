import ComponentSurvey.CommandLine.Arguments
import ComponentSurvey.CommandLine.Command
import ComponentSurvey.CommandLine.Failure
import ComponentSurvey.CommandLine.Run
import ComponentSurvey.CommandLine.Template
import ComponentSurvey.CommandLine.Text
import ComponentSurvey.CommandLine.Usage
import ComponentSurvey.Discovery.Filter
import ComponentSurvey.Discovery.Search
import ComponentSurvey.Facts.Basic
import ComponentSurvey.Facts.Binding
import ComponentSurvey.Facts.ComponentSummary
import ComponentSurvey.Facts.Evidence
import ComponentSurvey.Facts.Extraction
import ComponentSurvey.Facts.Json
import ComponentSurvey.Facts.Props
import ComponentSurvey.Facts.Tagging
import ComponentSurvey.Facts.Tracing
import ComponentSurvey.Files.Content
import ComponentSurvey.Files.Tree
import ComponentSurvey.Glob.Matching
import ComponentSurvey.Glob.Pattern
import ComponentSurvey.Ignore.Matching
import ComponentSurvey.Ignore.Pattern
import ComponentSurvey.Ignore.Rules
import ComponentSurvey.Json.Basic
import ComponentSurvey.Json.Parser
import ComponentSurvey.Json.Printer
import ComponentSurvey.Library.Components
import ComponentSurvey.Library.Rating
import ComponentSurvey.Main
import ComponentSurvey.Migration.Analysis
import ComponentSurvey.Migration.AttributeRename
import ComponentSurvey.Migration.Batch
import ComponentSurvey.Migration.Change
import ComponentSurvey.Migration.DataSourceUpgrade
import ComponentSurvey.Migration.Edit
import ComponentSurvey.Migration.Outcome
import ComponentSurvey.Migration.Pipeline
import ComponentSurvey.Migration.Rule
import ComponentSurvey.Number.Binary64
import ComponentSurvey.Number.Shortest
import ComponentSurvey.Order.Distinct
import ComponentSurvey.Order.Grouping
import ComponentSurvey.Order.Insertion
import ComponentSurvey.Order.Partition
import ComponentSurvey.Order.Total
import ComponentSurvey.Path.Basic
import ComponentSurvey.Patterns.Basic
import ComponentSurvey.Patterns.Grouping
import ComponentSurvey.Patterns.Json
import ComponentSurvey.Patterns.Observation
import ComponentSurvey.Patterns.Project
import ComponentSurvey.Patterns.Recommendation
import ComponentSurvey.Proofs.Discovery.Defaults
import ComponentSurvey.Proofs.Discovery.Search
import ComponentSurvey.Proofs.Facts.Comments
import ComponentSurvey.Proofs.Facts.Evidence
import ComponentSurvey.Proofs.Facts.Issues
import ComponentSurvey.Proofs.Facts.Json
import ComponentSurvey.Proofs.Facts.Literals
import ComponentSurvey.Proofs.Facts.RequiredProps
import ComponentSurvey.Proofs.Facts.SourceOrder
import ComponentSurvey.Proofs.Facts.Tagging
import ComponentSurvey.Proofs.Facts.Tracing
import ComponentSurvey.Proofs.Facts.Usages
import ComponentSurvey.Proofs.Files.Building
import ComponentSurvey.Proofs.Files.Tree
import ComponentSurvey.Proofs.Files.Writing
import ComponentSurvey.Proofs.Glob.Bare
import ComponentSurvey.Proofs.Glob.Endings
import ComponentSurvey.Proofs.Glob.Language
import ComponentSurvey.Proofs.Glob.Parsing
import ComponentSurvey.Proofs.Glob.Segments
import ComponentSurvey.Proofs.Json.Layout
import ComponentSurvey.Proofs.Json.Literals
import ComponentSurvey.Proofs.Json.RoundTrip
import ComponentSurvey.Proofs.Migration.Accounting
import ComponentSurvey.Proofs.Migration.Attempts
import ComponentSurvey.Proofs.Migration.AttributeRemoval
import ComponentSurvey.Proofs.Migration.AttributeSpans
import ComponentSurvey.Proofs.Migration.Backups
import ComponentSurvey.Proofs.Migration.BatchSelection
import ComponentSurvey.Proofs.Migration.ChangeLog
import ComponentSurvey.Proofs.Migration.ClearedIssues
import ComponentSurvey.Proofs.Migration.DoubledAttributes
import ComponentSurvey.Proofs.Migration.Drift
import ComponentSurvey.Proofs.Migration.Edit
import ComponentSurvey.Proofs.Migration.EditSpans
import ComponentSurvey.Proofs.Migration.ImportCollisions
import ComponentSurvey.Proofs.Migration.Isolation
import ComponentSurvey.Proofs.Migration.IssueCounts
import ComponentSurvey.Proofs.Migration.Overlaps
import ComponentSurvey.Proofs.Migration.PlannedEdits
import ComponentSurvey.Proofs.Migration.References
import ComponentSurvey.Proofs.Migration.RenamePositions
import ComponentSurvey.Proofs.Migration.RenameTurns
import ComponentSurvey.Proofs.Migration.Repetition
import ComponentSurvey.Proofs.Migration.Rollback
import ComponentSurvey.Proofs.Migration.StatementRemoval
import ComponentSurvey.Proofs.Migration.Substitution
import ComponentSurvey.Proofs.Migration.TextRenames
import ComponentSurvey.Proofs.Migration.TextSearch
import ComponentSurvey.Proofs.Migration.UpdateCalls
import ComponentSurvey.Proofs.Order.Distinct
import ComponentSurvey.Proofs.Order.Grouping
import ComponentSurvey.Proofs.Order.Partition
import ComponentSurvey.Proofs.Order.Sorting
import ComponentSurvey.Proofs.Order.TextSet
import ComponentSurvey.Proofs.Path.Order
import ComponentSurvey.Proofs.Path.Relative
import ComponentSurvey.Proofs.Patterns.Forms
import ComponentSurvey.Proofs.Patterns.Grouping
import ComponentSurvey.Proofs.Patterns.Names
import ComponentSurvey.Proofs.Patterns.Recommendation
import ComponentSurvey.Proofs.Survey.FileTable
import ComponentSurvey.Proofs.Survey.PatternSummary
import ComponentSurvey.Proofs.Survey.Replay
import ComponentSurvey.Proofs.Survey.Rescan
import ComponentSurvey.Proofs.Survey.Summaries
import ComponentSurvey.Proofs.Survey.Update
import ComponentSurvey.Proofs.Syntax.Grammar.Basic
import ComponentSurvey.Proofs.Syntax.Grammar.Classes
import ComponentSurvey.Proofs.Syntax.Grammar.Functions
import ComponentSurvey.Proofs.Syntax.Grammar.Markup
import ComponentSurvey.Proofs.Syntax.Grammar.Modules
import ComponentSurvey.Proofs.Syntax.Grammar.Operands
import ComponentSurvey.Proofs.Syntax.Grammar.Operators
import ComponentSurvey.Proofs.Syntax.Grammar.Patterns
import ComponentSurvey.Proofs.Syntax.Grammar.Statements
import ComponentSurvey.Proofs.Syntax.Grammar.Types
import ComponentSurvey.Proofs.Syntax.Lexical
import ComponentSurvey.Proofs.Syntax.Parsing
import ComponentSurvey.Proofs.Syntax.Preorder
import ComponentSurvey.Proofs.Syntax.Production
import ComponentSurvey.Proofs.Syntax.Reading
import ComponentSurvey.Proofs.Syntax.Separation
import ComponentSurvey.Proofs.Syntax.Walk
import ComponentSurvey.Proofs.Text.Addresses
import ComponentSurvey.Proofs.Text.Lines
import ComponentSurvey.Proofs.Text.Position
import ComponentSurvey.Proofs.Text.Runs
import ComponentSurvey.Proofs.Text.Scanner
import ComponentSurvey.Settings.Basic
import ComponentSurvey.Settings.File
import ComponentSurvey.Settings.Toml
import ComponentSurvey.Survey.Basic
import ComponentSurvey.Survey.Dependencies
import ComponentSurvey.Survey.Failure
import ComponentSurvey.Survey.Manifest
import ComponentSurvey.Survey.Scan
import ComponentSurvey.Survey.Summary
import ComponentSurvey.Survey.Update
import ComponentSurvey.Syntax.Document
import ComponentSurvey.Syntax.Grammar
import ComponentSurvey.Syntax.Grammar.Basic
import ComponentSurvey.Syntax.Grammar.Classes
import ComponentSurvey.Syntax.Grammar.Functions
import ComponentSurvey.Syntax.Grammar.Markup
import ComponentSurvey.Syntax.Grammar.Modules
import ComponentSurvey.Syntax.Grammar.Operands
import ComponentSurvey.Syntax.Grammar.Operators
import ComponentSurvey.Syntax.Grammar.Patterns
import ComponentSurvey.Syntax.Grammar.Statements
import ComponentSurvey.Syntax.Grammar.Types
import ComponentSurvey.Syntax.Kind
import ComponentSurvey.Syntax.Lexical
import ComponentSurvey.Syntax.Node
import ComponentSurvey.Syntax.Reader
import ComponentSurvey.Syntax.Walk
import ComponentSurvey.Text.CharClass
import ComponentSurvey.Text.Position
import ComponentSurvey.Text.Scanner
import ComponentSurvey.Text.Words
import ComponentSurvey.Toml.Basic
import ComponentSurvey.Toml.Document
import ComponentSurvey.Toml.Literal
