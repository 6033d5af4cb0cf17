import ReactiveLint.Data.Json
import ReactiveLint.Data.JsonText
import ReactiveLint.Data.Record
import ReactiveLint.Directive.Basic
import ReactiveLint.Directive.Reader
import ReactiveLint.Engine.Dispatch
import ReactiveLint.Engine.Linter
import ReactiveLint.Engine.Run
import ReactiveLint.Engine.Summary
import ReactiveLint.Engine.Timing
import ReactiveLint.Engine.Walk
import ReactiveLint.Files.Path
import ReactiveLint.Files.Store
import ReactiveLint.Fix.Apply
import ReactiveLint.Fix.Basic
import ReactiveLint.Fix.Batch
import ReactiveLint.Fix.Diff
import ReactiveLint.Number.Basic
import ReactiveLint.Number.Decimal
import ReactiveLint.Number.Fixed
import ReactiveLint.Order.StableSort
import ReactiveLint.Pattern.Basic
import ReactiveLint.Pattern.CharSet
import ReactiveLint.Pattern.Literal
import ReactiveLint.Pattern.Parser
import ReactiveLint.Pattern.Property
import ReactiveLint.Proofs.Data.Lookup
import ReactiveLint.Proofs.Data.Result
import ReactiveLint.Proofs.Directive.Lookup
import ReactiveLint.Proofs.Directive.Places
import ReactiveLint.Proofs.Directive.Reading
import ReactiveLint.Proofs.Directive.Splitting
import ReactiveLint.Proofs.Directive.Tables
import ReactiveLint.Proofs.Directive.Wording
import ReactiveLint.Proofs.Engine.Alone
import ReactiveLint.Proofs.Engine.Averages
import ReactiveLint.Proofs.Engine.Bracketing
import ReactiveLint.Proofs.Engine.Cause
import ReactiveLint.Proofs.Engine.Course
import ReactiveLint.Proofs.Engine.Diagnosed
import ReactiveLint.Proofs.Engine.History
import ReactiveLint.Proofs.Engine.Independence
import ReactiveLint.Proofs.Engine.Invocations
import ReactiveLint.Proofs.Engine.Isolation
import ReactiveLint.Proofs.Engine.Offers
import ReactiveLint.Proofs.Engine.PlainRun
import ReactiveLint.Proofs.Engine.Position
import ReactiveLint.Proofs.Engine.Summary
import ReactiveLint.Proofs.Engine.Suppression
import ReactiveLint.Proofs.Engine.SwitchedOff
import ReactiveLint.Proofs.Engine.Walk
import ReactiveLint.Proofs.Files.Path
import ReactiveLint.Proofs.Files.Store
import ReactiveLint.Proofs.Fix.Batched
import ReactiveLint.Proofs.Fix.Collected
import ReactiveLint.Proofs.Fix.DiffText
import ReactiveLint.Proofs.Fix.Gaps
import ReactiveLint.Proofs.Fix.InOrder
import ReactiveLint.Proofs.Fix.Kept
import ReactiveLint.Proofs.Fix.Merged
import ReactiveLint.Proofs.Fix.Pass
import ReactiveLint.Proofs.Fix.Patch
import ReactiveLint.Proofs.Fix.Replacing
import ReactiveLint.Proofs.Fix.Reread
import ReactiveLint.Proofs.Fix.Splice
import ReactiveLint.Proofs.Fix.Verdict
import ReactiveLint.Proofs.Number.Rounding
import ReactiveLint.Proofs.Number.Shortest
import ReactiveLint.Proofs.Number.Text
import ReactiveLint.Proofs.Order.StableSort
import ReactiveLint.Proofs.Pattern.Anchored
import ReactiveLint.Proofs.Pattern.Matching
import ReactiveLint.Proofs.Pattern.Readers
import ReactiveLint.Proofs.Pattern.Words
import ReactiveLint.Proofs.Rule.Report
import ReactiveLint.Proofs.Rules.Alias
import ReactiveLint.Proofs.Rules.AliasText
import ReactiveLint.Proofs.Rules.Bans
import ReactiveLint.Proofs.Rules.BuiltIn
import ReactiveLint.Proofs.Rules.Calling
import ReactiveLint.Proofs.Rules.Checks
import ReactiveLint.Proofs.Rules.Diagnosing
import ReactiveLint.Proofs.Rules.Faults
import ReactiveLint.Proofs.Rules.Fixing
import ReactiveLint.Proofs.Rules.Ignored
import ReactiveLint.Proofs.Rules.Internal
import ReactiveLint.Proofs.Rules.NameSelector
import ReactiveLint.Proofs.Rules.NameSite
import ReactiveLint.Proofs.Rules.Nested
import ReactiveLint.Proofs.Rules.Notifier
import ReactiveLint.Proofs.Rules.Plain
import ReactiveLint.Proofs.Rules.Sound
import ReactiveLint.Proofs.Rules.TakeUntil
import ReactiveLint.Proofs.Rules.Unbound
import ReactiveLint.Proofs.Scope.Declarations
import ReactiveLint.Proofs.Scope.Parameters
import ReactiveLint.Proofs.Scope.Resolution
import ReactiveLint.Proofs.Selector.Attributes
import ReactiveLint.Proofs.Selector.Chain
import ReactiveLint.Proofs.Selector.Confined
import ReactiveLint.Proofs.Selector.CutPoint
import ReactiveLint.Proofs.Selector.CutShort
import ReactiveLint.Proofs.Selector.Downward
import ReactiveLint.Proofs.Selector.Equality
import ReactiveLint.Proofs.Selector.Grammar
import ReactiveLint.Proofs.Selector.Longer
import ReactiveLint.Proofs.Selector.Misreading
import ReactiveLint.Proofs.Selector.Pieces
import ReactiveLint.Proofs.Selector.Readers
import ReactiveLint.Proofs.Selector.RoundTrip
import ReactiveLint.Proofs.Selector.Subject
import ReactiveLint.Proofs.Selector.Written
import ReactiveLint.Proofs.Settings.Bases
import ReactiveLint.Proofs.Settings.Checks
import ReactiveLint.Proofs.Settings.Layers
import ReactiveLint.Proofs.Sketch.Built
import ReactiveLint.Proofs.Sketch.Imports
import ReactiveLint.Proofs.Sketch.Nodes
import ReactiveLint.Proofs.Sketch.Origins
import ReactiveLint.Proofs.Sketch.Rendering
import ReactiveLint.Proofs.Sketch.Replaced
import ReactiveLint.Proofs.Sketch.Rewritten
import ReactiveLint.Proofs.Syntax.Ancestry
import ReactiveLint.Proofs.Syntax.Built
import ReactiveLint.Proofs.Syntax.Descent
import ReactiveLint.Proofs.Syntax.Facing
import ReactiveLint.Proofs.Syntax.Growing
import ReactiveLint.Proofs.Syntax.Layout
import ReactiveLint.Proofs.Syntax.Linking
import ReactiveLint.Proofs.Syntax.Loaded
import ReactiveLint.Proofs.Syntax.Loading
import ReactiveLint.Proofs.Syntax.Nearest
import ReactiveLint.Proofs.Syntax.NodeObjects
import ReactiveLint.Proofs.Syntax.Occupant
import ReactiveLint.Proofs.Syntax.Pairing
import ReactiveLint.Proofs.Syntax.PostOrder
import ReactiveLint.Proofs.Syntax.Refusal
import ReactiveLint.Proofs.Syntax.Units
import ReactiveLint.Proofs.Text.Blanks
import ReactiveLint.Proofs.Text.Characters
import ReactiveLint.Proofs.Text.Numbering
import ReactiveLint.Proofs.Text.Positions
import ReactiveLint.Proofs.Text.Units
import ReactiveLint.Proofs.Text.Utf16
import ReactiveLint.Proofs.Types.Returns
import ReactiveLint.Report.Diagnostic
import ReactiveLint.Report.Json
import ReactiveLint.Report.Severity
import ReactiveLint.Rule.Basic
import ReactiveLint.Rule.Info
import ReactiveLint.Rule.Json
import ReactiveLint.Rule.Report
import ReactiveLint.Rules.Effects
import ReactiveLint.Rules.Errors
import ReactiveLint.Rules.Imports
import ReactiveLint.Rules.NameSite
import ReactiveLint.Rules.Names
import ReactiveLint.Rules.Operators
import ReactiveLint.Rules.Options
import ReactiveLint.Rules.Registry
import ReactiveLint.Rules.Subjects
import ReactiveLint.Rules.Subscribing
import ReactiveLint.Scope.Analysis
import ReactiveLint.Scope.Basic
import ReactiveLint.Selector.Basic
import ReactiveLint.Selector.Match
import ReactiveLint.Selector.Parser
import ReactiveLint.Selector.Printer
import ReactiveLint.Settings.Config
import ReactiveLint.Settings.Error
import ReactiveLint.Settings.Load
import ReactiveLint.Sketch.Basic
import ReactiveLint.Sketch.Program
import ReactiveLint.Syntax.Estree
import ReactiveLint.Syntax.Kind
import ReactiveLint.Syntax.Path
import ReactiveLint.Syntax.Query
import ReactiveLint.Syntax.Scalar
import ReactiveLint.Syntax.Tree
import ReactiveLint.Text.Blank
import ReactiveLint.Text.Bytes
import ReactiveLint.Text.Case
import ReactiveLint.Text.Category
import ReactiveLint.Text.CodeRange
import ReactiveLint.Text.Letter
import ReactiveLint.Text.Lines
import ReactiveLint.Text.Quoted
import ReactiveLint.Text.Script
import ReactiveLint.Text.Span
import ReactiveLint.Text.Template
import ReactiveLint.Text.Utf16
import ReactiveLint.Types.Basic
import ReactiveLint.Types.Json
import ReactiveLint.Yaml.Basic
import ReactiveLint.Yaml.Block
import ReactiveLint.Yaml.Flow
