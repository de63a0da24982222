import DiagramSync.Check.DataModel
import DiagramSync.Check.Delimiters
import DiagramSync.Check.Fault
import DiagramSync.Check.Flowchart
import DiagramSync.Check.Markup
import DiagramSync.Command.Basic
import DiagramSync.Command.Condition
import DiagramSync.Command.LineSearch
import DiagramSync.Command.Pattern
import DiagramSync.Command.Print
import DiagramSync.Command.Programs
import DiagramSync.Command.Run
import DiagramSync.Command.Script
import DiagramSync.CommandLine.Arguments
import DiagramSync.CommandLine.Program
import DiagramSync.Config.Basic
import DiagramSync.Config.Source
import DiagramSync.Config.Tree
import DiagramSync.Diagnostic
import DiagramSync.Diagram.Basic
import DiagramSync.Diagram.DataModel
import DiagramSync.Diagram.Journey
import DiagramSync.Diagram.Label
import DiagramSync.Document.Heading
import DiagramSync.Document.Line
import DiagramSync.Engine
import DiagramSync.Entity.Basic
import DiagramSync.Entity.Declaration
import DiagramSync.Entity.Entry
import DiagramSync.Entity.Mention
import DiagramSync.Entity.OfDocument
import DiagramSync.Entity.Phrase
import DiagramSync.FileTree
import DiagramSync.Main
import DiagramSync.Notice
import DiagramSync.Region.Marker
import DiagramSync.Region.OfDocument
import DiagramSync.Report
import DiagramSync.Run
import DiagramSync.Span
import DiagramSync.Story.Basic
import DiagramSync.Story.Heading
import DiagramSync.Story.OfDocument
import DiagramSync.Story.ScenarioItem
import DiagramSync.Text.Alphanumeric
import DiagramSync.Text.Basic
import DiagramSync.Text.Cased
import DiagramSync.Text.Duration
import DiagramSync.Text.Lowercase
import DiagramSync.Toml.Basic
import DiagramSync.Toml.Document
import DiagramSync.Toml.Moment
import DiagramSync.Toml.Number
import DiagramSync.Toml.Quoted
import DiagramSync.Toml.Table
import DiagramSync.Toml.Word
import DiagramSync.Update
import DiagramSync.Validator.Basic
import DiagramSync.Validator.Consult
import DiagramSync.Proofs.Document.Scan
import DiagramSync.Proofs.Region.Layout
import DiagramSync.Proofs.Region.Boundary
import DiagramSync.Proofs.Region.Location
import DiagramSync.Proofs.Update.Order
import DiagramSync.Proofs.Update.Frame
import DiagramSync.Proofs.Region.Entry
import DiagramSync.Proofs.Update.Revised
import DiagramSync.Proofs.Update.Relayout
import DiagramSync.Proofs.Update.Fitting
import DiagramSync.Proofs.Update.Settled
import DiagramSync.Proofs.Update.OpenEnd
import DiagramSync.Proofs.Document.Padding
import DiagramSync.Proofs.Story.Padding
import DiagramSync.Proofs.Entity.Padding
import DiagramSync.Proofs.Diagram.DataModelContent
import DiagramSync.Proofs.Diagram.DataModelDrawing
import DiagramSync.Proofs.Diagram.Distinct
import DiagramSync.Proofs.Diagram.Drawing
import DiagramSync.Proofs.Diagram.JourneyContent
import DiagramSync.Proofs.Diagram.JourneyGraph
import DiagramSync.Proofs.Diagram.Label
import DiagramSync.Proofs.Diagram.Plain
import DiagramSync.Proofs.Update.Padding
import DiagramSync.Proofs.Engine.Settled
import DiagramSync.Proofs.Engine.Warnings
import DiagramSync.Proofs.Region.Pairing
import DiagramSync.Proofs.Engine.CodeBlock
import DiagramSync.Proofs.Engine.Outcome
import DiagramSync.Proofs.Check.Markup
import DiagramSync.Proofs.Check.Delimiters
import DiagramSync.Proofs.Check.Flowchart
import DiagramSync.Proofs.Check.DataModel
import DiagramSync.Proofs.Check.Rendered
import DiagramSync.Proofs.Engine.Reading
import DiagramSync.Proofs.Engine.Stale
import DiagramSync.Proofs.Text.Search
import DiagramSync.Proofs.Story.Scope
import DiagramSync.Proofs.Story.Print
import DiagramSync.Proofs.Entity.Entry
import DiagramSync.Proofs.Entity.Mention
import DiagramSync.Proofs.Entity.Relationship
import DiagramSync.Proofs.Entity.Account
import DiagramSync.Proofs.Entity.Declaration
import DiagramSync.Proofs.Entity.Prose
import DiagramSync.Proofs.Entity.Print
import DiagramSync.Proofs.Engine.Validation
import DiagramSync.Proofs.FileTree.Path
import DiagramSync.Proofs.FileTree.Work
import DiagramSync.Proofs.Run.Frame
import DiagramSync.Proofs.CommandLine.Agreement
import DiagramSync.Proofs.Entity.Longest
import DiagramSync.Proofs.Entity.Section
import DiagramSync.Proofs.Entity.ExactMention
import DiagramSync.Proofs.Entity.Reorder
import DiagramSync.Proofs.Engine.OutOfDate
import DiagramSync.Proofs.Update.OneByOne
import DiagramSync.Proofs.Check.Nesting
import DiagramSync.Proofs.Check.Blocks
import DiagramSync.Proofs.Update.NewRegion
import DiagramSync.Proofs.Story.Announcement
import DiagramSync.Proofs.Region.Grammar
import DiagramSync.Proofs.Diagram.Identifier
import DiagramSync.Proofs.Diagram.Escape
import DiagramSync.Proofs.Document.Visible
import DiagramSync.Proofs.Engine.Labels
import DiagramSync.Proofs.Diagram.Letters
import DiagramSync.Proofs.Document.Partition
import DiagramSync.Proofs.Entity.Resolution
import DiagramSync.Proofs.Text.Rounds
import DiagramSync.Proofs.Entity.Progress
