import BlockCheck.AntiPattern
import BlockCheck.BlockStore
import BlockCheck.CommandLine.Arguments
import BlockCheck.CommandLine.Manual
import BlockCheck.CommandLine.Options
import BlockCheck.CommandLine.Run
import BlockCheck.CommandLine.Summary
import BlockCheck.CommandLine.Word
import BlockCheck.Config
import BlockCheck.Discovery
import BlockCheck.Disk
import BlockCheck.Document
import BlockCheck.Document.Session
import BlockCheck.Files
import BlockCheck.Imports
import BlockCheck.Issue
import BlockCheck.Json
import BlockCheck.Json.Parser
import BlockCheck.Json.Printer
import BlockCheck.Lint.Components
import BlockCheck.Lint.Documents
import BlockCheck.Location
import BlockCheck.Main
import BlockCheck.Moment
import BlockCheck.Number.Binary64
import BlockCheck.Number.Shortest
import BlockCheck.Path
import BlockCheck.Props.Resolution
import BlockCheck.Props.Session
import BlockCheck.Record
import BlockCheck.Reference
import BlockCheck.Report
import BlockCheck.Scan
import BlockCheck.Schema
import BlockCheck.Schema.Reading
import BlockCheck.Source.Cursor
import BlockCheck.Source.Expressions
import BlockCheck.Source.Grammar
import BlockCheck.Source.Lexeme
import BlockCheck.Source.Outline
import BlockCheck.Source.Statements
import BlockCheck.Source.Syntax
import BlockCheck.Source.Types
import BlockCheck.Text.Affix
import BlockCheck.Text.Blank
import BlockCheck.Text.Digit
import BlockCheck.Text.Line
import BlockCheck.Text.Percent
import BlockCheck.Text.Printable
import BlockCheck.Text.Quoted
import BlockCheck.Text.Utf8
import BlockCheck.Text.Word
import BlockCheck.Usage
import BlockCheck.Validation
import BlockCheck.Proofs.Blocks.Reach
import BlockCheck.Proofs.Json.DistinctKeys
import BlockCheck.Proofs.Scan.Locations
import BlockCheck.Proofs.Blocks.Walk
import BlockCheck.Proofs.Schema.Codes
import BlockCheck.Proofs.Blocks.Circular
import BlockCheck.Proofs.Schema.Conforms
import BlockCheck.Proofs.Schema.Modes
import BlockCheck.Proofs.Schema.Origins
import BlockCheck.Proofs.Lint.Failures
import BlockCheck.Proofs.Lint.UnusedProperties
import BlockCheck.Proofs.Lists
import BlockCheck.Proofs.Schema.StrictFindings
import BlockCheck.Proofs.Scan.Mentions
import BlockCheck.Proofs.Lint.UnusedComponents
import BlockCheck.Proofs.Lint.OtherNames
import BlockCheck.Proofs.Path.Steps
import BlockCheck.Proofs.Disk.Places
import BlockCheck.Proofs.Disk.Writing
import BlockCheck.Proofs.Lint.ComponentFiles
import BlockCheck.Proofs.Lint.Agreement
import BlockCheck.Proofs.Disk.Entries
import BlockCheck.Proofs.Lint.UnusedBlocks
import BlockCheck.Proofs.Props.Depth
import BlockCheck.Proofs.Props.Unguarded
import BlockCheck.Proofs.Props.Marks
import BlockCheck.Proofs.Props.Reentry
import BlockCheck.Proofs.Scan.Renaming
import BlockCheck.Proofs.Schema.Deferred
import BlockCheck.Proofs.Lint.RenamedDocuments
import BlockCheck.Proofs.Text.Respelled
import BlockCheck.Proofs.Disk.Contents
import BlockCheck.Proofs.Props.Reading
import BlockCheck.Proofs.Lint.RenamedProjects
import BlockCheck.Proofs.Lint.RenamedComponents
import BlockCheck.Proofs.Lint.RenamedRuns
import BlockCheck.Proofs.Path.Sorted
import BlockCheck.Proofs.Props.Calls
import BlockCheck.Proofs.Blocks.Surroundings
import BlockCheck.Proofs.Lint.DocumentSessions
import BlockCheck.Proofs.Lint.UnaffectedDocuments
import BlockCheck.Proofs.Path.Normal
import BlockCheck.Proofs.Props.Chains
import BlockCheck.Proofs.Disk.NewFile
import BlockCheck.Proofs.Lint.BrokenDocuments
import BlockCheck.Proofs.Schema.Degraded
import BlockCheck.Proofs.Schema.DistinctNames
import BlockCheck.Proofs.Schema.Placed
import BlockCheck.Proofs.Props.Shapes
import BlockCheck.Proofs.Props.Heritage
import BlockCheck.Proofs.Props.Inherited
import BlockCheck.Proofs.Props.IgnoredMembers
import BlockCheck.Proofs.Records
import BlockCheck.Proofs.Path.Spellings
import BlockCheck.Proofs.Props.UtilityTypes
import BlockCheck.Proofs.Props.OtherBases
import BlockCheck.Proofs.Props.Trails
import BlockCheck.Proofs.Props.DefaultBindings
import BlockCheck.Proofs.Json.Places
import BlockCheck.Proofs.Scan.Walks
import BlockCheck.Proofs.Scan.Outermost
import BlockCheck.Proofs.Text.ValidUtf8
import BlockCheck.Proofs.Text.Escapes
import BlockCheck.Proofs.Path.Inside
import BlockCheck.Proofs.Blocks.FileNames
import BlockCheck.Proofs.Json.Written
import BlockCheck.Proofs.Scan.WrittenPairs
import BlockCheck.Proofs.Text.PairLines
import BlockCheck.Proofs.Lint.OccurrenceLines
import BlockCheck.Proofs.Path.Below
import BlockCheck.Proofs.Path.Joined
import BlockCheck.Proofs.Disk.NormalNames
import BlockCheck.Proofs.Naming.Identifiers
import BlockCheck.Proofs.Props.LongestAlias
import BlockCheck.Proofs.Props.AliasTargets
import BlockCheck.Proofs.Props.Forgetting
import BlockCheck.Proofs.Schema.LocationTexts
import BlockCheck.Proofs.Text.NeedleLines
import BlockCheck.Proofs.Props.Nesting
import BlockCheck.Proofs.Lint.Standings
import BlockCheck.Proofs.CommandLine.ShownFailures
import BlockCheck.Proofs.Lint.ReportCounts
