import SymbolHistory.Command
import SymbolHistory.Command.Arguments
import SymbolHistory.Command.Run
import SymbolHistory.Config
import SymbolHistory.Config.Decode
import SymbolHistory.ConstantName
import SymbolHistory.Diff.Block
import SymbolHistory.Diff.CommonRun
import SymbolHistory.Diff.Compaction
import SymbolHistory.Diff.Greedy
import SymbolHistory.Diff.Hunk
import SymbolHistory.Diff.MiddleSnake
import SymbolHistory.Diff.Script
import SymbolHistory.Distinct
import SymbolHistory.Error
import SymbolHistory.Evolution.CompressedView
import SymbolHistory.Evolution.Timeline
import SymbolHistory.Evolution.VersionChain
import SymbolHistory.FileTree
import SymbolHistory.Glob
import SymbolHistory.Glob.Parser
import SymbolHistory.Grammar
import SymbolHistory.History.Basic
import SymbolHistory.History.Git
import SymbolHistory.History.Log
import SymbolHistory.History.Memory
import SymbolHistory.History.RecordedGit
import SymbolHistory.Json.Access
import SymbolHistory.Json.Basic
import SymbolHistory.Json.Parser
import SymbolHistory.Json.Printer
import SymbolHistory.Language
import SymbolHistory.Listing
import SymbolHistory.Main
import SymbolHistory.Number.Binary64
import SymbolHistory.Number.Decimal
import SymbolHistory.ParsedSource
import SymbolHistory.ParsedSource.References
import SymbolHistory.Path
import SymbolHistory.Pattern
import SymbolHistory.PlainSource
import SymbolHistory.PlainSource.Declarations
import SymbolHistory.PlainSource.Forms
import SymbolHistory.PlainSource.References
import SymbolHistory.Project
import SymbolHistory.Query
import SymbolHistory.Query.Decode
import SymbolHistory.Recording
import SymbolHistory.Reference
import SymbolHistory.Report.ChainRecord
import SymbolHistory.Report.Comparison
import SymbolHistory.Report.Page
import SymbolHistory.Report.Shade
import SymbolHistory.Report.Style
import SymbolHistory.Report.SymbolRecord
import SymbolHistory.Report.TimelineReport
import SymbolHistory.Report.ViewLine
import SymbolHistory.Rules.Basic
import SymbolHistory.Rules.JavaScript
import SymbolHistory.Rules.OfLanguage
import SymbolHistory.Rules.PowerShell
import SymbolHistory.Rules.Python
import SymbolHistory.Rules.R
import SymbolHistory.Rules.Shell
import SymbolHistory.SourceModel
import SymbolHistory.Symbol
import SymbolHistory.Text.Blank
import SymbolHistory.Text.CaseFolding
import SymbolHistory.Text.CodePointSet
import SymbolHistory.Text.LetterCase
import SymbolHistory.Text.Lines
import SymbolHistory.Text.Pad
import SymbolHistory.Text.Quoted
import SymbolHistory.Text.Utf8
import SymbolHistory.Text.WordChar
import SymbolHistory.Tree.Capture
import SymbolHistory.Tree.Damage
import SymbolHistory.Tree.Node
import SymbolHistory.Tree.Preorder
import SymbolHistory.Tree.Visit
import SymbolHistory.Workspace
import SymbolHistory.Yaml.Document
import SymbolHistory.Yaml.Node
import SymbolHistory.Yaml.Place
import SymbolHistory.Yaml.Scalar
import SymbolHistory.Yaml.Tag
import SymbolHistory.Yaml.Token
import SymbolHistory.Proofs.Diff.CommonSubsequence
import SymbolHistory.Proofs.Diff.FurthestPoints
import SymbolHistory.Proofs.Diff.EditPath
import SymbolHistory.Proofs.Diff.Settling
import SymbolHistory.Proofs.Diff.MeetingPoint
import SymbolHistory.Proofs.Diff.ScriptPath
import SymbolHistory.Proofs.Diff.HunkChanges
import SymbolHistory.Proofs.Diff.Patch
import SymbolHistory.Proofs.Diff.Minimality
import SymbolHistory.Proofs.Diff.Application
import SymbolHistory.Proofs.Diff.BothSides
import SymbolHistory.Proofs.MaximalRun
import SymbolHistory.Proofs.Diff.Lookahead
import SymbolHistory.Proofs.History.RecordedSnapshots
import SymbolHistory.Proofs.Number.Integer64
import SymbolHistory.Proofs.Text.Pieces
import SymbolHistory.Proofs.Evolution.Retention
import SymbolHistory.Proofs.Evolution.ViewRecovery
import SymbolHistory.Proofs.Distinct
import SymbolHistory.Proofs.Evolution.TimelineLookup
import SymbolHistory.Proofs.Tree.Laminar
import SymbolHistory.Proofs.Extraction.DeclarationSpan
import SymbolHistory.Proofs.Extraction.NoOverlap
import SymbolHistory.Proofs.Extraction.Outermost
import SymbolHistory.Proofs.Extraction.Repeats
import SymbolHistory.Proofs.Evolution.AppendOnly
import SymbolHistory.Proofs.References.Order
import SymbolHistory.Proofs.References.Parsed
import SymbolHistory.Proofs.References.Plain
import SymbolHistory.Proofs.References.Targets
import SymbolHistory.Proofs.Extraction.BareName
import SymbolHistory.Proofs.Extraction.OwnNames
import SymbolHistory.Proofs.Tree.Identity
import SymbolHistory.Proofs.References.OwnVerdict
import SymbolHistory.Proofs.References.OwnLine
import SymbolHistory.Proofs.References.EnclosingContext
import SymbolHistory.Proofs.Evolution.RepeatedContent
import SymbolHistory.Proofs.Report.ViewCompleteness
import SymbolHistory.Proofs.Project.ScanOrder
import SymbolHistory.Proofs.Text.LineFeeds
import SymbolHistory.Proofs.PlainSource.LineAddresses
import SymbolHistory.Proofs.Extraction.DeclaredKinds
import SymbolHistory.Proofs.Extraction.SoundSymbols
import SymbolHistory.Proofs.SourceModel.FallbackChain
import SymbolHistory.Proofs.History.LogRoundTrip
import SymbolHistory.Proofs.Diff.BlockStarts
import SymbolHistory.Proofs.Extraction.GlobalAnchors
import SymbolHistory.Proofs.Diff.HunkHeaders
import SymbolHistory.Proofs.PlainSource.SpannedText
import SymbolHistory.Proofs.PlainSource.NestedBlocks
import SymbolHistory.Proofs.References.WholeWords
import SymbolHistory.Proofs.References.QualifiedTargets
import SymbolHistory.Proofs.Report.ShadeBalance
import SymbolHistory.Proofs.Tree.DamageAccount
import SymbolHistory.Proofs.Report.RecordAgreement
import SymbolHistory.Proofs.FileTree.WayDown
import SymbolHistory.Proofs.Project.ScanCoverage
