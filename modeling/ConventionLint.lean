import ConventionLint.Command.Basic
import ConventionLint.Command.Transcript
import ConventionLint.Command.Words
import ConventionLint.Conventions.Basic
import ConventionLint.Conventions.Load
import ConventionLint.Conventions.Reader
import ConventionLint.Data.Decimal
import ConventionLint.Data.Json.Reader
import ConventionLint.Data.Json.Writer
import ConventionLint.Data.Number
import ConventionLint.Data.Value
import ConventionLint.Data.Yaml.Cursor
import ConventionLint.Data.Yaml.Node
import ConventionLint.Data.Yaml.Resolve
import ConventionLint.Data.Yaml.Scalar
import ConventionLint.Data.Yaml.Timestamp
import ConventionLint.Data.Yaml.Token
import ConventionLint.Database.Catalog
import ConventionLint.Database.Scan
import ConventionLint.Disk
import ConventionLint.Failure
import ConventionLint.Glob
import ConventionLint.Lint
import ConventionLint.Log
import ConventionLint.Main
import ConventionLint.Module.Basic
import ConventionLint.Module.Construction
import ConventionLint.Module.Export
import ConventionLint.Module.Import
import ConventionLint.Module.ObjectType
import ConventionLint.Module.TestLayout
import ConventionLint.Path
import ConventionLint.Report
import ConventionLint.Rule.Basic
import ConventionLint.Rule.Database
import ConventionLint.Rule.Dispatch
import ConventionLint.Rule.FileName
import ConventionLint.Rule.Registry
import ConventionLint.Rule.Route
import ConventionLint.Rule.Signature
import ConventionLint.Rule.TestFile
import ConventionLint.Run
import ConventionLint.Session
import ConventionLint.Source.Character
import ConventionLint.Source.Grammar
import ConventionLint.Source.Grammar.Class
import ConventionLint.Source.Grammar.Expression
import ConventionLint.Source.Grammar.Function
import ConventionLint.Source.Grammar.Goal
import ConventionLint.Source.Grammar.Import
import ConventionLint.Source.Grammar.Literal
import ConventionLint.Source.Grammar.Markup
import ConventionLint.Source.Grammar.Statement
import ConventionLint.Source.Grammar.Type
import ConventionLint.Source.Lexeme
import ConventionLint.Source.LineEnd
import ConventionLint.Source.Lookahead
import ConventionLint.Source.Reader
import ConventionLint.Source.Tree
import ConventionLint.Table
import ConventionLint.Text.Blank
import ConventionLint.Text.Bracket
import ConventionLint.Text.Case
import ConventionLint.Text.CaseTable
import ConventionLint.Text.Front
import ConventionLint.Text.Line
import ConventionLint.Text.Printable
import ConventionLint.Text.Quoted
import ConventionLint.Text.Similarity
import ConventionLint.Text.Utf8
import ConventionLint.Text.Width
import ConventionLint.Text.Word
import ConventionLint.Proofs.Result
import ConventionLint.Proofs.Nodes
import ConventionLint.Proofs.Pruning
import ConventionLint.Proofs.Comments
import ConventionLint.Proofs.Checks
import ConventionLint.Proofs.Dispatch
import ConventionLint.Proofs.Paths
import ConventionLint.Proofs.Visit
import ConventionLint.Proofs.Contract
import ConventionLint.Proofs.Scan
import ConventionLint.Proofs.Completion
import ConventionLint.Proofs.FileOrder
import ConventionLint.Proofs.PathPhase
import ConventionLint.Proofs.FunctionConvention
import ConventionLint.Proofs.Influence
import ConventionLint.Proofs.Blank
import ConventionLint.Proofs.Configuration
import ConventionLint.Proofs.Validation
import ConventionLint.Proofs.DatabaseArea
import ConventionLint.Proofs.Copies
import ConventionLint.Proofs.Twins
import ConventionLint.Proofs.Location
import ConventionLint.Proofs.Unparsed
import ConventionLint.Proofs.Isolation
import ConventionLint.Proofs.Coverage
import ConventionLint.Proofs.CheckCommand
import ConventionLint.Proofs.ReportLines
import ConventionLint.Proofs.JsonText
import ConventionLint.Proofs.JsonValue
import ConventionLint.Proofs.ReportContents
import ConventionLint.Proofs.Registration
import ConventionLint.Proofs.CatalogOnce
import ConventionLint.Proofs.Chains
import ConventionLint.Proofs.RouteConvention
import ConventionLint.Proofs.MemberScan
import ConventionLint.Proofs.Members
import ConventionLint.Proofs.AliasSearch
import ConventionLint.Proofs.Balance
import ConventionLint.Proofs.TypeComments
import ConventionLint.Proofs.Declarations
import ConventionLint.Proofs.CommentLines
import ConventionLint.Proofs.ExportForms
import ConventionLint.Proofs.ExportedChain
import ConventionLint.Proofs.DatabaseNames
import ConventionLint.Proofs.FreshFiles
import ConventionLint.Proofs.Matching
import ConventionLint.Proofs.Scrubbing
import ConventionLint.Proofs.BrokenModules
import ConventionLint.Proofs.OuterCalls
import ConventionLint.Proofs.TestFiles
import ConventionLint.Proofs.Printed
import ConventionLint.Proofs.RelativePaths
import ConventionLint.Proofs.ImportReaders
import ConventionLint.Proofs.ImportRoundTrip
import ConventionLint.Proofs.Nesting
import ConventionLint.Proofs.DatabaseFileNames
import ConventionLint.Proofs.SingleLine
import ConventionLint.Proofs.Traversal
