import RouteBinder.Source.Kind
import RouteBinder.Source.Node
import RouteBinder.Source.Walk
import RouteBinder.Text.WordTable
import RouteBinder.Text.UpperTable
import RouteBinder.Text.Chars
import RouteBinder.Text.Lines
import RouteBinder.Source.Shape
import RouteBinder.FileSystem.Path
import RouteBinder.ImportSpec
import RouteBinder.Text.Identifier
import RouteBinder.TypeExpr
import RouteBinder.Handler
import RouteBinder.Analysis.Discovery
import RouteBinder.Analysis.Payload
import RouteBinder.Analysis.WrittenType
import RouteBinder.Analysis.Scope
import RouteBinder.Analysis.Schema
import RouteBinder.Analysis.Usage
import RouteBinder.Analysis.Input
import RouteBinder.Text.Decimal
import RouteBinder.Analysis.Response
import RouteBinder.Analysis.Typing
import RouteBinder.Analysis.Output
import RouteBinder.Grammar.Blank
import RouteBinder.Grammar.Cursor
import RouteBinder.Grammar.Literal
import RouteBinder.Grammar.Pattern
import RouteBinder.Grammar.TypeRule
import RouteBinder.Grammar.Function
import RouteBinder.Grammar.Expression
import RouteBinder.Grammar.Statement
import RouteBinder.Grammar.Tree
import RouteBinder.Source.Names
import RouteBinder.Source.Splice
import RouteBinder.Body.Fragment
import RouteBinder.Body.Dependencies
import RouteBinder.Body.Extraction
import RouteBinder.Analysis.Module
import RouteBinder.Body.Replay
import RouteBinder.Diagnostics
import RouteBinder.Route.Segment
import RouteBinder.Route.Address
import RouteBinder.Keyed
import RouteBinder.Notice
import RouteBinder.Route.RouteTree
import RouteBinder.Text.Quoted
import RouteBinder.Emit.Accessor
import RouteBinder.Emit.Client
import RouteBinder.Emit.Imports
import RouteBinder.Emit.Server
import RouteBinder.Emit.Artifact
import RouteBinder.FileSystem.FileTree
import RouteBinder.FileSystem.AtomicWrite
import RouteBinder.Project.RouteFiles
import RouteBinder.Project.Build
import RouteBinder.Project.Setting
import RouteBinder.Text.ShellWords
import RouteBinder.Project.Config
import RouteBinder.Project.Formatter
import RouteBinder.Project.Session
import RouteBinder.Project.Generation
import RouteBinder.Text.Styled
import RouteBinder.Project.CommandLine
import RouteBinder.Project.Shell.Program
import RouteBinder.Project.Shell.Script
import RouteBinder.Project.Shell.Run
import RouteBinder.Main
import RouteBinder.Project.Coordinator
import RouteBinder.Proofs.FileSystem.Places
import RouteBinder.Proofs.Route.KeyPaths
import RouteBinder.Proofs.Project.Build
import RouteBinder.Proofs.Project.Locality
import RouteBinder.Proofs.Project.Runs
import RouteBinder.Proofs.Project.Targets
import RouteBinder.Proofs.Project.IncrementalUpdate
import RouteBinder.Proofs.FileSystem.Changes
import RouteBinder.Proofs.FileSystem.PathText
import RouteBinder.Proofs.Project.Batches
import RouteBinder.Proofs.Project.Moves
import RouteBinder.Proofs.Project.MovedRoute
import RouteBinder.Proofs.FileSystem.Resolution
import RouteBinder.Proofs.FileSystem.Writes
import RouteBinder.Proofs.FileSystem.CompletedWrites
import RouteBinder.Proofs.Analysis.HandledVerbs
import RouteBinder.Proofs.Route.Nodes
import RouteBinder.Proofs.Route.Refresh
import RouteBinder.Proofs.Project.BuiltNodes
import RouteBinder.Proofs.Project.Representation
import RouteBinder.Proofs.Project.EventOrder
import RouteBinder.Proofs.Project.ScannedRoutes
import RouteBinder.Proofs.Project.LiveArtifacts
import RouteBinder.Proofs.Analysis.RecursionDepth
import RouteBinder.Proofs.Analysis.ScopeSizes
import RouteBinder.Proofs.Analysis.Termination
import RouteBinder.Proofs.Text.Mentions
import RouteBinder.Proofs.Emit.Members
import RouteBinder.Proofs.Emit.CombinedImports
import RouteBinder.Proofs.Emit.NumberedNames
import RouteBinder.Proofs.Emit.ServerImports
import RouteBinder.Proofs.Text.Quoted
import RouteBinder.Proofs.Emit.MemberNames
import RouteBinder.Proofs.Emit.ReplayedNames
import RouteBinder.Proofs.Text.Margins
import RouteBinder.Proofs.Source.Spliced
import RouteBinder.Proofs.Grammar.Parsers
import RouteBinder.Proofs.Body.Fragments
import RouteBinder.Proofs.Body.SparedLiterals
import RouteBinder.Proofs.Emit.ReplayedLiterals
import RouteBinder.Proofs.Analysis.NormalTypes
import RouteBinder.Proofs.Analysis.TypeTexts
import RouteBinder.Proofs.Analysis.WordTexts
import RouteBinder.Proofs.Analysis.ArrayTexts
import RouteBinder.Proofs.Analysis.UnionTexts
import RouteBinder.Proofs.Analysis.RecordTexts
import RouteBinder.Proofs.Analysis.Renderings
import RouteBinder.Proofs.Grammar.Statements
import RouteBinder.Proofs.Grammar.PropertyTexts
import RouteBinder.Proofs.Emit.RoutedMembers
import RouteBinder.Proofs.Project.SkippedFiles
import RouteBinder.Proofs.Project.WrappedContents
import RouteBinder.Proofs.Body.DroppedReads
import RouteBinder.Proofs.Emit.ReplayedPages
import RouteBinder.Proofs.Source.Declarations
import RouteBinder.Proofs.Source.Scopes
import RouteBinder.Proofs.Body.RouteNames
import RouteBinder.Proofs.Analysis.RereadTypes
import RouteBinder.Proofs.Analysis.SchemaRules
import RouteBinder.Proofs.Analysis.SchemaRecursion
import RouteBinder.Proofs.Analysis.NestedUnions
import RouteBinder.Proofs.Analysis.SchemaShapes
import RouteBinder.Proofs.Analysis.ShapeTypes
import RouteBinder.Proofs.Body.HoistedNames
import RouteBinder.Proofs.Body.RequestReads
import RouteBinder.Proofs.Emit.PayloadLocals
import RouteBinder.Proofs.Emit.ReboundRequests
import RouteBinder.Proofs.Emit.GroupedImports
import RouteBinder.Proofs.Emit.DistinctNames
import RouteBinder.Proofs.Source.DeclaredNames
import RouteBinder.Proofs.Source.Spans
import RouteBinder.Proofs.Body.BlockNames
import RouteBinder.Proofs.Emit.ClashingNames
import RouteBinder.Proofs.FileSystem.Ways
import RouteBinder.Proofs.FileSystem.Specifiers
import RouteBinder.Proofs.FileSystem.SpecifierKinds
import RouteBinder.Proofs.Route.Replacements
import RouteBinder.Proofs.Route.Folding
import RouteBinder.Proofs.Emit.UsedImports
import RouteBinder.Proofs.Analysis.NormalizedTypes
import RouteBinder.Proofs.Analysis.DistinctTexts
import RouteBinder.Proofs.Analysis.Evidence
import RouteBinder.Proofs.Analysis.DestructuredFields
import RouteBinder.Proofs.Analysis.ReplayedResponses
import RouteBinder.Proofs.Placed
import RouteBinder.Proofs.Analysis.FirstImplementations
import RouteBinder.Proofs.Text.Brackets
import RouteBinder.Proofs.Analysis.DeclaredTypes
import RouteBinder.Proofs.Grammar.LiteralValues
import RouteBinder.Proofs.Emit.CopiedLiterals
import RouteBinder.Proofs.Project.HandedFiles
import RouteBinder.Proofs.Analysis.VoidTypes
import RouteBinder.Proofs.Analysis.VoidInputs
import RouteBinder.Proofs.Body.DroppedDeclarations
import RouteBinder.Proofs.Grammar.RequotedLiterals
import RouteBinder.Proofs.Grammar.QuotedLiterals
import RouteBinder.Proofs.Analysis.CopiedTexts
import RouteBinder.Text.Utf8
import RouteBinder.Proofs.Source.Listings
import RouteBinder.Proofs.FileSystem.AllOrNothing
import RouteBinder.Proofs.Project.ArtifactWrites
import RouteBinder.Proofs.Project.Formatting
import RouteBinder.Proofs.Text.ShellWords
import RouteBinder.Proofs.Project.LoadedConfigs
