import ConstGraph.Analysis
import ConstGraph.Cache.Open
import ConstGraph.Cache.Stored
import ConstGraph.Cache.Tables
import ConstGraph.Command.Arguments
import ConstGraph.Command.Audit
import ConstGraph.Command.Markup
import ConstGraph.Command.Run
import ConstGraph.Concrete.Conversion
import ConstGraph.Concrete.Locals
import ConstGraph.Concrete.Node
import ConstGraph.Concrete.Stored
import ConstGraph.Cycle
import ConstGraph.DependencyGraph
import ConstGraph.Document
import ConstGraph.EnvFile
import ConstGraph.Environment
import ConstGraph.Files.Entry
import ConstGraph.Files.FileTree
import ConstGraph.Files.Glob
import ConstGraph.Files.PathName
import ConstGraph.Json.Display
import ConstGraph.Json.Order
import ConstGraph.Json.Printer
import ConstGraph.Json.Reader
import ConstGraph.Json.Value
import ConstGraph.Log
import ConstGraph.Main
import ConstGraph.Mismatch
import ConstGraph.Number.Binary64
import ConstGraph.Number.Digits
import ConstGraph.Path
import ConstGraph.Project
import ConstGraph.Record
import ConstGraph.ReferenceGraph
import ConstGraph.Resolution
import ConstGraph.Session
import ConstGraph.Settings
import ConstGraph.Store
import ConstGraph.StoreTable
import ConstGraph.Syntax.ConstName
import ConstGraph.Syntax.Tree
import ConstGraph.Terminal
import ConstGraph.Text.Blank
import ConstGraph.Text.Case
import ConstGraph.Text.CaseTable
import ConstGraph.Text.Digit
import ConstGraph.Text.Integer
import ConstGraph.Text.Newline
import ConstGraph.Text.Printable
import ConstGraph.Text.Quoted
import ConstGraph.Text.Range
import ConstGraph.Text.Utf8
import ConstGraph.Text.Width
import ConstGraph.Text.WidthTable
import ConstGraph.VersionSync
import ConstGraph.Walk.Context
import ConstGraph.Walk.Run
import ConstGraph.Walk.TypeScope
import ConstGraph.Proofs.Lookup
import ConstGraph.Proofs.Resolution
import ConstGraph.Proofs.Circularity
import ConstGraph.Proofs.Walk
import ConstGraph.Proofs.Sites
import ConstGraph.Proofs.Visits
import ConstGraph.Proofs.Attribution
import ConstGraph.Proofs.DefinedCycles
import ConstGraph.Proofs.SelfCalls
import ConstGraph.Proofs.JsonText
import ConstGraph.Proofs.StoredRecords
import ConstGraph.Proofs.CacheFile
import ConstGraph.Proofs.CacheTruth
import ConstGraph.Proofs.SameFiles
import ConstGraph.Proofs.CachedRun
import ConstGraph.Proofs.CachedBuild
import ConstGraph.Proofs.CacheTransparency
import ConstGraph.Proofs.Outline
import ConstGraph.Proofs.Declarations
import ConstGraph.Proofs.LocalReads
import ConstGraph.Proofs.Policies
import ConstGraph.Proofs.EdgeWeights
import ConstGraph.Proofs.FileOrder
import ConstGraph.Proofs.MirroredFlags
import ConstGraph.Proofs.CacheEntries
import ConstGraph.Proofs.CacheHistory
import ConstGraph.Proofs.InferenceRefines
import ConstGraph.Proofs.ProperOutlines
import ConstGraph.Proofs.Places
import ConstGraph.Proofs.Reports
import ConstGraph.Proofs.ConstantsAndCalls
import ConstGraph.Proofs.ChainedCalls
import ConstGraph.Proofs.AssignedConstants
import ConstGraph.Proofs.LocalTypes
import ConstGraph.Proofs.Reassignment
import ConstGraph.Proofs.SortedStore
import ConstGraph.Proofs.ExportedText
import ConstGraph.Proofs.TypeOrigins
import ConstGraph.Proofs.Layouts
import ConstGraph.Proofs.ConvertedTrees
import ConstGraph.Proofs.MergedStores
import ConstGraph.Proofs.PolicyHistory
import ConstGraph.Proofs.ReferenceCounts
import ConstGraph.Proofs.AddedDefinitions
import ConstGraph.Proofs.AuditListing
import ConstGraph.Proofs.FirstFault
import ConstGraph.Proofs.RenderedPaths
import ConstGraph.Proofs.PlainScreens
import ConstGraph.Proofs.ConstantChains
import ConstGraph.Proofs.ScopeFrames
import ConstGraph.Proofs.SkippedFlag
import ConstGraph.Proofs.TextFiles
import ConstGraph.Proofs.VersionCopies
