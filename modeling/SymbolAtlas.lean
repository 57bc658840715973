import SymbolAtlas.Frontend.Scripted
import SymbolAtlas.Main
import SymbolAtlas.Proofs.Forest
import SymbolAtlas.Proofs.VisitOrder
import SymbolAtlas.Proofs.TreeRefinement
import SymbolAtlas.Proofs.LexicalTree
import SymbolAtlas.Proofs.LoweredTrees
import SymbolAtlas.Proofs.GraphInvariant
import SymbolAtlas.Proofs.IndexingGrowth
import SymbolAtlas.Proofs.GraphRuns
import SymbolAtlas.Proofs.GraphStores
import SymbolAtlas.Proofs.StoredPasses
import SymbolAtlas.Proofs.StoredRuns
import SymbolAtlas.Proofs.LoweringChanges
import SymbolAtlas.Proofs.LoweringSteps
import SymbolAtlas.Proofs.LoweringWalk
import SymbolAtlas.Proofs.LoweredUses
import SymbolAtlas.Proofs.LocationOrder
import SymbolAtlas.Proofs.IndexingSteps
import SymbolAtlas.Proofs.MethodLinks
import SymbolAtlas.Proofs.Provenance
import SymbolAtlas.Proofs.UseTargets
import SymbolAtlas.Proofs.UnitRuns
import SymbolAtlas.Proofs.UseLeaves
import SymbolAtlas.Proofs.MethodUses
import SymbolAtlas.Proofs.PassCoverage
import SymbolAtlas.Proofs.Reindexing
import SymbolAtlas.Proofs.UnitCoverage
import SymbolAtlas.Proofs.JobSteps
import SymbolAtlas.Proofs.UnitAccounts
import SymbolAtlas.Proofs.JobEffects
import SymbolAtlas.Proofs.Histories
import SymbolAtlas.Proofs.FrontendCalls
import SymbolAtlas.Proofs.PreambleEntries
import SymbolAtlas.Proofs.PreambleHistories
import SymbolAtlas.Proofs.PathSpellings
import SymbolAtlas.Proofs.RespelledUnits
import SymbolAtlas.Proofs.HeaderCache
import SymbolAtlas.Proofs.UnitSpellings
import SymbolAtlas.Proofs.PlainReadings
import SymbolAtlas.Proofs.FreshStart
import SymbolAtlas.Proofs.ClosedUnits
import SymbolAtlas.Proofs.IncludeExpansion
import SymbolAtlas.Proofs.NamePositions
import SymbolAtlas.Proofs.TopLevel
import SymbolAtlas.Proofs.MacroUses
import SymbolAtlas.Proofs.SettingsLayers
import SymbolAtlas.Proofs.LinkedUses
import SymbolAtlas.Proofs.FreshUnits
import SymbolAtlas.Proofs.ParseAttempts
import SymbolAtlas.Proofs.OverloadLinks
import SymbolAtlas.Proofs.CanonicalPaths
import SymbolAtlas.Proofs.OutlineNesting
import SymbolAtlas.Proofs.ScopeNesting
import SymbolAtlas.Proofs.LoopVariables
import SymbolAtlas.Proofs.RememberedPaths
import SymbolAtlas.Proofs.NativePaths
import SymbolAtlas.Proofs.LocationText
import SymbolAtlas.Proofs.OptionLists
import SymbolAtlas.Proofs.ExtraArguments
import SymbolAtlas.Proofs.VisitorCalls
import SymbolAtlas.Proofs.LoweringActs
import SymbolAtlas.Proofs.LoweringPositions
import SymbolAtlas.Proofs.ScopeEntries
import SymbolAtlas.Proofs.BoundedReads
import SymbolAtlas.Proofs.WalkedFiles
import SymbolAtlas.Proofs.SourceJobs
