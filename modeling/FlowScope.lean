import FlowScope.Config.Json
import FlowScope.Main
import FlowScope.Proofs.FailureMarks
import FlowScope.Proofs.SimpleWalks
import FlowScope.Proofs.ReleaseOrder
import FlowScope.Proofs.LeastOrder
import FlowScope.Proofs.ScopeMembers
import FlowScope.Proofs.ScopeKeys
import FlowScope.Proofs.Trimming
import FlowScope.Proofs.TokenPieces
import FlowScope.Proofs.TokenTexts
import FlowScope.Proofs.LegibleKeys
import FlowScope.Proofs.FinishedEdges
import FlowScope.Proofs.ReferenceSources
import FlowScope.Proofs.LoopBindings
import FlowScope.Proofs.TypeTags
import FlowScope.Proofs.WrittenTexts
import FlowScope.Proofs.WrittenWorkflows
import FlowScope.Proofs.Flattened
import FlowScope.Proofs.BodyMembers
import FlowScope.Proofs.Downstream
import FlowScope.Proofs.EnclosingLoops
import FlowScope.Proofs.WatchedSnapshots
import FlowScope.Proofs.WatchHistory
import FlowScope.Proofs.Outline
import FlowScope.Proofs.Rearranged
import FlowScope.Proofs.Renumbered
import FlowScope.Proofs.RearrangedScopes
import FlowScope.Proofs.RemovedSnapshots
import FlowScope.Proofs.WatchedFile
import FlowScope.Proofs.LoopEntries
import FlowScope.Proofs.BodyEntries
import FlowScope.Proofs.LoopsFirst
import FlowScope.Proofs.BodyWays
import FlowScope.Proofs.FieldPaths
import FlowScope.Proofs.Placeholders
import FlowScope.Proofs.TypePlaces
import FlowScope.Proofs.StartEntries
import FlowScope.Proofs.WatchCalls
import FlowScope.Proofs.PreorderListing
import FlowScope.Proofs.WaysUp
