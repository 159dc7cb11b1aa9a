import GameCatalog.Main
import GameCatalog.Proofs.Record
import GameCatalog.Proofs.UidTable
import GameCatalog.Proofs.Assignment
import GameCatalog.Proofs.Carry
import GameCatalog.Proofs.Operation
import GameCatalog.Proofs.StableUids
import GameCatalog.Proofs.Json.Distinct
import GameCatalog.Proofs.CarriedRevision
import GameCatalog.Proofs.Json.Numerals
import GameCatalog.Proofs.Json.Reads
import GameCatalog.Proofs.Json.Readable
import GameCatalog.Proofs.CatalogText
import GameCatalog.Proofs.Reload
import GameCatalog.Proofs.FileTree
import GameCatalog.Proofs.Script
import GameCatalog.Proofs.SafeCommands
import GameCatalog.Proofs.Judgement
import GameCatalog.Proofs.StagedAssignment
import GameCatalog.Proofs.Migration
import GameCatalog.Proofs.FileEdits
import GameCatalog.Proofs.Yields
import GameCatalog.Proofs.AssignedFiles
import GameCatalog.Proofs.Order
import GameCatalog.Proofs.AssignAgain
import GameCatalog.Proofs.Rerun
import GameCatalog.Proofs.Json.Equality
import GameCatalog.Proofs.Agreement
import GameCatalog.Proofs.IntermediateRevision
import GameCatalog.Proofs.MirroredRevision
import GameCatalog.Proofs.SilentChangelog
import GameCatalog.Proofs.SortedOperations
import GameCatalog.Proofs.ReorderedGames
import GameCatalog.Proofs.ChangelogRows
import GameCatalog.Proofs.TruncatedText
import GameCatalog.Proofs.CatalogFormat
import GameCatalog.Proofs.Json.Spelled
import GameCatalog.Proofs.Decisions
import GameCatalog.Proofs.FirstClaim
import GameCatalog.Proofs.AssignedTable
import GameCatalog.Proofs.AssignmentReport
import GameCatalog.Proofs.OwnRegistry
import GameCatalog.Proofs.InvalidUid
import GameCatalog.Proofs.RefusedAssignment
import GameCatalog.Proofs.TableFaults
import GameCatalog.Proofs.Json.StructuralEquality
import GameCatalog.Proofs.FieldChanges
import GameCatalog.Proofs.ThreeWaySplit
import GameCatalog.Proofs.CarriedValues
import GameCatalog.Proofs.FirstBinding
import GameCatalog.Proofs.UnwrappedLayers
import GameCatalog.Proofs.TextOrder
import GameCatalog.Proofs.CanonicalOrder
import GameCatalog.Proofs.Paths
import GameCatalog.Proofs.WellFormedTree
import GameCatalog.Proofs.Writes
import GameCatalog.Proofs.DiscoveredFiles
import GameCatalog.Proofs.SettingLayers
import GameCatalog.Proofs.VariableTexts
import GameCatalog.Proofs.VariableSettings
