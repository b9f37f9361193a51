import AbiRecovery.Abi.Document
import AbiRecovery.Analysis
import AbiRecovery.Command.Run
import AbiRecovery.Extraction
import AbiRecovery.Main
import AbiRecovery.Tree.Query
import AbiRecovery.Tree.Reader
import AbiRecovery.Proofs.ListLemmas
import AbiRecovery.Proofs.Json.Reading
import AbiRecovery.Proofs.Abi.RoundTrip
import AbiRecovery.Proofs.Abi.Merge
import AbiRecovery.Proofs.Extraction.Effects
import AbiRecovery.Proofs.Extraction.History
import AbiRecovery.Proofs.Program.AccountCall
import AbiRecovery.Proofs.Program.AccountVector
import AbiRecovery.Proofs.Program.BuilderRecovery
import AbiRecovery.Proofs.Abi.MergeLaws
import AbiRecovery.Proofs.Extraction.Rerun
import AbiRecovery.Proofs.Program.DispatchRecovery
import AbiRecovery.Proofs.Json.NodeFields
import AbiRecovery.Proofs.Json.WellFormed
import AbiRecovery.Proofs.Tree.Schema
import AbiRecovery.Proofs.Tree.Document
import AbiRecovery.Proofs.Program.ItemOrder
import AbiRecovery.Proofs.Tree.Pruning
import AbiRecovery.Proofs.Program.AccountPositions
import AbiRecovery.Proofs.Program.NeutralEdits
import AbiRecovery.Proofs.Extraction.Preservation
import AbiRecovery.Proofs.Program.ConstructionForms
import AbiRecovery.Proofs.Program.EnumRecovery
import AbiRecovery.Proofs.Program.AddedFunctions
import AbiRecovery.Proofs.Program.CatalogHistory
import AbiRecovery.Proofs.Abi.MergeReport
import AbiRecovery.Proofs.Abi.RecoveredDocument
import AbiRecovery.Proofs.Program.ImportGroups
import AbiRecovery.Proofs.Program.QualifiedTypes
import AbiRecovery.Proofs.Program.UnreadImports
import AbiRecovery.Proofs.Program.MissingBuilders
import AbiRecovery.Proofs.Program.BorrowedTypes
import AbiRecovery.Proofs.Command.OptionGroups
import AbiRecovery.Proofs.Program.AccountGroups
import AbiRecovery.Proofs.Program.DispatchSelection
