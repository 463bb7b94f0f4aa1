import ResourceNames.Main
import ResourceNames.Proofs.ExtractionExact
import ResourceNames.Proofs.FamilyBookmarks
import ResourceNames.Proofs.ListsOnDisk
import ResourceNames.Proofs.Cancellation
import ResourceNames.Proofs.ListLines
import ResourceNames.Proofs.SettingsOnDisk
import ResourceNames.Proofs.ListBytes
import ResourceNames.Proofs.ListPaths
import ResourceNames.Proofs.SettingsResolution
import ResourceNames.Proofs.ExitCodes
import ResourceNames.Proofs.CommandFlags
import ResourceNames.Proofs.CommandFrame
import ResourceNames.Proofs.JsonReading
import ResourceNames.Proofs.JsonStream
import ResourceNames.Proofs.PlanOfBatch
import ResourceNames.Performance
import ResourceNames.Proofs.EntryOrder
import ResourceNames.Proofs.Presentation
import ResourceNames.Proofs.DocumentOutput
import ResourceNames.Proofs.QuietOutput
import ResourceNames.Proofs.ListWriters
import ResourceNames.Proofs.Shutdown
import ResourceNames.Proofs.TakenArguments
import ResourceNames.Proofs.WrittenArguments
import ResourceNames.Proofs.ListDecoding
import ResourceNames.Proofs.SeparatedStreams
import ResourceNames.Proofs.RunsAlone
import ResourceNames.Proofs.StricterRules
import ResourceNames.Proofs.LeastLength
import ResourceNames.Proofs.ProgressShown
import ResourceNames.Proofs.EntryFailures
import ResourceNames.Proofs.BatchAgain
import ResourceNames.Proofs.MergedWishes
import ResourceNames.Proofs.SpaceBudget
import ResourceNames.Proofs.OutputByVerbosity
import ResourceNames.Proofs.AcceptedDocuments
import ResourceNames.Proofs.MatchableSuffixes
import ResourceNames.Proofs.ShownSizes
import ResourceNames.Proofs.WindowReading
