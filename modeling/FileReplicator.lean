import FileReplicator.DurableStore
import FileReplicator.Interleaving
import FileReplicator.ResumeAddressing
import FileReplicator.Retry
import FileReplicator.StaleResume
import FileReplicator.Admission
import FileReplicator.TempResume
import FileReplicator.S3PartTasks
import FileReplicator.SnapshotRewrites
import FileReplicator.ArchiveRedrive
import FileReplicator.ActionRuns
import FileReplicator.ArchiveTruth
import FileReplicator.QuarantineTruth
import FileReplicator.CronFires
import FileReplicator.WindowEvents
import FileReplicator.Reappearance
import FileReplicator.RecoveryRuns
import FileReplicator.Independence
import FileReplicator.SlotRuns
import FileReplicator.StartupRecovery
import FileReplicator.DutyRuns
import FileReplicator.RetryBudget
import FileReplicator.Rediscovery
import FileReplicator.Activation
import FileReplicator.MoveFile
import FileReplicator.Bandwidth
import FileReplicator.FtpsCancel
import FileReplicator.Deactivation
import FileReplicator.WindowClose
import FileReplicator.RelabelledRuns
import FileReplicator.DrainRuns
import FileReplicator.UploadRanges
import FileReplicator.KeyMapping
import FileReplicator.TempNames
import FileReplicator.WindowEdges
import FileReplicator.ScanIdentity
import FileReplicator.LoopPrevention
import FileReplicator.HttpResume
import FileReplicator.ChunkLoops
import FileReplicator.CleanupBudget
import FileReplicator.VerifiedFirst
import FileReplicator.UsableWindows
import FileReplicator.IntervalPhrases
import FileReplicator.Discovery
import FileReplicator.Markers
import FileReplicator.LenientNumbers
import FileReplicator.PermissionLog
import FileReplicator.VerifiedLabels
import FileReplicator.SingleBucket
import FileReplicator.Agreement
import FileReplicator.ProgressEvents
import FileReplicator.SqliteStore
import FileReplicator.Component
import FileReplicator.Steadiness
import FileReplicator.Accounting
import FileReplicator.ControlRuns
import FileReplicator.StatusReads
import FileReplicator.VerifiedObjects
import FileReplicator.Announcements
import FileReplicator.ByteRates
import FileReplicator.EventPlans
import FileReplicator.LifecycleEvents
import FileReplicator.Telling
import FileReplicator.EventLedger
