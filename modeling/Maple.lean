import Maple.TransitionRun
import Maple.WalLane
import Maple.WalCursorFile
import Maple.OrgQueueInv
import Maple.WalLaneAppend
import Maple.WalLaneCrash
import Maple.ProjectionStore
import Maple.ProjectionRegistry
import Maple.ProjectionActivation
import Maple.ProjectionInStep
import Maple.InsertMap
import Maple.BucketRanges
import Maple.BucketTimeline
import Maple.BucketCache
import Maple.BucketServed
import Maple.BucketCacheSound
import Maple.BucketCacheExact
import Maple.OutboxStore
import Maple.OutboxConsumers
import Maple.OutboxSpec
import Maple.OutboxDelivery
import Maple.ControlReopen
import Maple.MaintenanceLockRun
import Maple.MaintenanceLock
import Maple.MaintenanceLockRun
import Maple.CrashRecovery
import Maple.MigrationJournal
import Maple.MigrationStore
import Maple.MigrationModule
import Maple.MigrationChain
import Maple.MigrationPromotion
import Maple.MigrationRecovery
import Maple.CheckpointRestore
import Maple.CheckpointRestoreRecovery
import Maple.EscalationQueue
import Maple.EscalationRun
import Maple.UsageBilled
import Maple.SafeFetch
import Maple.SafeFetchChain
import Maple.PageCursor
import Maple.SupabaseLogs
import Maple.SupabaseLogsShipped
import Maple.DashboardShare
import Maple.DashboardShareSecrets
import Maple.ReadCommitted
import Maple.ReadCommittedRules
import Maple.BucketCacheRun
import Maple.AlertTiers
import Maple.AlertHysteresis
import Maple.AlertLifecycle
import Maple.GridLayout
import Maple.GridPacked
import Maple.ErrorIssues
import Maple.ReadCommittedVersions
import Maple.ErrorIssueLease
import Maple.ErrorIssueLeaseRun
import Maple.AuditHunt
import Maple.AuditHuntSound
import Maple.AuditHuntRun
import Maple.AuditValidate
import Maple.AuditRecon
import Maple.AuditLinked
import Maple.AuditCarried
import Maple.AlertHysteresisRun
import Maple.BucketGaps
import Maple.AlertUnbounded
import Maple.CodeUnits
import Maple.GridSettled
import Maple.KeyGlob
import Maple.IngestRegex
import Maple.RegexGrammar
import Maple.RegexRepeated
import Maple.DetectorScan
import Maple.IngestRecord
import Maple.IngestRedactor
import Maple.IngestBatch
import Maple.IngestBatchExact
import Maple.GridFloor
import Maple.GridNudge
import Maple.ClickHouseBreaker
import Maple.JsonText
import Maple.PromOtlp
import Maple.PromHistogram
import Maple.PromParser
import Maple.PromTotal
import Maple.OtlpSplit
import Maple.OtlpEncode
import Maple.InsertStatements
import Maple.InsertBatcher
import Maple.InsertSettled
import Maple.InsertFlush
import Maple.InsertRun
import Maple.CanonicalJson
import Maple.CanonicalJsonWalk
import Maple.CanonicalJsonTree
import Maple.CanonicalJsonSame
import Maple.CanonicalJsonShared
import Maple.CanonicalJsonExact
import Maple.FileTree
import Maple.CheckpointReset
import Maple.CheckpointResetRecovery
import Maple.Formula
import Maple.FormulaGrammar
import Maple.FormulaShunting
import Maple.FormulaExact
import Maple.RegexPattern
import Maple.ScalarPatterns
import Maple.Timestamp
import Maple.TimestampPattern
import Maple.TimestampInstant
import Maple.SafeFetchLiteral
import Maple.SafeFetchRange
import Maple.SafeFetchVerdict
import Maple.SignalPredicate
import Maple.CloudEvent
import Maple.EventProjection
import Maple.EventProjectionRun
import Maple.PromExposition
import Maple.PromRoundTrip
import Maple.WhereClause
import Maple.WhereClauseScan
import Maple.WhereClauseTyped
import Maple.WhereClauseSplit
import Maple.WhereClauseText
import Maple.WhereClauseRoundTrip
import Maple.KeyedList
import Maple.MetricStream
import Maple.MetricStreamKinds
import Maple.Crc32
import Maple.GzipStored
import Maple.PredicateBudget
import Maple.PredicateBudgetAgrees
import Maple.PredicateSizeIssues
import Maple.ReplayRecorder
import Maple.ReplayRecorderRun
import Maple.EventSink
import Maple.EventSinkRun
import Maple.SessionStore
import Maple.SessionCounters
import Maple.SessionLifecycle
import Maple.SessionLifecycleCalls
import Maple.SessionLifecycleRuns
import Maple.SessionLifecycleProtocol
import Maple.SessionLifecycleCounts
import Maple.AiSession
import Maple.SessionTurns
import Maple.SessionTurnsWalk
import Maple.SessionTurnsAnchors
import Maple.SessionTurnsPartition
import Maple.LruRefines
import Maple.AlertInterleave
import Maple.ClockSkew
import Maple.ClockSkewSound
import Maple.ParentLinks
import Maple.SpanTree
import Maple.SpanTreeFaithful
import Maple.FiringSpans
