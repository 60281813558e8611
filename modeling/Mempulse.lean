import Mempulse.Scheduler.Snapshot
import Mempulse.Scheduler.ChainIsolation
import Mempulse.Scheduler.Candidates
import Mempulse.Rehydration.Plan
import Mempulse.Rehydration.Sanitize
import Mempulse.LiveRpc.Workers
import Mempulse.LiveRpc.Backpressure
import Mempulse.LiveRpc.Handoffs
import Mempulse.LiveRpc.RefusedAdmission
import Mempulse.Replay.CheckpointHashes
import Mempulse.Replay.SlotInvariant
import Mempulse.Replay.Resumption
import Mempulse.Replay.FrameOrder
import Mempulse.Storage.LifecycleProjection
import Mempulse.Storage.WalDurability
import Mempulse.Storage.WriterRun
import Mempulse.Storage.Wal
import Mempulse.Builder.Assembly
import Mempulse.Scheduler.ReplacementFees
import Mempulse.Scheduler.SenderIndependence
import Mempulse.Scheduler.HeadChange
import Mempulse.Dashboard.Broadcast
import Mempulse.Dashboard.Producer
import Mempulse.LiveRpc.AssemblySet
import Mempulse.Ingest.DecodedPending
import Mempulse.LiveRpc.SnapshotWriter
import Mempulse.Scheduler.QueueTransitions
import Mempulse.Dashboard.ReadCache
import Mempulse.Ingest.Retry
import Mempulse.LiveRpc.Refetch
import Mempulse.LiveRpc.RemoteRequests
import Mempulse.Storage.Backfill
import Mempulse.Dashboard.ResumeCursors
import Mempulse.Dashboard.StreamRows
import Mempulse.LiveRpc.SimulationIds
import Mempulse.LiveRpc.CandidateStatuses
import Mempulse.Searcher.Bundles
import Mempulse.Builder.CandidateIdentity
import Mempulse.Builder.RelayTemplates
import Mempulse.LiveRpc.BatchFetch
import Mempulse.Dashboard.EventPages
import Mempulse.Dashboard.FeatureCounts
import Mempulse.Dashboard.TransactionLists
import Mempulse.Rehydration.Agreement
import Mempulse.Dashboard.CollectedEvents
import Mempulse.Searcher.OfferedFees
import Mempulse.Ingest.Announcements
import Mempulse.Ingest.PropagationDelays
import Mempulse.SimEngine.StateDiff
import Mempulse.WebUi.TxLiveStore
import Mempulse.WebUi.RowIndex
import Mempulse.LiveRpc.DedupCaches
import Mempulse.Scheduler.Metrics
import Mempulse.Builder.RelayClient
import Mempulse.LiveRpc.SimulationPool
import Mempulse.LiveRpc.RemoteState
import Mempulse.LiveRpc.ChainStatus
import Mempulse.LiveRpc.Flushes
import Mempulse.Library.Strides
import Mempulse.Replay.Strides
import Mempulse.Replay.Diffs
import Mempulse.WebUi.StreamStore
import Mempulse.WebUi.TickerCommits
import Mempulse.WebUi.RowCommits
