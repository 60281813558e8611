import Mempulse.EventOrder
import Mempulse.Storage.Writer

/-!
# The in-memory storage

The read model the storage writer keeps: the retained events twice, in arrival order and in
deterministic order, and the bounded tables derived from events or upserted directly.

Write latencies are left out: they are measured times that no other field depends on.
-/

set_option autoImplicit false

namespace Mempulse.Storage

open Std EventLog Scheduler Library

/-! ## Configuration and rows -/

/-- Capacity limits for the in-memory storage model. -/
structure StorageConfig where
  eventCapacity : Nat := 250000
  recentTxCapacity : Nat := 25000
  tableCapacity : Nat := 250000
  deriving DecidableEq

/-- Builder-stage lifecycle projection for one candidate. -/
structure BuilderLifecycleRecord where
  candidateId : String
  txHash : TxHash
  decision : String
  replacedCandidateIds : List String
  reason : Option String
  blockNumber : UInt64
  updatedUnixMs : Int64
  deriving DecidableEq

/-- Compact transaction summary used by recent-transaction views. -/
structure RecentTransactionRecord where
  hash : TxHash
  sender : Address
  nonce : UInt64
  txType : UInt8
  seenUnixMs : Int64
  sourceId : String
  deriving DecidableEq

/-- Coarse market-level counters derived from stored transaction features. -/
structure MarketStatsSnapshot where
  totalSignalVolume : Nat := 0
  totalTxCount : Nat := 0
  lowRiskCount : Nat := 0
  mediumRiskCount : Nat := 0
  highRiskCount : Nat := 0
  deriving DecidableEq

/-! ## Bounded tables -/

/-- Pushes a row and drops the oldest ones beyond the capacity. -/
def pushBounded {α : Type} (deque : List α) (value : α) (capacity : Nat) : List α :=
  (deque ++ [value]).drop (deque.length + 1 - capacity)

/-- A bounded table with the number of rows and the last row of each hash. -/
structure HashIndexed (Row : Type) where
  rows : List Row := []
  counts : ExtTreeMap TxHash Nat := ∅
  lookup : ExtTreeMap TxHash Row := ∅

namespace HashIndexed

variable {Row : Type}

/-- One row of a hash leaves the table. -/
def release (table : HashIndexed Row) (hash : TxHash) : HashIndexed Row :=
  match table.counts[hash]? with
  | none => table
  | some count =>
    if count - 1 = 0 then
      { table with counts := table.counts.erase hash, lookup := table.lookup.erase hash }
    else { table with counts := table.counts.insert hash (count - 1) }

/-- Rows leave from the front until the table is within its capacity. -/
def evict (hashOf : Row → TxHash) (capacity : Nat) (table : HashIndexed Row) :
    List Row → HashIndexed Row
  | [] => { table with rows := [] }
  | row :: rest =>
    if capacity < rest.length + 1 then evict hashOf capacity (table.release (hashOf row)) rest
    else { table with rows := row :: rest }

end HashIndexed

/-- Pushes a row of a table with an index, and takes the dropped rows out of the index. -/
def pushBoundedHashIndexed {Row : Type} (table : HashIndexed Row) (value : Row) (capacity : Nat)
    (hashOf : Row → TxHash) : HashIndexed Row :=
  let hash := hashOf value
  let pushed : HashIndexed Row :=
    { rows := table.rows ++ [value]
      counts := table.counts.insert hash ((table.counts[hash]?).getD 0 + 1)
      lookup := table.lookup.insert hash value }
  pushed.evict hashOf capacity pushed.rows

/-- Keys of the feature summary: a protocol and a category. -/
abbrev FeatureSummaryCounts :=
  ExtTreeMap (String × String) Nat (compareLex (compareOn Prod.fst) (compareOn Prod.snd))

instance transCmp_summaryKey : TransCmp (compareLex (compareOn Prod.fst) (compareOn Prod.snd) :
    String × String → String × String → Ordering) := inferInstance

/-! ## The storage -/

/-- In-memory read model backed by ordered events plus derived lookup tables. -/
structure InMemoryStorage where
  config : StorageConfig := {}
  events : List EventEnvelope := []
  eventIndex : List EventEnvelope := []
  txSeen : HashIndexed TxSeenRecord := {}
  txFull : HashIndexed TxFullRecord := {}
  txFeatures : HashIndexed TxFeaturesRecord := {}
  featureSummaryCounts : FeatureSummaryCounts := ∅
  opportunities : List OpportunityRecord := []
  builderLifecycle : List BuilderLifecycleRecord := []
  txLifecycle : HashIndexed TxLifecycleRecord := {}
  peerStats : List PeerStatsRecord := []
  schedulerSnapshot : Option PersistedSchedulerSnapshot := none
  latestFinalizedBlockUnixMs : Option Int64 := none
  recentTx : HashIndexed RecentTransactionRecord := {}
  marketStats : MarketStatsSnapshot := {}
  readModelRevision : Nat := 0

namespace InMemoryStorage

/-- Creates storage with normalized capacity settings. -/
def withConfig (config : StorageConfig) : InMemoryStorage where
  config :=
    { eventCapacity := max config.eventCapacity 1
      recentTxCapacity := max config.recentTxCapacity 1
      tableCapacity := max config.tableCapacity 1 }

/-- Every write a reader can see raises the revision. -/
def bumpReadModelRevision (storage : InMemoryStorage) : InMemoryStorage :=
  { storage with readModelRevision := saturatingAdd u64Max storage.readModelRevision 1 }

/-- Stores an observation and counts it. -/
def upsertTxSeen (storage : InMemoryStorage) (record : TxSeenRecord) : InMemoryStorage :=
  bumpReadModelRevision
    { storage with
      txSeen := pushBoundedHashIndexed storage.txSeen record storage.config.tableCapacity (·.hash)
      marketStats :=
        { storage.marketStats with
          totalTxCount := saturatingAdd u64Max storage.marketStats.totalTxCount 1 } }

/-- Stores a transaction. -/
def upsertTxFull (storage : InMemoryStorage) (record : TxFullRecord) : InMemoryStorage :=
  bumpReadModelRevision
    { storage with
      txFull := pushBoundedHashIndexed storage.txFull record storage.config.tableCapacity (·.hash) }

/-- Counts a row into its bucket. -/
def incrementFeatureSummaryCount (counts : FeatureSummaryCounts) (protocol category : String) :
    FeatureSummaryCounts :=
  counts.insert (protocol, category) ((counts[(protocol, category)]?).getD 0 + 1)

/-- Counts a row out of its bucket; an empty bucket goes. -/
def decrementFeatureSummaryCount (counts : FeatureSummaryCounts) (protocol category : String) :
    FeatureSummaryCounts :=
  match counts[(protocol, category)]? with
  | none => counts
  | some count =>
    if count - 1 = 0 then counts.erase (protocol, category)
    else counts.insert (protocol, category) (count - 1)

/-- Feature rows leave from the front; with the last row of a hash its summary bucket loses one. -/
def evictTxFeatures (capacity : Nat) (table : HashIndexed TxFeaturesRecord)
    (summary : FeatureSummaryCounts) :
    List TxFeaturesRecord → HashIndexed TxFeaturesRecord × FeatureSummaryCounts
  | [] => ({ table with rows := [] }, summary)
  | row :: rest =>
    if capacity < rest.length + 1 then
      let summary :=
        match table.counts[row.hash]?, table.lookup[row.hash]? with
        | some count, some latest =>
          if count - 1 = 0 then decrementFeatureSummaryCount summary latest.protocol latest.category
          else summary
        | _, _ => summary
      evictTxFeatures capacity (table.release row.hash) summary rest
    else ({ table with rows := row :: rest }, summary)

/-- Stores a feature row, and moves the buckets from the row it replaces to the new one. -/
def upsertTxFeatures (storage : InMemoryStorage) (record : TxFeaturesRecord) : InMemoryStorage :=
  let decremented :=
    match storage.txFeatures.lookup[record.hash]? with
    | some previous =>
      decrementFeatureSummaryCount storage.featureSummaryCounts previous.protocol previous.category
    | none => storage.featureSummaryCounts
  let summary := incrementFeatureSummaryCount decremented record.protocol record.category
  let pushed : HashIndexed TxFeaturesRecord :=
    { rows := storage.txFeatures.rows ++ [record]
      counts := storage.txFeatures.counts.insert record.hash
        ((storage.txFeatures.counts[record.hash]?).getD 0 + 1)
      lookup := storage.txFeatures.lookup.insert record.hash record }
  let evicted := evictTxFeatures storage.config.tableCapacity pushed summary pushed.rows
  let stats := storage.marketStats
  let volume := saturatingAdd u64Max stats.totalSignalVolume 1
  let stats :=
    if record.mevScore ≥ 80 then
      { stats with totalSignalVolume := volume, highRiskCount := saturatingAdd u64Max stats.highRiskCount 1 }
    else if record.mevScore ≥ 45 then
      { stats with
        totalSignalVolume := volume, mediumRiskCount := saturatingAdd u64Max stats.mediumRiskCount 1 }
    else
      { stats with totalSignalVolume := volume, lowRiskCount := saturatingAdd u64Max stats.lowRiskCount 1 }
  bumpReadModelRevision
    { storage with
      txFeatures := evicted.1, featureSummaryCounts := evicted.2, marketStats := stats }

/-- Stores an opportunity. -/
def upsertOpportunity (storage : InMemoryStorage) (record : OpportunityRecord) : InMemoryStorage :=
  bumpReadModelRevision
    { storage with
      opportunities := pushBounded storage.opportunities record storage.config.tableCapacity }

/-- Stores a decision of the assembly engine. -/
def upsertBuilderLifecycle (storage : InMemoryStorage) (record : BuilderLifecycleRecord) :
    InMemoryStorage :=
  bumpReadModelRevision
    { storage with
      builderLifecycle := pushBounded storage.builderLifecycle record storage.config.tableCapacity }

/-- Stores a lifecycle row. -/
def upsertTxLifecycle (storage : InMemoryStorage) (record : TxLifecycleRecord) : InMemoryStorage :=
  bumpReadModelRevision
    { storage with
      txLifecycle :=
        pushBoundedHashIndexed storage.txLifecycle record storage.config.tableCapacity (·.hash) }

/-- Stores the counts of a peer. -/
def upsertPeerStats (storage : InMemoryStorage) (record : PeerStatsRecord) : InMemoryStorage :=
  bumpReadModelRevision
    { storage with
      peerStats := pushBounded storage.peerStats record storage.config.tableCapacity }

/-- The newest snapshot replaces the one before. -/
def writeSchedulerSnapshot (storage : InMemoryStorage) (snapshot : PersistedSchedulerSnapshot) :
    InMemoryStorage :=
  bumpReadModelRevision { storage with schedulerSnapshot := some snapshot }

/-- Remembers a decoded transaction among the recent ones. -/
def trackRecentTransaction (storage : InMemoryStorage) (record : RecentTransactionRecord) :
    InMemoryStorage :=
  { storage with
    recentTx :=
      pushBoundedHashIndexed storage.recentTx record storage.config.recentTxCapacity (·.hash) }

/-! ## Appending events -/

/-- A `0x`-prefixed lowercase hex string. -/
def formatHash (hash : TxHash) : String := hexText hash

/-- The opportunity row a queued candidate writes. -/
def projectOpportunityFromCandidate (payload : CandidateQueued) : OpportunityRecord where
  txHash := payload.txHash
  chainId := payload.chainId
  strategy := payload.strategy
  score := payload.score
  protocol := payload.protocol
  category := payload.category
  featureEngineVersion := payload.featureEngineVersion
  scorerVersion := payload.scorerVersion
  strategyVersion := payload.strategyVersion
  reasons := payload.reasons
  detectedUnixMs := payload.detectedUnixMs

/-- The lifecycle row a decision of the assembly engine writes. -/
def projectBuilderLifecycle (payload : AssemblyDecisionApplied) (updatedUnixMs : Int64) :
    BuilderLifecycleRecord where
  candidateId := payload.candidateId
  txHash := payload.txHash
  decision := payload.decision
  replacedCandidateIds := payload.replacedCandidateIds
  reason := payload.reason
  blockNumber := payload.blockNumber
  updatedUnixMs := updatedUnixMs

/-- `format!("block={}:{}", block_number, format_hash(&block_hash))`. -/
def confirmationReason (blockNumber : UInt64) (blockHash : BlockHash) : String :=
  "block=" ++ toString blockNumber.toNat ++ ":" ++ formatHash blockHash

/-- The lifecycle row an event writes. -/
def lifecycleUpdate (event : EventEnvelope) : Option TxLifecycleRecord :=
  match event.payload with
  | .txDecoded decoded =>
    some
      { hash := decoded.hash, status := "pending", reason := none
        updatedUnixMs := event.ingestTsUnixMs }
  | .txDropped dropped =>
    some
      { hash := dropped.hash, status := "dropped", reason := some dropped.reason
        updatedUnixMs := event.ingestTsUnixMs }
  | .txConfirmedProvisional confirmed =>
    some
      { hash := confirmed.hash, status := "confirmed_provisional"
        reason := some (confirmationReason confirmed.blockNumber confirmed.blockHash)
        updatedUnixMs := event.ingestTsUnixMs }
  | .txConfirmedFinal confirmed =>
    some
      { hash := confirmed.hash, status := "confirmed_final"
        reason := some (confirmationReason confirmed.blockNumber confirmed.blockHash)
        updatedUnixMs := event.ingestTsUnixMs }
  | .txReplaced replaced =>
    some
      { hash := replaced.hash, status := "replaced", reason := some (formatHash replaced.replacedBy)
        updatedUnixMs := event.ingestTsUnixMs }
  | .txReorged reorged =>
    some
      { hash := reorged.hash, status := "pending", reason := some "reorg_reopened"
        updatedUnixMs := event.ingestTsUnixMs }
  | .txSeen _ | .txFetched _ | .candidateQueued _ | .simDispatched _ | .oppDetected _
  | .simCompleted _ | .assemblyDecisionApplied _ | .bundleSubmitted _ | .txReady _ | .txBlocked _ =>
    none

/-- Walks back over the entries with the target's key. -/
def walkBack (events : List EventEnvelope) (target : EventEnvelope) : Nat → Nat
  | 0 => 0
  | index + 1 =>
    if (events[index]?.map fun existing => cmpDeterministic existing target) = some .eq then
      walkBack events target index
    else index + 1

/-- Walks forward over the entries with the target's key and removes the first equal one. -/
def removeFrom (target : EventEnvelope) : List EventEnvelope → List EventEnvelope
  | [] => []
  | existing :: rest =>
    if cmpDeterministic existing target = .eq then
      if existing = target then rest else existing :: removeFrom target rest
    else existing :: rest

/-- Takes an event out of the index when the binary search finds it. -/
def removeEventFromSortedIndex (events : List EventEnvelope) (target : EventEnvelope) :
    List EventEnvelope :=
  match binarySearchBy (fun existing => cmpDeterministic existing target) events with
  | none => events
  | some found =>
    let index := walkBack events target found
    events.take index ++ removeFrom target (events.drop index)

/-- The index with one more event: at the end when it is not below the last one, else where the
smaller ones end. -/
def insertIntoIndex (index : List EventEnvelope) (event : EventEnvelope) : List EventEnvelope :=
  let appendToTail :=
    match index.getLast? with
    | none => true
    | some last => !(cmpDeterministic last event).isGT
  if appendToTail then index ++ [event]
  else
    let insertAt := partitionPoint (fun existing => (cmpDeterministic existing event).isLT) index
    index.take insertAt ++ event :: index.drop insertAt

/-- Events leave from the front of the ring until it is within its capacity. -/
def evictEvents (capacity : Nat) (index : List EventEnvelope) :
    List EventEnvelope → List EventEnvelope × List EventEnvelope
  | [] => ([], index)
  | oldEvent :: rest =>
    if capacity < rest.length + 1 then
      evictEvents capacity (removeEventFromSortedIndex index oldEvent) rest
    else (oldEvent :: rest, index)

/-- The projections of an event onto the tables. -/
def projectEvent (storage : InMemoryStorage) (event : EventEnvelope) : InMemoryStorage :=
  let storage :=
    match event.payload with
    | .txDecoded decoded =>
      storage.trackRecentTransaction
        { hash := decoded.hash, sender := decoded.sender, nonce := decoded.nonce
          txType := decoded.txType, seenUnixMs := event.ingestTsUnixMs, sourceId := event.sourceId }
    | .txConfirmedFinal _ =>
      { storage with
        latestFinalizedBlockUnixMs :=
          some (max ((storage.latestFinalizedBlockUnixMs).getD 0) event.ingestTsUnixMs) }
    | .candidateQueued queued => storage.upsertOpportunity (projectOpportunityFromCandidate queued)
    | .assemblyDecisionApplied applied =>
      storage.upsertBuilderLifecycle (projectBuilderLifecycle applied event.ingestTsUnixMs)
    | _ => storage
  match lifecycleUpdate event with
  | some record => storage.upsertTxLifecycle record
  | none => storage

/-- Projects an event, files it in the log and in the index, and evicts what is too old. -/
def appendEvent (storage : InMemoryStorage) (event : EventEnvelope) : InMemoryStorage :=
  let storage := storage.projectEvent event
  let evicted := evictEvents storage.config.eventCapacity
    (insertIntoIndex storage.eventIndex event) (storage.events ++ [event])
  bumpReadModelRevision { storage with events := evicted.1, eventIndex := evicted.2 }

/-- The storage after a list of appends. -/
def appendEvents (storage : InMemoryStorage) (events : List EventEnvelope) : InMemoryStorage :=
  events.foldl appendEvent storage

/-! ## Reading events -/

/-- The first index containing events strictly after `fromSeqId`. -/
def scanEventsCursorStart (events : List EventEnvelope) (fromSeqId : UInt64) : Nat :=
  partitionPoint (fun event => event.seqId ≤ fromSeqId) events

/-- The stored events in their deterministic order. -/
def listEvents (storage : InMemoryStorage) : List EventEnvelope := storage.eventIndex

/-- The events after a cursor, at most `limit` and at least one. -/
def scanEvents (storage : InMemoryStorage) (fromSeqId : UInt64) (limit : Nat) : List EventEnvelope :=
  (storage.eventIndex.drop (scanEventsCursorStart storage.eventIndex fromSeqId)).take (max limit 1)

/-- The sequence id of the last event of the index. -/
def latestSeqId (storage : InMemoryStorage) : Option UInt64 :=
  storage.eventIndex.getLast?.map (·.seqId)

/-- The lifecycle row of a hash. -/
def txLifecycleByHash (storage : InMemoryStorage) (hash : TxHash) : Option TxLifecycleRecord :=
  storage.txLifecycle.lookup[hash]?

end InMemoryStorage

end Mempulse.Storage
