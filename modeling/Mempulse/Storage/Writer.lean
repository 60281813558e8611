import Mempulse.Scheduler.State

/-!
# The storage writer

The operations producers send to the single storage writer, and the part of the writer that
numbers events: every appended event gets the next sequence id, in the order the writer takes
the operations from its queue.
-/

set_option autoImplicit false

namespace Mempulse.Storage

open EventLog Scheduler

/-! ## Records -/

/-- Latest `TxSeen` projection for a transaction hash. -/
structure TxSeenRecord where
  hash : TxHash
  peer : PeerId
  firstSeenUnixMs : Int64
  firstSeenMonoNs : UInt64
  seenCount : UInt32
  deriving DecidableEq

/-- Full decoded transaction payload stored for query APIs. -/
structure TxFullRecord where
  hash : TxHash
  txType : UInt8
  sender : Address
  nonce : UInt64
  /-- The source names this field `to`. -/
  toAddress : Option Address
  chainId : Option UInt64
  valueWei : Option U128
  gasLimit : Option UInt64
  gasPriceWei : Option U128
  maxFeePerGasWei : Option U128
  maxPriorityFeePerGasWei : Option U128
  maxFeePerBlobGasWei : Option U128
  calldataLen : Option UInt32
  rawTx : List UInt8
  deriving DecidableEq

/-- Feature-engine projection stored alongside a transaction. -/
structure TxFeaturesRecord where
  hash : TxHash
  chainId : Option UInt64
  protocol : String
  category : String
  mevScore : UInt16
  urgencyScore : UInt16
  methodSelector : Option (BitVec 32)
  featureEngineVersion : String
  deriving DecidableEq

/-- Searcher opportunity projection derived from candidate queue events. -/
structure OpportunityRecord where
  txHash : TxHash
  chainId : Option UInt64
  strategy : String
  score : UInt32
  protocol : String
  category : String
  featureEngineVersion : String
  scorerVersion : String
  strategyVersion : String
  reasons : List String
  detectedUnixMs : Int64
  deriving DecidableEq

/-- Transaction lifecycle projection derived from event-log status changes. -/
structure TxLifecycleRecord where
  hash : TxHash
  status : String
  reason : Option String
  updatedUnixMs : Int64
  deriving DecidableEq

/-- Peer-level throughput and quality statistics. -/
structure PeerStatsRecord where
  peer : PeerId
  throughputTps : UInt32
  dropRateBps : UInt16
  rttMs : UInt32
  deriving DecidableEq

/-! ## Operations -/

/-- Commands accepted by the storage writer task. -/
inductive StorageWriteOp where
  | appendEvent (event : EventEnvelope)
  | appendPayload (sourceId : SourceId) (payload : EventPayload) (ingestTsUnixMs : Int64)
      (ingestTsMonoNs : UInt64)
  | upsertTxSeen (record : TxSeenRecord)
  | upsertTxFull (record : TxFullRecord)
  | upsertTxFeatures (record : TxFeaturesRecord)
  | upsertOpportunity (record : OpportunityRecord)
  | upsertTxLifecycle (record : TxLifecycleRecord)
  | upsertPeerStats (record : PeerStatsRecord)
  | writeSchedulerSnapshot (snapshot : PersistedSchedulerSnapshot)
  deriving DecidableEq

/-- Failure to enqueue a storage write without blocking. -/
inductive StorageTryEnqueueError where
  | queueFull
  | queueClosed
  deriving DecidableEq

/-- The envelope an operation appends before it is numbered. -/
def StorageWriteOp.envelope : StorageWriteOp → Option EventEnvelope
  | .appendEvent event => some event
  | .appendPayload sourceId payload ingestTsUnixMs ingestTsMonoNs =>
    some
      { seqId := 0, ingestTsUnixMs := ingestTsUnixMs, ingestTsMonoNs := ingestTsMonoNs
        sourceId := sourceId, payload := payload }
  | .upsertTxSeen _ | .upsertTxFull _ | .upsertTxFeatures _ | .upsertOpportunity _
  | .upsertTxLifecycle _ | .upsertPeerStats _ | .writeSchedulerSnapshot _ => none

/-- The events the writer appends while it drains its queue, in sequence order. -/
def drain (sequencer : GlobalSequencer) : List StorageWriteOp → List EventEnvelope
  | [] => []
  | op :: rest =>
    match op.envelope with
    | none => drain sequencer rest
    | some event => (sequencer.assign event).1 :: drain (sequencer.assign event).2 rest

/-- The writer appends the payloads of the queue in the order of the queue. -/
theorem map_payload_drain (sequencer : GlobalSequencer) (queue : List StorageWriteOp) :
    (drain sequencer queue).map (·.payload) =
      queue.filterMap fun op => op.envelope.map (·.payload) := by
  induction queue generalizing sequencer with
  | nil => rfl
  | cons op rest ih =>
      rw [drain, List.filterMap_cons]
      split
      case h_1 silent =>
        rw [silent]
        exact ih sequencer
      case h_2 event appended =>
        rw [appended, List.map_cons, ih]
        rfl

end Mempulse.Storage
