import Mempulse.EventLog
import Mempulse.Library.Window

/-!
# Pooled-transaction ingest

The `P2pIngestService` of the `ingest` crate. A peer announces hashes; an unknown hash is remembered
and queued for a fetch, a known one or one that finds the fetch queue full is dropped. Pooled
transactions that arrive are announced as fetched and decoded, with the few fields the payload
carries. The dedup memory forgets its oldest hashes.
-/

set_option autoImplicit false

namespace Mempulse.Ingest

open Std EventLog Library

/-! ## Data -/

/-- Tuning knobs for the devp2p pooled-transaction ingest path. -/
structure P2pIngestConfig where
  fetchQueueCapacity : Nat := 4096
  maxSeenHashes : Nat := 250000
  deriving DecidableEq

/-- Runtime counters exported by the devp2p ingest path. -/
structure P2pMetrics where
  announcementsTotal : UInt64 := 0
  duplicatesDroppedTotal : UInt64 := 0
  queueDroppedTotal : UInt64 := 0
  queueDepthCurrent : Nat := 0
  queueDepthPeak : Nat := 0
  txFullReceivedTotal : UInt64 := 0
  txDecodeEmittedTotal : UInt64 := 0
  deriving DecidableEq

/-- Request to fetch one or more pooled transactions from a specific peer. -/
structure GetPooledTransactionsRequest where
  peerId : PeerId
  hashes : List TxHash
  deriving DecidableEq

/-- Minimal payload needed to emit fetched and decoded p2p transaction events. -/
structure P2pTxPayload where
  hash : TxHash
  txType : UInt8
  sender : Address
  nonce : UInt64
  deriving DecidableEq

/-- When a hash was first heard of. -/
structure FirstSeen where
  unixMs : Int64
  deriving DecidableEq

/-- Stateful ingest service for devp2p transaction announcements and pooled transaction payloads. -/
structure P2pIngestService where
  config : P2pIngestConfig
  sourceId : SourceId
  seqId : UInt64
  firstSeen : ExtTreeMap TxHash FirstSeen
  /-- Oldest first. -/
  seenOrder : List TxHash
  fetchQueue : List GetPooledTransactionsRequest
  propagationDelaysByPeer : ExtTreeMap PeerId (List UInt32)
  metrics : P2pMetrics

/-- The time between two sightings: `saturating_sub` cut to 32 bits. -/
def propagationDelay (nowUnixMs firstUnixMs : Int64) : UInt32 :=
  UInt32.ofInt (max Int64.minValue.toInt
    (min Int64.maxValue.toInt (nowUnixMs.toInt - firstUnixMs.toInt)))

/-- The loop of `remember_hash`: forgets the oldest hashes while there are too many. -/
def evictOldest (maxSeenHashes : Nat) (firstSeen : ExtTreeMap TxHash FirstSeen)
    (seenOrder : List TxHash) : List TxHash × ExtTreeMap TxHash FirstSeen :=
  evict (fun firstSeen oldest => firstSeen.erase oldest) maxSeenHashes firstSeen seenOrder

namespace P2pIngestService

/-- Creates a new devp2p ingest service with bounded queues and dedup state. -/
def new (config : P2pIngestConfig) (sourceId : SourceId) : P2pIngestService where
  config :=
    { fetchQueueCapacity := max config.fetchQueueCapacity 1
      maxSeenHashes := max config.maxSeenHashes 1 }
  sourceId := sourceId
  seqId := 1
  firstSeen := ∅
  seenOrder := []
  fetchQueue := []
  propagationDelaysByPeer := ∅
  metrics := {}

/-- The reason of a drop, with the queue's depths. -/
def dropReason (service : P2pIngestService) (reason queueName : String) (peerId : PeerId)
    (depthCurrent : Nat) : String :=
  reason ++ ";lane=p2p;source=" ++ service.sourceId ++ ";peer=" ++ peerId ++ ";queue=" ++
    queueName ++ ";depth_current=" ++ toString depthCurrent ++ ";depth_peak=" ++
      toString service.metrics.queueDepthPeak

/-- Numbers and stamps an event. -/
def newEvent (service : P2pIngestService) (nowUnixMs : Int64) (nowMonoNs : UInt64)
    (payload : EventPayload) : EventEnvelope × P2pIngestService :=
  ({ seqId := service.seqId
     ingestTsUnixMs := nowUnixMs
     ingestTsMonoNs := nowMonoNs
     sourceId := service.sourceId
     payload := payload },
    { service with seqId := service.seqId + 1 })

/-- Remembers a new hash, and forgets the oldest beyond the bound. -/
def rememberHash (service : P2pIngestService) (hash : TxHash) (nowUnixMs : Int64) :
    P2pIngestService :=
  let kept := evictOldest service.config.maxSeenHashes
    (service.firstSeen.insert hash { unixMs := nowUnixMs }) (service.seenOrder ++ [hash])
  { service with firstSeen := kept.2, seenOrder := kept.1 }

/-! ## Announcements -/

/-- What `handle_new_pooled_transaction_hashes` does with one of the hashes. -/
def announce (peerId : PeerId) (nowUnixMs : Int64) (nowMonoNs : UInt64) (service : P2pIngestService)
    (hash : TxHash) : List EventEnvelope × P2pIngestService :=
  match service.firstSeen[hash]? with
  | some first =>
    let counted :=
      { service with
        metrics :=
          { service.metrics with
            duplicatesDroppedTotal := service.metrics.duplicatesDroppedTotal + 1 } }
    let event := counted.newEvent nowUnixMs nowMonoNs
      (.txDropped
        { hash := hash
          reason := counted.dropReason "Duplicate" "p2p.fetch" peerId counted.fetchQueue.length })
    -- A duplicate still records how long the hash took to this peer.
    ([event.1],
      { event.2 with
        propagationDelaysByPeer := event.2.propagationDelaysByPeer.insert peerId
          ((event.2.propagationDelaysByPeer[peerId]?).getD [] ++
            [propagationDelay nowUnixMs first.unixMs]) })
  | none =>
    if service.fetchQueue.length ≥ service.config.fetchQueueCapacity then
      let counted :=
        { service with
          metrics :=
            { service.metrics with
              queueDroppedTotal := service.metrics.queueDroppedTotal + 1
              queueDepthCurrent := service.fetchQueue.length } }
      let event := counted.newEvent nowUnixMs nowMonoNs
        (.txDropped
          { hash := hash
            reason := counted.dropReason "QueueFull" "p2p.fetch" peerId counted.fetchQueue.length })
      ([event.1], event.2)
    else
      let remembered := service.rememberHash hash nowUnixMs
      let fetchQueue := remembered.fetchQueue ++ [{ peerId := peerId, hashes := [hash] }]
      let queued :=
        { remembered with
          fetchQueue := fetchQueue
          metrics :=
            { remembered.metrics with
              queueDepthCurrent := fetchQueue.length
              queueDepthPeak := max remembered.metrics.queueDepthPeak fetchQueue.length } }
      let event := queued.newEvent nowUnixMs nowMonoNs
        (.txSeen
          { hash := hash, peerId := peerId, seenAtUnixMs := nowUnixMs, seenAtMonoNs := nowMonoNs })
      ([event.1], event.2)

/-- Pops the next queued pooled-transaction fetch request, if any. -/
def dequeueGetPooledTransactions (service : P2pIngestService) :
    Option GetPooledTransactionsRequest × P2pIngestService :=
  (service.fetchQueue.head?,
    { service with
      fetchQueue := service.fetchQueue.tail
      metrics := { service.metrics with queueDepthCurrent := service.fetchQueue.tail.length } })

/-! ## Pooled transactions -/

/-- What `handle_pooled_transactions` does with one of the transactions. -/
def deliver (nowUnixMs : Int64) (nowMonoNs : UInt64) (service : P2pIngestService)
    (tx : P2pTxPayload) : List EventEnvelope × P2pIngestService :=
  let received :=
    { service with
      metrics :=
        { service.metrics with txFullReceivedTotal := service.metrics.txFullReceivedTotal + 1 } }
  let fetched := received.newEvent nowUnixMs nowMonoNs
    (.txFetched { hash := tx.hash, fetchedAtUnixMs := nowUnixMs })
  let emitted :=
    { fetched.2 with
      metrics :=
        { fetched.2.metrics with
          txDecodeEmittedTotal := fetched.2.metrics.txDecodeEmittedTotal + 1 } }
  let decoded := emitted.newEvent nowUnixMs nowMonoNs
    (.txDecoded
      { hash := tx.hash
        txType := tx.txType
        sender := tx.sender
        nonce := tx.nonce
        chainId := none
        toAddress := none
        valueWei := none
        gasLimit := none
        gasPriceWei := none
        maxFeePerGasWei := none
        maxPriorityFeePerGasWei := none
        maxFeePerBlobGasWei := none
        calldataLen := none })
  ([fetched.1, decoded.1], decoded.2)

/-- One item after another, with the events of all of them. -/
def forEach {α : Type} (handle : P2pIngestService → α → List EventEnvelope × P2pIngestService)
    (service : P2pIngestService) : List α → List EventEnvelope × P2pIngestService
  | [] => ([], service)
  | item :: rest =>
    let handled := handle service item
    let later := forEach handle handled.2 rest
    (handled.1 ++ later.1, later.2)

/-- Counts the hashes of a message. -/
def countAnnouncements (service : P2pIngestService) (hashes : List TxHash) : P2pIngestService :=
  { service with
    metrics :=
      { service.metrics with
        announcementsTotal := service.metrics.announcementsTotal + UInt64.ofNat hashes.length } }

/-- Accepts a batch of announced hashes from one peer. -/
def handleNewPooledTransactionHashes (service : P2pIngestService) (peerId : PeerId)
    (hashes : List TxHash) (nowUnixMs : Int64) (nowMonoNs : UInt64) :
    List EventEnvelope × P2pIngestService :=
  forEach (announce peerId nowUnixMs nowMonoNs) (service.countAnnouncements hashes) hashes

/-- Accepts full pooled transactions from a peer. -/
def handlePooledTransactions (service : P2pIngestService) (_peerId : PeerId)
    (txs : List P2pTxPayload) (nowUnixMs : Int64) (nowMonoNs : UInt64) :
    List EventEnvelope × P2pIngestService :=
  forEach (deliver nowUnixMs nowMonoNs) service txs

/-! ## Runs -/

/-- A call of the service. -/
inductive Call where
  | announced (peerId : PeerId) (hashes : List TxHash) (nowUnixMs : Int64) (nowMonoNs : UInt64)
  | dequeued
  | delivered (peerId : PeerId) (txs : List P2pTxPayload) (nowUnixMs : Int64) (nowMonoNs : UInt64)
  deriving DecidableEq

/-- The events of a call, and the service after it. -/
def call (service : P2pIngestService) : Call → List EventEnvelope × P2pIngestService
  | .announced peerId hashes nowUnixMs nowMonoNs =>
    service.handleNewPooledTransactionHashes peerId hashes nowUnixMs nowMonoNs
  | .dequeued => ([], service.dequeueGetPooledTransactions.2)
  | .delivered peerId txs nowUnixMs nowMonoNs =>
    service.handlePooledTransactions peerId txs nowUnixMs nowMonoNs

/-- The events of a run, in order, and the service after it. -/
def run (service : P2pIngestService) (calls : List Call) : List EventEnvelope × P2pIngestService :=
  forEach call service calls

end P2pIngestService

end Mempulse.Ingest
