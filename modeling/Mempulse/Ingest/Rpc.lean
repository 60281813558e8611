import Mempulse.EventLog
import Mempulse.Library.Window

/-!
# RPC pending-transaction ingest

The `RpcIngestService` of the `ingest` crate. A poll of the provider brings a batch of pending
hashes. Hashes beyond the capacity of a batch and hashes that are still remembered are dropped; for
the others the transaction is fetched and announced as decoded. The sender and the nonce are not
known here, zeros stand in for them. A provider failure ends the batch and loses its events.
-/

set_option autoImplicit false

namespace Mempulse.Ingest

open Std EventLog Library

/-! ## Data -/

/-- Errors returned by ingest services. -/
inductive IngestError where
  | rpcConnect (source : IngestError)
  | txFetch (hash : String) (source : IngestError)
  | other (message : String)
  deriving DecidableEq

/-- A hash as hexadecimal text. -/
def formatTxHash (hash : TxHash) : String := hexText hash

/-- The error as one of the connection, unless it is one. -/
def IngestError.intoRpcConnect : IngestError → IngestError
  | .rpcConnect source => .rpcConnect source
  | error => .rpcConnect error

/-- The error as one of the fetch, unless it is one. -/
def IngestError.intoTxFetch (hash : TxHash) : IngestError → IngestError
  | .txFetch hash source => .txFetch hash source
  | error => .txFetch (formatTxHash hash) error

/-- Tuning knobs for the RPC pending-hash ingest loop. -/
structure RpcIngestConfig where
  maxSeenHashes : Nat := 250000
  pendingBatchCapacity : Nat := 4096
  deriving DecidableEq

/-- Raw transaction bytes fetched from the upstream RPC provider. -/
structure RawTransaction where
  hash : TxHash
  txType : UInt8
  raw : List UInt8
  deriving DecidableEq

/-- Source of pending hashes and optional full-transaction fetches. -/
class PendingTxProvider (P : Type) where
  pendingHashes : P → Except IngestError (List TxHash) × P
  fetchTransaction : P → TxHash → Except IngestError (Option RawTransaction) × P

/-- Clock abstraction used to stamp ingest events. -/
class IngestClock (C : Type) where
  nowUnixMs : C → Int64 × C
  nowMonoNs : C → UInt64 × C

/-- Ingest service that polls an RPC source for pending hashes. -/
structure RpcIngestService (P C : Type) where
  provider : P
  clock : C
  sourceId : SourceId
  config : RpcIngestConfig
  seenHashes : ExtTreeSet TxHash
  /-- Oldest first. -/
  seenOrder : List TxHash
  nextSeqId : UInt64

/-- The loop of `remember_hash`: forgets the oldest hashes while there are too many. -/
def forgetOldest (maxSeenHashes : Nat) (seenHashes : ExtTreeSet TxHash) (seenOrder : List TxHash) :
    List TxHash × ExtTreeSet TxHash :=
  evict (fun seenHashes oldest => seenHashes.erase oldest) maxSeenHashes seenHashes seenOrder

namespace RpcIngestService

variable {P C : Type}

/-- Creates a service with explicit ingest limits. -/
def withConfig (provider : P) (sourceId : SourceId) (clock : C) (config : RpcIngestConfig) :
    RpcIngestService P C where
  provider := provider
  clock := clock
  sourceId := sourceId
  config :=
    { maxSeenHashes := max config.maxSeenHashes 1
      pendingBatchCapacity := max config.pendingBatchCapacity 1 }
  seenHashes := ∅
  seenOrder := []
  nextSeqId := 1

/-- The reason of a drop, with the queue's depths. -/
def dropReason (service : RpcIngestService P C) (reason queueName : String)
    (depthCurrent depthPeak : Nat) : String :=
  reason ++ ";lane=rpc;source=" ++ service.sourceId ++ ";queue=" ++ queueName ++
    ";depth_current=" ++ toString depthCurrent ++ ";depth_peak=" ++ toString depthPeak

/-- Whether the hash is new, and the service that remembers it. -/
def rememberHash (service : RpcIngestService P C) (hash : TxHash) :
    Bool × RpcIngestService P C :=
  if service.seenHashes.contains hash then (false, service)
  else
    let kept := forgetOldest service.config.maxSeenHashes (service.seenHashes.insert hash)
      (service.seenOrder ++ [hash])
    (true, { service with seenHashes := kept.2, seenOrder := kept.1 })

section Batches

variable [PendingTxProvider P] [IngestClock C]

/-- Numbers and stamps an event by the service's clock. -/
def newEvent (service : RpcIngestService P C) (payload : EventPayload) :
    EventEnvelope × RpcIngestService P C :=
  let unixMs := IngestClock.nowUnixMs service.clock
  let monoNs := IngestClock.nowMonoNs unixMs.2
  ({ seqId := service.nextSeqId
     ingestTsUnixMs := unixMs.1
     ingestTsMonoNs := monoNs.1
     sourceId := service.sourceId
     payload := payload },
    { service with nextSeqId := service.nextSeqId + 1, clock := monoNs.2 })

/-- What follows the observation of a hash: its transaction is fetched. -/
def fetch (service : RpcIngestService P C) (hash : TxHash) :
    Except IngestError (List EventEnvelope) × RpcIngestService P C :=
  let answered := PendingTxProvider.fetchTransaction service.provider hash
  let service := { service with provider := answered.2 }
  match answered.1 with
  | .error error => (.error (error.intoTxFetch hash), service)
  | .ok none => (.ok [], service)
  | .ok (some tx) =>
    let fetchedAtUnixMs := IngestClock.nowUnixMs service.clock
    let fetched := newEvent { service with clock := fetchedAtUnixMs.2 }
      (.txFetched { hash := hash, fetchedAtUnixMs := fetchedAtUnixMs.1 })
    let decoded := newEvent fetched.2
      (.txDecoded
        { hash := tx.hash
          txType := tx.txType
          sender := 0
          nonce := 0
          chainId := none
          toAddress := none
          valueWei := none
          gasLimit := none
          gasPriceWei := none
          maxFeePerGasWei := none
          maxPriorityFeePerGasWei := none
          maxFeePerBlobGasWei := none
          calldataLen := some (UInt32.ofNat tx.raw.length) })
    (.ok [fetched.1, decoded.1], decoded.2)

/-- Reports a hash as dropped. -/
def dropHash (service : RpcIngestService P C) (reason : String) (depthCurrent : Nat) (hash : TxHash) :
    EventEnvelope × RpcIngestService P C :=
  newEvent service
    (.txDropped
      { hash := hash
        reason := service.dropReason reason "rpc.pending_batch" depthCurrent
          service.config.pendingBatchCapacity })

/-- Reports a hash as seen. -/
def observe (service : RpcIngestService P C) (hash : TxHash) :
    EventEnvelope × RpcIngestService P C :=
  let seenAtUnixMs := IngestClock.nowUnixMs service.clock
  let seenAtMonoNs := IngestClock.nowMonoNs seenAtUnixMs.2
  newEvent { service with clock := seenAtMonoNs.2 }
    (.txSeen
      { hash := hash, peerId := "rpc-provider", seenAtUnixMs := seenAtUnixMs.1
        seenAtMonoNs := seenAtMonoNs.1 })

/-- What `process_pending_batch` does with the hash at an index of the batch. -/
def processHash (depthCurrent : Nat) (service : RpcIngestService P C) (entry : TxHash × Nat) :
    Except IngestError (List EventEnvelope) × RpcIngestService P C :=
  if entry.2 ≥ service.config.pendingBatchCapacity then
    let dropped := service.dropHash "QueueFull" depthCurrent entry.1
    (.ok [dropped.1], dropped.2)
  else
    let remembered := service.rememberHash entry.1
    if !remembered.1 then
      let dropped := remembered.2.dropHash "Duplicate" depthCurrent entry.1
      (.ok [dropped.1], dropped.2)
    else
      let seen := remembered.2.observe entry.1
      let fetched := seen.2.fetch entry.1
      (fetched.1.map fun events => seen.1 :: events, fetched.2)

/-- The loop of `process_pending_batch`, which an error ends. -/
def processHashes (depthCurrent : Nat) (service : RpcIngestService P C) :
    List (TxHash × Nat) → Except IngestError (List EventEnvelope) × RpcIngestService P C
  | [] => (.ok [], service)
  | entry :: rest =>
    let processed := processHash depthCurrent service entry
    match processed.1 with
    | .error error => (.error error, processed.2)
    | .ok events =>
      let later := processHashes depthCurrent processed.2 rest
      (later.1.map (events ++ ·), later.2)

/-- Processes one provider poll and returns the ingest events for the accepted hashes. -/
def processPendingBatch (service : RpcIngestService P C) :
    Except IngestError (List EventEnvelope) × RpcIngestService P C :=
  let polled := PendingTxProvider.pendingHashes service.provider
  let service := { service with provider := polled.2 }
  match polled.1 with
  | .error error => (.error error.intoRpcConnect, service)
  | .ok hashes => processHashes hashes.length service hashes.zipIdx

/-- The events of a number of polls, in order, and the service after them. -/
def run (service : RpcIngestService P C) : Nat → List EventEnvelope × RpcIngestService P C
  | 0 => ([], service)
  | polls + 1 =>
    let processed := service.processPendingBatch
    let later := run processed.2 polls
    match processed.1 with
    | .error _ => later
    | .ok events => (events ++ later.1, later.2)

end Batches

end RpcIngestService

/-! ## The in-memory provider -/

/-- In-memory provider used by tests and deterministic fixtures. -/
structure InMemoryPendingTxProvider where
  batches : List (List TxHash)
  txByHash : ExtTreeMap TxHash RawTransaction

namespace InMemoryPendingTxProvider

/-- Creates a provider from pre-seeded pending-hash batches and full transactions. -/
def new (batches : List (List TxHash)) (transactions : List RawTransaction) :
    InMemoryPendingTxProvider where
  batches := batches
  txByHash := transactions.foldl (fun txs tx => txs.insert tx.hash tx) ∅

instance : PendingTxProvider InMemoryPendingTxProvider where
  pendingHashes provider :=
    (.ok (provider.batches.head?.getD []), { provider with batches := provider.batches.tail })
  fetchTransaction provider hash := (.ok provider.txByHash[hash]?, provider)

end InMemoryPendingTxProvider

end Mempulse.Ingest
