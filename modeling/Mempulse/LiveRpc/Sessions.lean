import Mempulse.HexParsers
import Mempulse.Library.Window
import Mempulse.Ingest.Rpc
import Mempulse.LiveRpc.Pipeline

/-!
# Sessions of a chain worker

A chain worker runs one websocket session after another. A session queues the pending hashes it is
told of, and flushes them in batches: the hashes that are not among the last ones seen are remembered,
fetched, and handed to the pipeline. The cache of seen hashes outlives the sessions, and a hash is
remembered before it is fetched, so a batch whose fetch fails leaves hashes behind that the next
session takes for fetched (`losesNoHash_iff_answered`).

A text on which `parse_fixed_hex` panics ends the worker's task, and so does a response on whose
decoding it panics: no session follows.

The network and the pipeline are the replies to the calls of a run, an arbitrary one for every call.
The permit of the batch comes from a semaphore that is never closed, and is left out, as are log
lines and the chain status.
-/

set_option autoImplicit false

namespace Mempulse.LiveRpc

open Std EventLog Library

/-! ## Seen hashes -/

/-- The hashes a worker has seen last. -/
structure SeenCache where
  seenHashes : ExtTreeSet TxHash
  /-- Oldest first. -/
  seenOrder : List TxHash

/-- Nothing has been seen. -/
def SeenCache.empty : SeenCache := ⟨∅, []⟩

/-- Whether the hash is new, and the cache that remembers it. -/
def rememberHash (maxSeenHashes : Nat) (hash : TxHash) (cache : SeenCache) : Bool × SeenCache :=
  if cache.seenHashes.contains hash then (false, cache)
  else
    let kept := Ingest.forgetOldest maxSeenHashes (cache.seenHashes.insert hash)
      (cache.seenOrder ++ [hash])
    (true, { seenHashes := kept.2, seenOrder := kept.1 })

/-! ## Batches -/

/-- What a session reads of the configuration. -/
structure SessionLimits where
  maxSeenHashes : Nat
  batchSize : Nat
  maxInFlight : Nat
  seenHashes_pos : 0 < maxSeenHashes

/-- The limits as they are read from the environment. -/
def SessionLimits.fromEnv (maxSeenHashes batchSize maxInFlight : Option Nat) : SessionLimits where
  maxSeenHashes := max (maxSeenHashes.getD 10000) 1
  batchSize := max (batchSize.getD 32) 1
  maxInFlight := max (maxInFlight.getD 4) 1
  seenHashes_pos := Nat.lt_of_lt_of_le Nat.one_pos (Nat.le_max_right _ _)

/-- A pending hash as a session queues it: the source's `PendingHashObservation`, with its text. -/
structure PendingHash where
  hashHex : String
  observation : PendingHashObservation
  deriving DecidableEq

/-- The replies to the calls of one batch: to the fetch, whose decoding of the response may panic,
and to the processing of each transaction by its position. -/
structure BatchReplies where
  fetch : List String → Outcome (Except String (List (Option LiveTx)))
  process : Nat → PendingHash → TxHash → Option LiveTx → Except String Unit

/-- The loop that drops the hashes that were seen already, and the texts that are no hashes. It
panics on a text that breaks a character. -/
def dedupBatch (maxSeenHashes : Nat) :
    List PendingHash → SeenCache → Outcome (List (PendingHash × TxHash) × SeenCache)
  | [], cache => .returned ([], cache)
  | pending :: rest, cache =>
    match Slicing.parseFixedHex 32 pending.hashHex with
    | .panicked => .panicked
    | .returned none => dedupBatch maxSeenHashes rest cache
    | .returned (some bytes) =>
      let hash := hashOfBytes bytes
      let remembered := rememberHash maxSeenHashes hash cache
      (dedupBatch maxSeenHashes rest remembered.2).map fun later =>
        (if remembered.1 then (pending, hash) :: later.1 else later.1, later.2)

/-- Hands the fetched transactions to the pipeline until it fails. -/
def processFetched (replies : BatchReplies) :
    List (((PendingHash × TxHash) × Option LiveTx) × Nat) → Except String Unit
  | [] => .ok ()
  | (((pending, hash), fetchedTx), position) :: rest =>
    match replies.process position pending hash fetchedTx with
    | .error error => .error error
    | .ok () => processFetched replies rest

/-- What becomes of the deduped hashes of a batch. -/
def fetchAndProcess (replies : BatchReplies) (deduped : List (PendingHash × TxHash)) :
    Outcome (Except String Unit) :=
  if deduped.isEmpty then .returned (.ok ())
  else
    (replies.fetch (deduped.map (·.1.hashHex))).map fun
      | .error error => .error error
      | .ok fetched => processFetched replies (deduped.zip fetched).zipIdx

/-- The result of a batch, and the cache behind it. -/
def processPendingHashBatch (maxSeenHashes : Nat) (replies : BatchReplies)
    (hashBatch : List PendingHash) (cache : SeenCache) : Outcome (Except String Unit × SeenCache) := do
  let deduped ← dedupBatch maxSeenHashes hashBatch cache
  let result ← fetchAndProcess replies deduped.1
  return (result, deduped.2)

/-! ## Sessions -/

/-- A call of `process_pending_hash_batch`. -/
structure BatchCall where
  hashBatch : List PendingHash
  replies : BatchReplies
  before : SeenCache

/-- A worker: its cache, and the batches it has begun to process, oldest first. The cache is lost with
a worker that panics. -/
structure ChainWorker where
  cache : SeenCache
  calls : List BatchCall

/-- A worker that has seen and handed on nothing. -/
def ChainWorker.start : ChainWorker := ⟨.empty, []⟩

/-- How many batches may be dispatched immediately. -/
def dispatchableBatchCount (queueLen batchSize maxInFlight : Nat) : Nat :=
  if queueLen = 0 then 0
  else
    let size := max batchSize 1
    min ((queueLen + size - 1) / size) (max maxInFlight 1)

section Runs

variable (limits : SessionLimits) (replies : Nat → BatchReplies)

/-- Processes a number of batches of the queue, and returns what is left of it. -/
def flushBatches : Nat → List PendingHash → ChainWorker →
    Outcome (Except String (List PendingHash)) × ChainWorker
  | 0, pendingHashes, worker => (.returned (.ok pendingHashes), worker)
  | count + 1, pendingHashes, worker =>
    let call : BatchCall :=
      { hashBatch := pendingHashes.take limits.batchSize
        replies := replies worker.calls.length
        before := worker.cache }
    let calls := worker.calls ++ [call]
    match processPendingHashBatch limits.maxSeenHashes call.replies call.hashBatch call.before with
    | .panicked => (.panicked, { worker with calls := calls })
    | .returned (.error error, cache) => (.returned (.error error), ⟨cache, calls⟩)
    | .returned (.ok (), cache) =>
      flushBatches count (pendingHashes.drop limits.batchSize) ⟨cache, calls⟩

/-- Dispatches as many batches as may be under way, and says what is left. -/
def flushPendingHashBatches (pendingHashes : List PendingHash) (worker : ChainWorker) :
    Outcome (Except String (List PendingHash)) × ChainWorker :=
  flushBatches limits replies
    (dispatchableBatchCount pendingHashes.length limits.batchSize limits.maxInFlight) pendingHashes
    worker

/-- What a session waits for: a frame that announces a hash, or another one, or no frame in time. -/
inductive SessionStep where
  | notified (pending : PendingHash)
  | idle

/-- What a step adds to the pending hashes. -/
def SessionStep.queued : SessionStep → List PendingHash
  | .notified pending => [pending]
  | .idle => []

/-- How a session ends that meets no failing batch: the socket is closed, or the connection or a
frame fails, or the chain has been silent for too long. -/
inductive SessionEnd where
  | closed
  | failed (error : String)

/-- The loop of a session. The queue of a session that fails is lost with it. -/
def sessionLoop : List SessionStep → SessionEnd → List PendingHash → ChainWorker →
    Outcome (Except String Unit) × ChainWorker
  | [], .failed error, _, worker => (.returned (.error error), worker)
  | [], .closed, pendingHashes, worker =>
    let flushed := flushPendingHashBatches limits replies pendingHashes worker
    (flushed.1.map fun left => left.map fun _ => (), flushed.2)
  | step :: rest, ending, pendingHashes, worker =>
    match flushPendingHashBatches limits replies (pendingHashes ++ step.queued) worker with
    | (.panicked, worker) => (.panicked, worker)
    | (.returned (.error error), worker) => (.returned (.error error), worker)
    | (.returned (.ok pendingHashes), worker) => sessionLoop rest ending pendingHashes worker

/-- What happens in a session. -/
structure WsSession where
  steps : List SessionStep
  ending : SessionEnd

/-- One connection, from its first message to its end. -/
def runWsSession (session : WsSession) (worker : ChainWorker) :
    Outcome (Except String Unit) × ChainWorker :=
  sessionLoop limits replies session.steps session.ending [] worker

/-- One session after another, whatever they return, until one panics. -/
def runSessions : List WsSession → ChainWorker → Outcome Unit × ChainWorker
  | [], worker => (.returned (), worker)
  | session :: rest, worker =>
    match runWsSession limits replies session worker with
    | (.panicked, worker) => (.panicked, worker)
    | (.returned _, worker) => runSessions rest worker

/-- The worker behind its sessions. -/
def runChainWorker (sessions : List WsSession) : ChainWorker :=
  (runSessions limits replies sessions .start).2

end Runs

end Mempulse.LiveRpc
