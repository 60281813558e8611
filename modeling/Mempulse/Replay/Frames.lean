import Mempulse.EventOrder
import Mempulse.Replay.MempoolState

/-!
# Replay frames and checkpoints

Replay sorts the events, applies them one by one to an empty model and emits frames or checkpoints
on the way. The pending hashes of the model are the keys of a hash map, so a run lists them in an
order of its own and sorts them before it emits them.
-/

set_option autoImplicit false

namespace Mempulse.Replay

open Std EventLog Library

/-! ## Data -/

/-- Replay strategy used when deriving frames from an event stream. -/
inductive ReplayMode where
  | deterministicEventReplay
  | snapshotReplay
  deriving DecidableEq

/-- Materialized replay frame for one point in the event stream. -/
structure ReplayFrame where
  seqHi : UInt64
  timestampUnixMs : Int64
  pending : List TxHash
  senderQueues : List ReplaySenderQueue
  deriving DecidableEq

/-- Deterministic checkpoint of the pending set at a particular sequence id. -/
structure LifecycleCheckpoint where
  seqId : UInt64
  pendingHashes : List TxHash
  senderQueues : List ReplaySenderQueue
  deriving DecidableEq

/-- Digests of the hasher, 32 bytes each. -/
abbrev Digest := List.Vector UInt8 32

/-- Hash summary for a replay checkpoint. -/
structure CheckpointHash where
  seqId : UInt64
  pendingCount : Nat
  checkpointHash : Digest
  deriving DecidableEq

/-- Diff between two lifecycle checkpoints. -/
structure ReplayDiffSummary where
  fromSeqId : UInt64
  toSeqId : UInt64
  fromPendingCount : Nat
  toPendingCount : Nat
  fromCheckpointHash : Digest
  toCheckpointHash : Digest
  addedPending : List TxHash
  removedPending : List TxHash
  deriving DecidableEq

/-- The order in which the hash map of one run lists the pending hashes, after each number of
events. -/
structure MapIteration where
  pendingHashes : Nat → MempoolState → List TxHash
  perm : ∀ applied state, (pendingHashes applied state).Perm state.pendingHashes

/-- A map that lists its keys in increasing order. -/
def MapIteration.increasing : MapIteration where
  pendingHashes _ state := state.pendingHashes
  perm _ _ := List.Perm.refl _

/-- A map that lists its keys in decreasing order. -/
def MapIteration.decreasing : MapIteration where
  pendingHashes _ state := state.pendingHashes.reverse
  perm _ state := state.pendingHashes.reverse_perm

/-- `pending.sort_unstable()`: hashes that compare equal are equal, so stability does not matter. -/
def sortHashes (hashes : List TxHash) : List TxHash := stableSort compare hashes

/-! ## Frames -/

namespace MapIteration

/-- The frame that is pushed after an event. -/
def frame (iteration : MapIteration) (applied : Nat) (event : EventEnvelope) (state : MempoolState) :
    ReplayFrame where
  seqHi := event.seqId
  timestampUnixMs := event.ingestTsUnixMs
  pending := sortHashes (iteration.pendingHashes applied state)
  senderQueues := state.senderQueuesReport

/-- The loop of `replay_deterministic`, from an index on. -/
def replayDeterministicLoop (iteration : MapIteration) (stride total : Nat) :
    Nat → MempoolState → List EventEnvelope → List ReplayFrame
  | _, _, [] => []
  | idx, state, event :: rest =>
    let state := (state.applyEvent event.payload).2
    let shouldEmit := (idx + 1) % stride = 0 || idx + 1 = total
    (if shouldEmit then [iteration.frame (idx + 1) event state] else []) ++
      replayDeterministicLoop iteration stride total (idx + 1) state rest

/-- The frames of the replay that applies every event. -/
def replayDeterministic (iteration : MapIteration) (events : List EventEnvelope) (stride : Nat) :
    List ReplayFrame :=
  let sorted := sortDeterministic events
  iteration.replayDeterministicLoop stride sorted.length 0 {} sorted

/-- `count.is_multiple_of(stride)`. -/
def isMultipleOf (count stride : Nat) : Bool :=
  match stride with
  | 0 => count = 0
  | stride => count % stride = 0

/-- The loop of `replay_snapshot`, from a count on. -/
def replaySnapshotLoop (iteration : MapIteration) (stride total : Nat) :
    Nat → MempoolState → List EventEnvelope → List ReplayFrame
  | _, _, [] => []
  | count, state, event :: rest =>
    let count := count + 1
    let state := (state.applyEvent event.payload).2
    if isMultipleOf count stride || count = total then
      iteration.frame count event state :: replaySnapshotLoop iteration stride total count state rest
    else replaySnapshotLoop iteration stride total count state rest

/-- The frames of the replay that looks at the pending set alone. -/
def replaySnapshot (iteration : MapIteration) (events : List EventEnvelope) (stride : Nat) :
    List ReplayFrame :=
  let sorted := sortDeterministic events
  iteration.replaySnapshotLoop stride sorted.length 0 {} sorted

/-- Replays an event stream into frames using the requested mode and stride. -/
def replayFrames (iteration : MapIteration) (events : List EventEnvelope) (mode : ReplayMode)
    (stride : Nat) : List ReplayFrame :=
  match mode with
  | .deterministicEventReplay => iteration.replayDeterministic events (max stride 1)
  | .snapshotReplay => iteration.replaySnapshot events (max stride 1)

/-! ## Checkpoints -/

/-- The loop of `lifecycle_checkpoints`, after a number of events. -/
def lifecycleCheckpointsLoop (iteration : MapIteration) (checkpoints : ExtTreeSet UInt64) :
    Nat → MempoolState → List EventEnvelope → List LifecycleCheckpoint
  | _, _, [] => []
  | applied, state, event :: rest =>
    let state := (state.applyEvent event.payload).2
    let later := lifecycleCheckpointsLoop iteration checkpoints (applied + 1) state rest
    if checkpoints.contains event.seqId then
      { seqId := event.seqId
        pendingHashes := sortHashes (iteration.pendingHashes (applied + 1) state)
        senderQueues := state.senderQueuesReport } :: later
    else later

/-- Builds checkpoints for the requested sequence ids from a sorted event stream. -/
def lifecycleCheckpoints (iteration : MapIteration) (events : List EventEnvelope)
    (checkpointSeqIds : List UInt64) : List LifecycleCheckpoint :=
  iteration.lifecycleCheckpointsLoop (ExtTreeSet.ofList checkpointSeqIds) 0 {}
    (sortDeterministic events)

/-- Returns a single checkpoint snapshot for the requested sequence id. -/
def lifecycleSnapshot (iteration : MapIteration) (events : List EventEnvelope)
    (checkpointSeqId : UInt64) : Option LifecycleCheckpoint :=
  (iteration.lifecycleCheckpoints events [checkpointSeqId]).head?

/-- Continues deterministic replay from a previously captured checkpoint. -/
def replayFromCheckpoint (iteration : MapIteration) (events : List EventEnvelope)
    (checkpoint : LifecycleCheckpoint) (stride : Nat) : List ReplayFrame :=
  let sortedTail := (sortDeterministic events).filter fun event => checkpoint.seqId < event.seqId
  let state :=
    if checkpoint.senderQueues.isEmpty then MempoolState.fromPendingHashes checkpoint.pendingHashes
    else MempoolState.fromCheckpoint checkpoint.pendingHashes checkpoint.senderQueues
  iteration.replayDeterministicLoop (max stride 1) sortedTail.length 0 state sortedTail

/-- Compares checkpoint parity between replayed frames and direct lifecycle reconstruction. The
two reconstructions are runs of their own. -/
def lifecycleParity (iteration replayed : MapIteration) (events : List EventEnvelope)
    (checkpointSeqIds : List UInt64) : ExtTreeMap UInt64 Bool :=
  let expected := iteration.lifecycleCheckpoints events checkpointSeqIds
  let deterministic := replayed.replayFrames events .deterministicEventReplay 1
  let deterministicBySeq : ExtTreeMap UInt64 (List TxHash) :=
    .ofList (deterministic.map fun frame => (frame.seqHi, frame.pending))
  .ofList <| expected.map fun checkpoint =>
    (checkpoint.seqId, decide ((deterministicBySeq[checkpoint.seqId]?).getD [] =
      checkpoint.pendingHashes))

end MapIteration

/-! ## Checkpoint hashes -/

/-- `to_le_bytes` of an eight-byte integer. -/
def leBytes (value : BitVec 64) : List UInt8 :=
  (List.range 8).map fun position => UInt8.ofBitVec (value.extractLsb' (8 * position) 8)

/-- The bytes of a fixed-width array, the most significant first. -/
def arrayBytes {width : Nat} (value : BitVec width) : List UInt8 :=
  (List.range (width / 8)).reverse.map fun position =>
    UInt8.ofBitVec (value.extractLsb' (8 * position) 8)

/-- `len() as u64`. -/
def lenBytes (length : Nat) : List UInt8 := leBytes (BitVec.ofNat 64 length)

/-- The bytes of a queue state: its tag, and the nonce a blocked one waits for. -/
def queueStateBytes : ReplayQueueState → List UInt8
  | .ready => [0]
  | .blocked expectedNonce => 1 :: leBytes expectedNonce.toBitVec

/-- The bytes of the queues, every list behind its length. -/
def senderQueuesBytes (senderQueues : List ReplaySenderQueue) : List UInt8 :=
  lenBytes senderQueues.length ++ senderQueues.flatMap fun queue =>
    arrayBytes queue.sender ++ lenBytes queue.queued.length ++ queue.queued.flatMap fun entry =>
      arrayBytes entry.hash ++ leBytes entry.nonce.toBitVec ++ queueStateBytes entry.state

section Hashing

variable (sha256 : List UInt8 → Digest)

/-- Computes a deterministic hash for a lifecycle checkpoint. -/
def lifecycleCheckpointHash (checkpoint : LifecycleCheckpoint) : Digest :=
  let pendingHashes := sortHashes checkpoint.pendingHashes
  sha256 (leBytes checkpoint.seqId.toBitVec ++ lenBytes pendingHashes.length ++
    pendingHashes.flatMap arrayBytes ++ senderQueuesBytes checkpoint.senderQueues)

/-- The digest of a frame. -/
def frameCheckpointHash (frame : ReplayFrame) : Digest :=
  sha256 (leBytes frame.seqHi.toBitVec ++ leBytes frame.timestampUnixMs.toBitVec ++
    lenBytes frame.pending.length ++ frame.pending.flatMap arrayBytes ++
    senderQueuesBytes frame.senderQueues)

namespace MapIteration

/-- Emits deterministic checkpoint hashes at the given replay stride. -/
def deterministicCheckpointHashes (iteration : MapIteration) (events : List EventEnvelope)
    (stride : Nat) : List CheckpointHash :=
  (iteration.replayFrames events .deterministicEventReplay (max stride 1)).map fun frame =>
    { seqId := frame.seqHi
      pendingCount := frame.pending.length
      checkpointHash := frameCheckpointHash sha256 frame }

/-- Computes a pending-set diff between two sequence ids; each snapshot is a run of its own. -/
def replayDiffSummary (earlier later : MapIteration) (events : List EventEnvelope)
    (fromSeqId toSeqId : UInt64) : Option ReplayDiffSummary := do
  let (fromSeqId, toSeqId) :=
    if fromSeqId ≤ toSeqId then (fromSeqId, toSeqId) else (toSeqId, fromSeqId)
  let fromCheckpoint ← earlier.lifecycleSnapshot events fromSeqId
  let toCheckpoint ← later.lifecycleSnapshot events toSeqId
  let fromSet : ExtTreeSet TxHash := .ofList fromCheckpoint.pendingHashes
  let toSet : ExtTreeSet TxHash := .ofList toCheckpoint.pendingHashes
  return {
    fromSeqId := fromSeqId
    toSeqId := toSeqId
    fromPendingCount := fromCheckpoint.pendingHashes.length
    toPendingCount := toCheckpoint.pendingHashes.length
    fromCheckpointHash := lifecycleCheckpointHash sha256 fromCheckpoint
    toCheckpointHash := lifecycleCheckpointHash sha256 toCheckpoint
    addedPending := toSet.toList.filter fun hash => !fromSet.contains hash
    removedPending := fromSet.toList.filter fun hash => !toSet.contains hash }

end MapIteration

end Hashing

/-- Returns the current lifecycle status for a transaction after replaying all events. -/
def currentLifecycle (events : List EventEnvelope) (hash : TxHash) : Option TxLifecycleStatus :=
  (MempoolState.replay {} ((sortDeterministic events).map (·.payload))).lifecycle hash

end Mempulse.Replay
