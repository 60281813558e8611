import Mempulse.Scheduler.State

/-!
# The replay model

The mempool state that the `replay` crate rebuilds from the event log: a lifecycle entry for
every hash, the sender queues, and the hashes each block has confirmed. The hash maps of the
source are ordered maps here; nothing depends on their order.
-/

set_option autoImplicit false

namespace Mempulse.Replay

open Std EventLog Library Scheduler

/-! ## Data -/

/-- Replay-time queue state for a sender/nonce position. -/
abbrev ReplayQueueState := GapVerdict UInt64

/-- Queue entry emitted in replay snapshots. -/
structure ReplaySenderQueueEntry where
  hash : TxHash
  nonce : UInt64
  state : ReplayQueueState
  deriving DecidableEq

/-- Replay snapshot of one sender queue. -/
structure ReplaySenderQueue where
  sender : Address
  queued : List ReplaySenderQueueEntry
  deriving DecidableEq

/-- Current replayed lifecycle status for a transaction hash. -/
inductive TxLifecycleStatus where
  | pending
  | replaced (replacedBy : TxHash)
  | dropped (reason : String)
  | confirmedProvisional (blockNumber : UInt64) (blockHash : BlockHash)
  | confirmedFinal (blockNumber : UInt64) (blockHash : BlockHash)
  deriving DecidableEq

/-- The block that confirmed a transaction of this status. -/
def TxLifecycleStatus.confirmedIn : TxLifecycleStatus → Option BlockHash
  | .confirmedProvisional _ blockHash | .confirmedFinal _ blockHash => some blockHash
  | _ => none

/-- State change emitted while applying one event to the replay model. -/
inductive StateTransition where
  | pending (hash : TxHash)
  | replaced (oldHash newHash : TxHash)
  | dropped (hash : TxHash) (reason : String)
  | confirmedProvisional (hash : TxHash) (blockHash : BlockHash)
  | confirmedFinal (hash : TxHash) (blockHash : BlockHash)
  | reorgReopened (hash : TxHash) (oldBlockHash newBlockHash : BlockHash)
  | queueReady (hash : TxHash) (sender : Address) (nonce : UInt64)
  | queueBlocked (hash : TxHash) (sender : Address) (nonce : UInt64) (expectedNonce : Option UInt64)
  deriving DecidableEq

/-- What the replay knows of a transaction. -/
structure TxEntry where
  sender : Option Address
  nonce : Option UInt64
  status : TxLifecycleStatus
  queueState : Option ReplayQueueState
  deriving DecidableEq

/-- In-memory transaction lifecycle model reconstructed from event-log payloads. -/
structure MempoolState where
  txs : ExtTreeMap TxHash TxEntry := ∅
  senderQueues : ExtTreeMap Address SenderQueue := ∅
  blockConfirmations : ExtTreeMap BlockHash (ExtTreeSet TxHash) := ∅

namespace MempoolState

/-! ## Seeding -/

/-- Seeds replay state from a set of hashes that are already known to be pending. -/
def fromPendingHashes (pendingHashes : List TxHash) : MempoolState where
  txs := pendingHashes.foldl
    (fun txs hash =>
      txs.insert hash { sender := none, nonce := none, status := .pending, queueState := none })
    ∅

/-- `entry(hash).or_insert(entry)`. -/
def orInsert (txs : ExtTreeMap TxHash TxEntry) (hash : TxHash) (entry : TxEntry) :
    ExtTreeMap TxHash TxEntry :=
  if txs.contains hash then txs else txs.insert hash entry

/-- The body of the inner loop of `from_checkpoint`. -/
def seedQueueEntry (sender : Address) (state : MempoolState) (entry : ReplaySenderQueueEntry) :
    MempoolState :=
  { state with
    txs := orInsert state.txs entry.hash
      { sender := some sender, nonce := some entry.nonce, status := .pending
        queueState := some entry.state }
    senderQueues :=
      SchedulerState.insertQueueEntry state.senderQueues sender entry.nonce entry.hash }

/-- Seeds replay state from a checkpoint that already includes sender queue reconstruction. -/
def fromCheckpoint (pendingHashes : List TxHash) (senderQueues : List ReplaySenderQueue) :
    MempoolState :=
  senderQueues.foldl (fun state queue => queue.queued.foldl (seedQueueEntry queue.sender) state)
    (fromPendingHashes pendingHashes)

/-! ## Queue bookkeeping -/

/-- The status of a hash. -/
def lifecycle (state : MempoolState) (hash : TxHash) : Option TxLifecycleStatus :=
  (state.txs[hash]?).map (·.status)

/-- Whether the transaction is pending. -/
def isPending (txs : ExtTreeMap TxHash TxEntry) (hash : TxHash) : Bool :=
  (txs[hash]?).map (·.status) = some .pending

/-- All hashes currently considered pending by the replay state. -/
def pendingHashes (state : MempoolState) : List TxHash :=
  (state.txs.toList.filter fun entry => entry.2.status = .pending).map Prod.fst

/-- The queue without the entries that name no pending transaction. -/
def liveEntries (txs : ExtTreeMap TxHash TxEntry) (queue : SenderQueue) : List (UInt64 × TxHash) :=
  queue.toList.filter fun entry => isPending txs entry.2

/-- Reconstructs sender queues with ready/blocked classification for pending transactions. -/
def senderQueuesReport (state : MempoolState) : List ReplaySenderQueue :=
  state.senderQueues.toList.filterMap fun (sender, queue) =>
    let queued := (GapCursor.scan checkedSucc {} (liveEntries state.txs queue)).map fun visited =>
      { hash := visited.1.2
        nonce := visited.1.1
        state := (((state.txs[visited.1.2]?).bind (·.queueState)).getD visited.2) }
    if queued.isEmpty then none else some { sender := sender, queued := queued }

/-- `entry.queue_state = queueState` for the entry of a hash, when it has one. -/
def setQueueState (txs : ExtTreeMap TxHash TxEntry) (hash : TxHash)
    (queueState : Option ReplayQueueState) : ExtTreeMap TxHash TxEntry :=
  txs.modify hash fun entry => { entry with queueState := queueState }

/-- `self.sender_queues.remove(&sender)` when the sender's queue is left empty. -/
def putQueue (queues : ExtTreeMap Address SenderQueue) (sender : Address) (queue : SenderQueue) :
    ExtTreeMap Address SenderQueue :=
  if queue.isEmpty then queues.erase sender else queues.insert sender queue

/-- Walks a sender's queue and sets every entry ready or blocked. -/
def recomputeSenderQueueStates (state : MempoolState) (sender : Address) : MempoolState :=
  match state.senderQueues[sender]? with
  | none => state
  | some queue =>
    let cleared := queue.toList.foldl (fun txs entry => setQueueState txs entry.2 none) state.txs
    let updates := GapCursor.scan checkedSucc {} (liveEntries cleared queue)
    let staleNonces :=
      (queue.toList.filter fun entry => !isPending cleared entry.2).map Prod.fst
    { state with
      txs := updates.foldl (fun txs update => setQueueState txs update.1.2 (some update.2)) cleared
      senderQueues := putQueue state.senderQueues sender (staleNonces.foldl (·.erase ·) queue) }

/-- Makes the transaction pending and puts it at its nonce. -/
def ensureSenderQueueEntry (state : MempoolState) (hash : TxHash) (sender : Address)
    (nonce : UInt64) : MempoolState :=
  { state with
    txs := state.txs.insert hash
      { sender := some sender, nonce := some nonce, status := .pending
        queueState := (state.txs[hash]?).bind (·.queueState) }
    senderQueues := SchedulerState.insertQueueEntry state.senderQueues sender nonce hash }

/-- Takes the transaction out of its sender's queue, if it still stands at its nonce. -/
def removeSenderQueueEntry (state : MempoolState) (hash : TxHash) (sender : Address)
    (nonce : UInt64) : MempoolState :=
  match state.senderQueues[sender]? with
  | none => state
  | some queue =>
    { state with
      senderQueues := putQueue state.senderQueues sender
        (if queue[nonce]? = some hash then queue.erase nonce else queue) }

/-- Takes a hash out of its queue, when its entry knows the sender and the nonce. -/
def unqueue (state : MempoolState) (hash : TxHash) :
    Option Address → Option UInt64 → MempoolState
  | some sender, some nonce =>
    (state.removeSenderQueueEntry hash sender nonce).recomputeSenderQueueStates sender
  | _, _ => state

/-! ## Events -/

/-- What a decoded transaction does to the one that holds its slot. -/
def displace (state : MempoolState) (decoded : TxDecoded) : List StateTransition × MempoolState :=
  match SchedulerState.slotOf state.senderQueues decoded.sender decoded.nonce with
  | some oldHash =>
    if oldHash ≠ decoded.hash then
      ([.replaced oldHash decoded.hash],
        { state with
          txs := state.txs.modify oldHash fun entry =>
            { entry with status := .replaced decoded.hash, queueState := none } })
    else ([], state)
  | none => ([], state)

/-- A decoded transaction displaces what stands at its nonce and becomes pending. -/
def applyDecoded (state : MempoolState) (decoded : TxDecoded) :
    List StateTransition × MempoolState :=
  let displaced := state.displace decoded
  (displaced.1 ++ [.pending decoded.hash],
    (displaced.2.ensureSenderQueueEntry decoded.hash decoded.sender
      decoded.nonce).recomputeSenderQueueStates decoded.sender)

/-- The entry of a hash, or the one `or_insert` puts there. -/
def entryOr (state : MempoolState) (hash : TxHash) (status : TxLifecycleStatus) : TxEntry :=
  (state.txs[hash]?).getD { sender := none, nonce := none, status := status, queueState := none }

/-- Gives a hash a status that is not pending, and takes it out of its queue. -/
def retire (state : MempoolState) (hash : TxHash) (status : TxLifecycleStatus) : MempoolState :=
  let entry := state.entryOr hash status
  unqueue
    { state with txs := state.txs.insert hash { entry with status := status, queueState := none } }
    hash entry.sender entry.nonce

/-- A dropped transaction leaves its queue. -/
def applyDropped (state : MempoolState) (dropped : TxDropped) :
    List StateTransition × MempoolState :=
  ([.dropped dropped.hash dropped.reason], state.retire dropped.hash (.dropped dropped.reason))

/-- `self.block_confirmations.entry(block_hash).or_default().insert(hash)`. -/
def noteConfirmation (state : MempoolState) (blockHash : BlockHash) (hash : TxHash) :
    MempoolState :=
  { state with
    blockConfirmations := state.blockConfirmations.insert blockHash
      (((state.blockConfirmations[blockHash]?).getD ∅).insert hash) }

/-- A provisionally confirmed transaction leaves its queue. -/
def applyConfirmedProvisional (state : MempoolState) (confirmed : TxConfirmed) :
    List StateTransition × MempoolState :=
  ([.confirmedProvisional confirmed.hash confirmed.blockHash],
    (state.retire confirmed.hash
      (.confirmedProvisional confirmed.blockNumber confirmed.blockHash)).noteConfirmation
        confirmed.blockHash confirmed.hash)

/-- A finally confirmed transaction leaves its queue. -/
def applyConfirmedFinal (state : MempoolState) (confirmed : TxConfirmed) :
    List StateTransition × MempoolState :=
  ([.confirmedFinal confirmed.hash confirmed.blockHash],
    (state.retire confirmed.hash
      (.confirmedFinal confirmed.blockNumber confirmed.blockHash)).noteConfirmation
        confirmed.blockHash confirmed.hash)

/-- Unlike a drop or a confirmation, a replacement leaves an unknown hash unknown. -/
def applyReplaced (state : MempoolState) (replaced : TxReplaced) :
    List StateTransition × MempoolState :=
  ([.replaced replaced.hash replaced.replacedBy],
    if state.txs.contains replaced.hash then
      state.retire replaced.hash (.replaced replaced.replacedBy)
    else state)

/-- A reorganized transaction that is known becomes pending again. -/
def applyReorg (state : MempoolState) (reorged : TxReorged) :
    List StateTransition × MempoolState :=
  match state.txs[reorged.hash]? with
  | none => ([], state)
  | some entry =>
    if entry.status.confirmedIn = some reorged.oldBlockHash then
      let reopened :=
        { state with txs := state.txs.insert reorged.hash { entry with status := .pending } }
      let queued :=
        match entry.sender, entry.nonce with
        | some sender, some nonce =>
          (reopened.ensureSenderQueueEntry reorged.hash sender nonce).recomputeSenderQueueStates
            sender
        | _, _ => reopened
      ([.reorgReopened reorged.hash reorged.oldBlockHash reorged.newBlockHash],
        { queued with
          blockConfirmations := queued.blockConfirmations.modify reorged.oldBlockHash
            fun confirmed => confirmed.erase reorged.hash })
    else ([], state)

/-- A transaction announced ready is queued. -/
def applyReady (state : MempoolState) (ready : TxReady) : List StateTransition × MempoolState :=
  let queued := (state.ensureSenderQueueEntry ready.hash ready.sender
    ready.nonce).recomputeSenderQueueStates ready.sender
  ([.queueReady ready.hash ready.sender ready.nonce],
    { queued with txs := setQueueState queued.txs ready.hash (some .ready) })

/-- A transaction announced blocked is queued. -/
def applyBlocked (state : MempoolState) (blocked : TxBlocked) :
    List StateTransition × MempoolState :=
  let queued := (state.ensureSenderQueueEntry blocked.hash blocked.sender
    blocked.nonce).recomputeSenderQueueStates blocked.sender
  ([.queueBlocked blocked.hash blocked.sender blocked.nonce blocked.expectedNonce],
    match blocked.expectedNonce with
    | some expected =>
      { queued with txs := setQueueState queued.txs blocked.hash (some (.blocked expected)) }
    | none => queued)

/-- Applies the payload of one event and returns the resulting transaction state transitions. -/
def applyEvent (state : MempoolState) (payload : EventPayload) :
    List StateTransition × MempoolState :=
  match payload with
  | .txDecoded decoded => state.applyDecoded decoded
  | .txDropped dropped => state.applyDropped dropped
  | .txReady ready => state.applyReady ready
  | .txBlocked blocked => state.applyBlocked blocked
  | .txConfirmedProvisional confirmed => state.applyConfirmedProvisional confirmed
  | .txConfirmedFinal confirmed => state.applyConfirmedFinal confirmed
  | .txReorged reorged => state.applyReorg reorged
  | .txReplaced replaced => state.applyReplaced replaced
  | .txSeen _ | .txFetched _ | .candidateQueued _ | .simDispatched _ | .oppDetected _
  | .simCompleted _ | .assemblyDecisionApplied _ | .bundleSubmitted _ => ([], state)

/-- The state after a list of events. -/
def replay (state : MempoolState) (payloads : List EventPayload) : MempoolState :=
  payloads.foldl (fun state payload => (state.applyEvent payload).2) state

end MempoolState

end Mempulse.Replay
