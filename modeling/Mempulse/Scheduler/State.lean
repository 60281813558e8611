import Mempulse.EventLog
import Mempulse.Library.GapScan

/-!
# The scheduler

The state of the `scheduler` crate and the operations its actor runs on it: sender-aware
admission with replacement, candidate registration and simulation results, and the persisted
snapshot with its loader. Every ordered map of the source is an extensional tree map, so a
traversal visits keys in the source's order.
-/

set_option autoImplicit false

namespace Mempulse.Scheduler

open Std EventLog Library

/-! ## Data -/

/-- Decoded transaction accepted by the scheduler admission pipeline. -/
structure ValidatedTransaction where
  sourceId : SourceId
  observedAtUnixMs : Int64
  observedAtMonoNs : UInt64
  calldata : List UInt8
  decoded : TxDecoded
  deriving DecidableEq

/-- The canonical transaction hash. -/
def ValidatedTransaction.hash (tx : ValidatedTransaction) : TxHash := tx.decoded.hash

/-- Admission and sender-queue limits enforced by the scheduler. -/
structure SchedulerConfig where
  handoffQueueCapacity : Nat := 1024
  maxPendingPerSender : Nat := 64
  /-- Basis points: 1000 is ten percent. -/
  replacementFeeBumpBps : UInt16 := 1000
  deriving DecidableEq

/-- Validation errors for scheduler configuration. -/
inductive SchedulerConfigError where
  | handoffQueueCapacityZero
  | maxPendingPerSenderZero
  deriving DecidableEq

/-- Searcher candidate registered with the scheduler for simulation dispatch. -/
structure SchedulerCandidate where
  candidateId : CandidateId
  txHash : TxHash
  memberTxHashes : List TxHash
  score : UInt32
  strategy : StrategyId
  detectedUnixMs : Int64
  deriving DecidableEq

/-- Simulation job emitted for one candidate and target block generation. -/
structure SimulationTaskSpec where
  candidateId : CandidateId
  txHash : TxHash
  memberTxHashes : List TxHash
  blockNumber : UInt64
  generation : Nat
  deriving DecidableEq

/-- Simulation result returned to the scheduler for candidate approval. -/
structure SchedulerSimulationResult where
  candidateId : CandidateId
  txHash : TxHash
  memberTxHashes : List TxHash
  blockNumber : UInt64
  generation : Nat
  approved : Bool
  deriving DecidableEq

/-- Candidate approved for handoff to the builder stage. -/
structure SchedulerBuilderHandoff where
  candidate : SchedulerCandidate
  blockNumber : UInt64
  deriving DecidableEq

/-- Outcome of applying one simulation result to scheduler state. -/
structure SchedulerSimulationApplyOutcome where
  builderHandoffs : List SchedulerBuilderHandoff
  staleResultDropTotal : Nat
  deriving DecidableEq

/-- Persisted sender queue entry used to rehydrate scheduler ordering. -/
structure PersistedSenderQueueEntry where
  nonce : UInt64
  hash : TxHash
  deriving DecidableEq

/-- Persisted sender queue for one address. -/
structure PersistedSenderQueueSnapshot where
  sender : Address
  queued : List PersistedSenderQueueEntry
  deriving DecidableEq

/-- Snapshot payload used to rehydrate scheduler state after restart. -/
structure PersistedSchedulerSnapshot where
  capturedAtUnixMs : Int64
  capturedAtMonoNs : UInt64
  /-- The event watermark, stamped by the caller; the scheduler leaves it `0`. -/
  eventSeqHi : UInt64
  pending : List ValidatedTransaction
  executableFrontier : List TxHash
  senderQueues : List PersistedSenderQueueSnapshot
  deriving DecidableEq

/-- Admission decision for one incoming transaction. -/
inductive SchedulerAdmission where
  | admitted
  | duplicate
  | replaced (replacedHash : TxHash)
  | underpricedReplacement
  | senderLimitReached
  deriving DecidableEq

/-- Ready/blocked state for a transaction inside a sender queue. -/
abbrev SchedulerQueueState := GapVerdict UInt64

/-- Queue state transition emitted while admitting or replacing a transaction. -/
structure SchedulerQueueTransition where
  hash : TxHash
  sender : Address
  nonce : UInt64
  state : SchedulerQueueState
  deriving DecidableEq

/-- Admission outcome including the decision and any queue transitions. -/
structure SchedulerAdmissionOutcome where
  admission : SchedulerAdmission
  queueTransitions : List SchedulerQueueTransition
  deriving DecidableEq

/-- Validation errors when reconstructing scheduler state from a persisted snapshot. -/
inductive SchedulerSnapshotError where
  | duplicatePendingHash (hash : TxHash)
  | missingPendingTransaction (hash : TxHash)
  | duplicateSenderNonce (sender : Address) (nonce : UInt64)
  | queueEntryMismatch (hash : TxHash)
  | executableFrontierMismatch
  deriving DecidableEq

/-- A registered candidate with the head block and the generation it was registered at. -/
structure CandidateEntry where
  candidate : SchedulerCandidate
  blockNumber : UInt64
  generation : Nat
  deriving DecidableEq

/-- How many of a sender's queued transactions are ready and how many wait for a nonce. -/
structure SenderQueueCounts where
  ready : Nat := 0
  blocked : Nat := 0
  deriving DecidableEq

/-- One queued transaction with the state the walk of its sender's queue gives it. -/
structure SenderQueuePosition where
  hash : TxHash
  nonce : UInt64
  state : SchedulerQueueState
  deriving DecidableEq

/-- One sender's queue: the hash waiting at each nonce. -/
abbrev SenderQueue := ExtTreeMap UInt64 TxHash

/-- The state behind the scheduler's lock: the pending transactions, the sender queues and their
counts, the candidates, the counters and the head block. -/
structure SchedulerState where
  pending : ExtTreeMap TxHash ValidatedTransaction := ∅
  senderQueues : ExtTreeMap Address SenderQueue := ∅
  senderQueueCounts : ExtTreeMap Address SenderQueueCounts := ∅
  candidates : ExtTreeMap CandidateId CandidateEntry := ∅
  headBlockNumber : UInt64 := 0
  admittedTotal : Nat := 0
  duplicateTotal : Nat := 0
  replacementTotal : Nat := 0
  underpricedReplacementTotal : Nat := 0
  senderLimitDropTotal : Nat := 0
  staleSimulationDropTotal : Nat := 0
  readyTotal : Nat := 0
  blockedTotal : Nat := 0

/-- `validate_config`. -/
def SchedulerConfig.validate (config : SchedulerConfig) :
    Except SchedulerConfigError SchedulerConfig :=
  if config.handoffQueueCapacity = 0 then .error .handoffQueueCapacityZero
  else if config.maxPendingPerSender = 0 then .error .maxPendingPerSenderZero
  else .ok config

/-! ## Queue classification -/

/-- Advances the nonce-gap state machine for one queue entry. -/
def queueEntryState (cursor : GapCursor UInt64) (nonce : UInt64) :
    SchedulerQueueState × GapCursor UInt64 :=
  cursor.visit checkedSucc nonce

namespace SchedulerState

/-- The traversal every queue function of the source repeats: entries whose hash is not pending
are skipped without moving the cursor. -/
def walkQueue (state : SchedulerState) (queue : SenderQueue) : List SenderQueuePosition :=
  let entries := queue.toList.filter fun entry => state.pending.contains entry.2
  (GapCursor.scan checkedSucc {} entries).map fun visited =>
    { hash := visited.1.2, nonce := visited.1.1, state := visited.2 }

/-- The positions of a sender's queue, none for a sender without one. -/
def senderQueuePositions (state : SchedulerState) (sender : Address) : List SenderQueuePosition :=
  match state.senderQueues[sender]? with
  | none => []
  | some queue => state.walkQueue queue

/-- The ready and blocked counts of one queue, read off its walk. -/
def classifySenderQueueCounts (state : SchedulerState) (queue : SenderQueue) : SenderQueueCounts :=
  (state.walkQueue queue).foldl
    (fun counts position =>
      match position.state with
      | .ready => { counts with ready := saturatingAdd usizeMax counts.ready 1 }
      | .blocked _ => { counts with blocked := saturatingAdd usizeMax counts.blocked 1 })
    {}

/-- The ready transactions of `classify_by_sender`. -/
def classifyReady (state : SchedulerState) : List ValidatedTransaction :=
  (state.senderQueues.toList.map Prod.snd).flatMap fun queue =>
    ((state.walkQueue queue).filter (·.state = .ready)).filterMap (state.pending[·.hash]?)

/-- The blocked transactions of `classify_by_sender`. -/
def classifyBlocked (state : SchedulerState) : List ValidatedTransaction :=
  (state.senderQueues.toList.map Prod.snd).flatMap fun queue =>
    ((state.walkQueue queue).filter (·.state ≠ .ready)).filterMap (state.pending[·.hash]?)

/-- The pending transactions among the given hashes, in the order of the hashes. -/
def pendingTransactions (state : SchedulerState) (hashes : List TxHash) :
    List ValidatedTransaction :=
  hashes.filterMap (state.pending[·]?)

/-- The hashes of every ready position, sender by sender. -/
def executableFrontierHashes (state : SchedulerState) : List TxHash :=
  (state.senderQueues.toList.map Prod.snd).flatMap fun queue =>
    ((state.walkQueue queue).filter (·.state = .ready)).map (·.hash)

/-- Recounts one sender and moves the two totals by the difference. -/
def refreshSenderCounts (state : SchedulerState) (sender : Address) : SchedulerState :=
  let previous := (state.senderQueueCounts[sender]?).getD {}
  let counts := state.senderQueueCounts.erase sender
  let readyTotal := state.readyTotal - previous.ready
  let blockedTotal := state.blockedTotal - previous.blocked
  let next := ((state.senderQueues[sender]?).map state.classifySenderQueueCounts).getD {}
  { state with
    senderQueueCounts :=
      if next.ready ≠ 0 ∨ next.blocked ≠ 0 then counts.insert sender next else counts
    readyTotal := saturatingAdd usizeMax readyTotal next.ready
    blockedTotal := saturatingAdd usizeMax blockedTotal next.blocked }

/-- Recounts every sender from empty counts, as a restored state does. -/
def recomputeQueueCounts (state : SchedulerState) : SchedulerState :=
  state.senderQueues.keys.foldl refreshSenderCounts
    { state with senderQueueCounts := ∅, readyTotal := 0, blockedTotal := 0 }

/-- The positions whose state differs from the one they had before the admission. -/
def queueTransitions (state : SchedulerState) (sender : Address)
    (previousPositions : List SenderQueuePosition) : List SchedulerQueueTransition :=
  let previousByHash : ExtTreeMap TxHash SchedulerQueueState :=
    ExtTreeMap.ofList (previousPositions.map fun position => (position.hash, position.state))
  (state.senderQueuePositions sender).filterMap fun position =>
    if previousByHash[position.hash]? = some position.state then none
    else some
      { hash := position.hash, sender := sender, nonce := position.nonce, state := position.state }

end SchedulerState

/-! ## Admission -/

/-- The fee a replacement is judged by: the gas price of a legacy transaction, else the fee cap.
-/
def replacementFee (txType : UInt8) (gasPriceWei maxFeePerGasWei : Option U128) : Nat :=
  match txType with
  | 0 | 1 => (gasPriceWei.map BitVec.toNat).getD 0
  | _ => ((maxFeePerGasWei.or gasPriceWei).map BitVec.toNat).getD 0

/-- The fee a transaction offers for its slot. -/
def ValidatedTransaction.replacementFee (tx : ValidatedTransaction) : Nat :=
  Scheduler.replacementFee tx.decoded.txType tx.decoded.gasPriceWei tx.decoded.maxFeePerGasWei

/-- `saturating_mul` by the bump, then `div_ceil` by `10_000`. -/
def replacementThresholdFee (incumbent : ValidatedTransaction) (feeBumpBps : UInt16) : Nat :=
  (saturatingMul u128Max incumbent.replacementFee
    (saturatingAdd u128Max 10000 feeBumpBps.toNat) + 9999) / 10000

namespace SchedulerState

/-- `self.sender_queues.entry(sender).or_default().insert(nonce, hash)`. -/
def insertQueueEntry (queues : ExtTreeMap Address SenderQueue) (sender : Address) (nonce : UInt64)
    (hash : TxHash) : ExtTreeMap Address SenderQueue :=
  queues.insert sender (((queues[sender]?).getD ∅).insert nonce hash)

/-- The hash waiting at a sender's nonce. -/
def slotOf (queues : ExtTreeMap Address SenderQueue) (sender : Address) (nonce : UInt64) :
    Option TxHash :=
  (queues[sender]?).bind (·[nonce]?)

/-- `self.sender_queues.get(&sender).and_then(|queue| queue.get(&nonce))`. -/
def slot (state : SchedulerState) (sender : Address) (nonce : UInt64) : Option TxHash :=
  slotOf state.senderQueues sender nonce

/-- The transaction takes its slot, joins the pending map it is given, and is counted. -/
def place (state : SchedulerState) (pending : ExtTreeMap TxHash ValidatedTransaction)
    (tx : ValidatedTransaction) : SchedulerState :=
  { state with
    senderQueues := insertQueueEntry state.senderQueues tx.decoded.sender tx.decoded.nonce tx.hash
    pending := pending.insert tx.hash tx
    admittedTotal := saturatingAdd u64Max state.admittedTotal 1 }

/-- How every admitting branch ends: the transaction is placed and its sender refreshed. -/
def seat (state : SchedulerState) (pending : ExtTreeMap TxHash ValidatedTransaction)
    (tx : ValidatedTransaction) : SchedulerState :=
  refreshSenderCounts (state.place pending tx) tx.decoded.sender

/-- Admission of one transaction, with the three counters and the queue counts kept in step. -/
def admitTx (state : SchedulerState) (tx : ValidatedTransaction) (config : SchedulerConfig) :
    SchedulerAdmissionOutcome × SchedulerState :=
  if state.pending.contains tx.hash then
    ({ admission := .duplicate, queueTransitions := [] },
      { state with duplicateTotal := saturatingAdd u64Max state.duplicateTotal 1 })
  else
    let sender := tx.decoded.sender
    let previousPositions := state.senderQueuePositions sender
    match state.slot sender tx.decoded.nonce with
    | some incumbentHash =>
      match state.pending[incumbentHash]? with
      | none =>
        -- The slot names a transaction that is not pending; the source guards against it.
        let next := state.seat state.pending tx
        ({ admission := .admitted
           queueTransitions := next.queueTransitions sender previousPositions }, next)
      | some incumbent =>
        if replacementThresholdFee incumbent config.replacementFeeBumpBps ≤ tx.replacementFee then
          let counted :=
            { state with replacementTotal := saturatingAdd u64Max state.replacementTotal 1 }
          let next := counted.seat (state.pending.erase incumbentHash) tx
          ({ admission := .replaced incumbentHash
             queueTransitions := next.queueTransitions sender previousPositions }, next)
        else
          ({ admission := .underpricedReplacement, queueTransitions := [] },
            { state with
              underpricedReplacementTotal :=
                saturatingAdd u64Max state.underpricedReplacementTotal 1 })
    | none =>
      let senderQueueLen := ((state.senderQueues[sender]?).map (·.size)).getD 0
      if config.maxPendingPerSender ≤ senderQueueLen then
        ({ admission := .senderLimitReached, queueTransitions := [] },
          { state with
            senderLimitDropTotal := saturatingAdd u64Max state.senderLimitDropTotal 1 })
      else
        let next := state.seat state.pending tx
        ({ admission := .admitted
           queueTransitions := next.queueTransitions sender previousPositions }, next)

end SchedulerState

/-! ## Candidates and simulation results -/

/-- A task without members is a task for its own transaction. -/
def normalizedMemberHashes (txHash : TxHash) (members : List TxHash) : List TxHash :=
  if members.isEmpty then [txHash] else members

/-- Whether a registered candidate is tied to a transaction hash. -/
def CandidateEntry.mentions (entry : CandidateEntry) (hash : TxHash) : Bool :=
  entry.candidate.txHash = hash ∨
    hash ∈ normalizedMemberHashes entry.candidate.txHash entry.candidate.memberTxHashes

/-- `generation.saturating_add(1).max(1)`. -/
def nextGeneration (generation : Nat) : Nat := max (saturatingAdd u64Max generation 1) 1

namespace SchedulerState

/-- The body of the loop of `register_candidates`. -/
def registerCandidate (state : SchedulerState) (candidate : SchedulerCandidate) :
    SimulationTaskSpec × SchedulerState :=
  let generation :=
    ((state.candidates[candidate.candidateId]?).map fun entry => nextGeneration entry.generation).getD 1
  ({ candidateId := candidate.candidateId
     txHash := candidate.txHash
     memberTxHashes := normalizedMemberHashes candidate.txHash candidate.memberTxHashes
     blockNumber := state.headBlockNumber
     generation := generation },
    { state with
      candidates := state.candidates.insert candidate.candidateId
        { candidate := candidate, blockNumber := state.headBlockNumber, generation := generation } })

/-- Registers candidates in order and returns the simulation tasks to schedule. -/
def registerCandidates (state : SchedulerState) :
    List SchedulerCandidate → List SimulationTaskSpec × SchedulerState
  | [] => ([], state)
  | candidate :: rest =>
    let registered := state.registerCandidate candidate
    let remaining := registered.2.registerCandidates rest
    (registered.1 :: remaining.1, remaining.2)

/-- Counts a result that no longer belongs to what it was run for, and hands nothing off. -/
def recordStaleSimulationResult (state : SchedulerState) :
    SchedulerSimulationApplyOutcome × SchedulerState :=
  ({ builderHandoffs := [], staleResultDropTotal := 1 },
    { state with
      staleSimulationDropTotal := saturatingAdd u64Max state.staleSimulationDropTotal 1 })

/-- Hands an approved candidate off once, when the result matches its generation, block and
members. -/
def applySimulationResult (state : SchedulerState) (result : SchedulerSimulationResult) :
    SchedulerSimulationApplyOutcome × SchedulerState :=
  match state.candidates[result.candidateId]? with
  | none => state.recordStaleSimulationResult
  | some entry =>
    let expectedMembers :=
      normalizedMemberHashes entry.candidate.txHash entry.candidate.memberTxHashes
    let actualMembers := normalizedMemberHashes result.txHash result.memberTxHashes
    if entry.candidate.txHash ≠ result.txHash ∨ expectedMembers ≠ actualMembers ∨
        entry.blockNumber ≠ result.blockNumber ∨ entry.generation ≠ result.generation ∨
        result.blockNumber ≠ state.headBlockNumber then
      state.recordStaleSimulationResult
    else
      ({ builderHandoffs :=
           if result.approved then
             [{ candidate := entry.candidate, blockNumber := result.blockNumber }]
           else []
         staleResultDropTotal := 0 },
        { state with
          candidates := state.candidates.insert result.candidateId
            { entry with generation := nextGeneration entry.generation } })

/-- Stores the block number and nothing else. -/
def advanceHead (state : SchedulerState) (blockNumber : UInt64) : SchedulerState :=
  { state with headBlockNumber := blockNumber }

/-- Moves every candidate that mentions the hash to its next generation. -/
def invalidateCandidateHash (state : SchedulerState) (hash : TxHash) : SchedulerState :=
  { state with
    candidates := state.candidates.map fun _ entry =>
      if entry.mentions hash then
        { entry with generation := nextGeneration entry.generation }
      else entry }

end SchedulerState

/-! ## The persisted snapshot -/

namespace SchedulerState

/-- The sender queues as the snapshot lists them. -/
def persistedSenderQueueSnapshots (state : SchedulerState) : List PersistedSenderQueueSnapshot :=
  state.senderQueues.toList.map fun (sender, queue) =>
    { sender := sender
      queued := queue.toList.map fun (nonce, hash) => { nonce := nonce, hash := hash } }

/-- The snapshot of a state; the event watermark is left to the caller. -/
def persistedSnapshot (state : SchedulerState) (capturedAtUnixMs : Int64)
    (capturedAtMonoNs : UInt64) : PersistedSchedulerSnapshot where
  capturedAtUnixMs := capturedAtUnixMs
  capturedAtMonoNs := capturedAtMonoNs
  eventSeqHi := 0
  pending := state.pending.toList.map Prod.snd
  executableFrontier := state.executableFrontierHashes
  senderQueues := state.persistedSenderQueueSnapshots

end SchedulerState

/-- The loader's pending map; a hash that occurs twice is refused. -/
def collectPending (pending : ExtTreeMap TxHash ValidatedTransaction) :
    List ValidatedTransaction →
      Except SchedulerSnapshotError (ExtTreeMap TxHash ValidatedTransaction)
  | [] => .ok pending
  | tx :: rest =>
    if pending.contains tx.hash then .error (.duplicatePendingHash tx.hash)
    else collectPending (pending.insert tx.hash tx) rest

/-- Seats one hash at its nonce, or names the nonce that is taken. -/
def insertSenderQueueEntry (queues : ExtTreeMap Address SenderQueue) (sender : Address)
    (nonce : UInt64) (hash : TxHash) :
    Except SchedulerSnapshotError (ExtTreeMap Address SenderQueue) :=
  if ((queues[sender]?).getD ∅).contains nonce then .error (.duplicateSenderNonce sender nonce)
  else .ok (SchedulerState.insertQueueEntry queues sender nonce hash)

/-- The queues of a snapshot that lists none, seated from its pending transactions. -/
def buildSenderQueuesFromPending (pending : ExtTreeMap TxHash ValidatedTransaction) :
    Except SchedulerSnapshotError (ExtTreeMap Address SenderQueue) :=
  (pending.toList.map Prod.snd).foldlM
    (fun queues tx => insertSenderQueueEntry queues tx.decoded.sender tx.decoded.nonce tx.hash) ∅

/-- The checks `build_sender_queues_from_snapshot` makes of one entry, and its insertion. -/
def restoreQueueEntry (pending : ExtTreeMap TxHash ValidatedTransaction) (sender : Address)
    (queues : ExtTreeMap Address SenderQueue) (entry : PersistedSenderQueueEntry) :
    Except SchedulerSnapshotError (ExtTreeMap Address SenderQueue) :=
  match pending[entry.hash]? with
  | none => .error (.missingPendingTransaction entry.hash)
  | some tx =>
    if tx.decoded.sender ≠ sender ∨ tx.decoded.nonce ≠ entry.nonce then
      .error (.queueEntryMismatch entry.hash)
    else insertSenderQueueEntry queues sender entry.nonce entry.hash

/-- The queues a snapshot lists, entry by entry, each checked against the pending map. -/
def buildSenderQueuesFromSnapshot (persistedSenderQueues : List PersistedSenderQueueSnapshot)
    (pending : ExtTreeMap TxHash ValidatedTransaction) :
    Except SchedulerSnapshotError (ExtTreeMap Address SenderQueue) :=
  persistedSenderQueues.foldlM
    (fun queues persisted => persisted.queued.foldlM (restoreQueueEntry pending persisted.sender) queues)
    ∅

/-- Rebuilds a state from its snapshot, or says which check the snapshot fails. -/
def SchedulerState.fromPersistedSnapshot (snapshot : PersistedSchedulerSnapshot) :
    Except SchedulerSnapshotError SchedulerState := do
  let pending ← collectPending ∅ snapshot.pending
  let senderQueues ←
    if snapshot.senderQueues.isEmpty then buildSenderQueuesFromPending pending
    else buildSenderQueuesFromSnapshot snapshot.senderQueues pending
  let state := recomputeQueueCounts { pending := pending, senderQueues := senderQueues }
  let restoredFrontier := state.classifyReady.map ValidatedTransaction.hash
  if snapshot.executableFrontier ≠ [] ∧ restoredFrontier ≠ snapshot.executableFrontier then
    .error .executableFrontierMismatch
  else .ok state

/-- Errors that can occur when constructing a scheduler from config and snapshots. -/
inductive SchedulerInitError where
  | config (error : SchedulerConfigError)
  | snapshot (error : SchedulerSnapshotError)
  deriving DecidableEq

/-- Rehydrates scheduler state from a persisted snapshot plus replay transactions, which are
re-admitted through the normal path. The result is the state the new actor starts from. -/
def schedulerChannelWithRehydration (config : SchedulerConfig)
    (snapshot : Option PersistedSchedulerSnapshot)
    (replayTransactions : List ValidatedTransaction) : Except SchedulerInitError SchedulerState := do
  let config ← config.validate.mapError .config
  let state ← match snapshot with
    | some snapshot => (SchedulerState.fromPersistedSnapshot snapshot).mapError .snapshot
    | none => .ok {}
  return replayTransactions.foldl (fun state tx => (state.admitTx tx config).2) state

/-! ## Commands -/

/-- The commands the scheduler actor takes from its ingress queue. -/
inductive SchedulerCommand where
  | admitTx (tx : ValidatedTransaction)
  | registerCandidates (candidates : List SchedulerCandidate)
  | applySimulationResult (result : SchedulerSimulationResult)
  | invalidateCandidateHash (hash : TxHash)
  | advanceHead (blockNumber : UInt64)
  deriving DecidableEq

/-- What the actor replies to a command. -/
inductive SchedulerReply where
  | admission (outcome : SchedulerAdmissionOutcome)
  | dispatch (simulationTasks : List SimulationTaskSpec)
  | applied (outcome : SchedulerSimulationApplyOutcome)
  | done
  deriving DecidableEq

/-- One iteration of the actor loop of `SchedulerRuntime::run`. -/
def SchedulerState.execute (config : SchedulerConfig) (state : SchedulerState) :
    SchedulerCommand → SchedulerReply × SchedulerState
  | .admitTx tx => ((state.admitTx tx config).map .admission id)
  | .registerCandidates candidates => (state.registerCandidates candidates).map .dispatch id
  | .applySimulationResult result => (state.applySimulationResult result).map .applied id
  | .invalidateCandidateHash hash => (.done, state.invalidateCandidateHash hash)
  | .advanceHead blockNumber => (.done, state.advanceHead blockNumber)

/-- The state after a list of commands. -/
def SchedulerState.run (config : SchedulerConfig) (state : SchedulerState)
    (commands : List SchedulerCommand) : SchedulerState :=
  commands.foldl (fun state command => (state.execute config command).2) state

/-- The sample transaction of the crate's tests. -/
def sampleValidatedTx (hash : TxHash) (sender : Address) (nonce : UInt64)
    (maxFeePerGasWei : U128) : ValidatedTransaction where
  sourceId := "rpc-mainnet"
  observedAtUnixMs := 1700000000000
  observedAtMonoNs := 1
  calldata := []
  decoded :=
    { hash := hash, txType := 2, sender := sender, nonce := nonce, chainId := some 1
      toAddress := some 1, valueWei := some 42, gasLimit := some 21000, gasPriceWei := none
      maxFeePerGasWei := some maxFeePerGasWei, maxPriorityFeePerGasWei := some 3
      maxFeePerBlobGasWei := none, calldataLen := some 4 }

end Mempulse.Scheduler
