import Mempulse.LiveRpc.Sequential

/-!
# Admissions the scheduler refuses

When the ingress queue of the scheduler is full the pipeline goes on as if the transaction had been
dropped, and logs `TxDropped` for it. It does not know whether the scheduler holds the hash. A drop
of a hash that is not pending changes neither the pending set nor a slot of the replay model,
whatever the model knows of the hash. A drop of one that is pending takes it out of the model, and
the scheduler keeps it (`refusedAdmission_agrees_iff`).
-/

set_option autoImplicit false

namespace Mempulse.Replay.MempoolState

open EventLog Library Scheduler

section Unheld

variable {state : MempoolState} {hash : TxHash}

/-- Recomputing empties no slot of a sender whose slots all name pending transactions. -/
theorem slot_recompute_of_live {sender : Address}
    (live : ∀ {nonce : UInt64} {holder : TxHash}, state.slot sender nonce = some holder →
      state.lifecycle holder = some .pending) (other : Address) (nonce : UInt64) :
    (state.recomputeSenderQueueStates sender).slot other nonce = state.slot other nonce := by
  rw [slot_recompute]
  split
  case isTrue same =>
    subst same
    cases held : state.slot sender nonce with
    | none => rfl
    | some holder => rw [Option.filter_some, if_pos (decide_eq_true (live held))]
  case isFalse => rfl

/-- A hash that sits in no slot leaves every slot as it is. -/
theorem slot_retire_of_unheld
    (live : ∀ {sender : Address} {nonce : UInt64} {holder : TxHash},
      state.slot sender nonce = some holder → state.lifecycle holder = some .pending)
    (unheld : ∀ sender nonce, state.slot sender nonce ≠ some hash) (status : TxLifecycleStatus)
    (other : Address) (position : UInt64) :
    (state.retire hash status).slot other position = state.slot other position := by
  rw [retire_eq]
  unfold unqueue
  split
  case h_2 => rfl
  case h_1 sender nonce _ _ =>
    have stays : ∀ other position,
        ((state.restatus hash status).removeSenderQueueEntry hash sender nonce).slot other position =
          state.slot other position := by
      intro other position
      rw [slot_removeSenderQueueEntry, slot_restatus, slot_restatus, if_neg]
      rintro ⟨-, -, held⟩
      exact unheld sender nonce held
    rw [slot_recompute_of_live, stays]
    intro place holder held
    rw [stays] at held
    have differs : hash ≠ holder := by
      rintro rfl
      exact unheld sender place held
    rw [lifecycle_eq, profile_removeSenderQueueEntry, profile_restatus, if_neg differs,
      ← lifecycle_eq]
    exact live held

end Unheld

end Mempulse.Replay.MempoolState

namespace Mempulse.LiveRpc

open Std EventLog Library Scheduler Storage Replay

/-! ## A refused admission -/

/-- Serves an operation; the ingress queue of the scheduler is full when the transaction comes. -/
def serveRefused (config : SchedulerConfig) (state : LiveState) :
    (op : PipelineOp) → PipelineReply op × LiveState
  | .admitOutcome _ => (.error .queueFull, state)
  | op => serve config state op

/-- The replay model has exactly the scheduler's pending set and sender queues. -/
structure Agrees (model : MempoolState) (scheduler : SchedulerState) : Prop where
  pending : ∀ hash, hash ∈ model.pendingHashes ↔ ∃ tx, scheduler.pending[hash]? = some tx
  queues : model.senderQueues = scheduler.senderQueues

/-- What a call with a refused admission enqueues for the storage writer. -/
def refusedWrites (arrival : Arrival) (tx : LiveTx) (nextSeqId : UInt64) : List StorageWriteOp :=
  let append (payload : EventPayload) (seqId : UInt64) : StorageWriteOp :=
    .appendPayload arrival.chain.sourceId payload arrival.processedAtUnixMs
      (UInt64.ofNat (saturatingMul u64Max seqId.toNat 1000000))
  [.appendPayload arrival.chain.sourceId
      (.txSeen
        { hash := arrival.hash, peerId := "rpc-ws"
          seenAtUnixMs := arrival.observation.observedAtUnixMs
          seenAtMonoNs := arrival.observation.observedAtMonoNs })
      arrival.observation.observedAtUnixMs arrival.observation.observedAtMonoNs,
    .upsertTxSeen
      { hash := arrival.hash, peer := "rpc-ws"
        firstSeenUnixMs := arrival.observation.observedAtUnixMs
        firstSeenMonoNs := arrival.observation.observedAtMonoNs, seenCount := 1 },
    append (.txFetched { hash := arrival.hash, fetchedAtUnixMs := arrival.processedAtUnixMs })
      (nextSeqId + 1),
    .upsertTxFull (txFullRecord arrival.chain tx), .upsertTxFeatures (txFeaturesRecord arrival.chain tx),
    append (.txDropped { hash := tx.hash, reason := "queue_full" }) (nextSeqId + 1 + 1)]

section Refused

variable {config : SchedulerConfig} {start : LiveState} {arrival : Arrival} {tx : LiveTx}

/-- **How a refused admission goes.** The scheduler and the simulation queue are as they were. -/
theorem run_processPendingHashWithFetchedTx_refused (fetched : arrival.fetchedTx = some tx) :
    (processPendingHashWithFetchedTx arrival).run (serveRefused config) start =
      (.ok (),
        { start with
          nextSeqId := start.nextSeqId + 1 + 1 + 1
          storageQueue := start.storageQueue ++ refusedWrites arrival tx start.nextSeqId }) := by
  unfold processPendingHashWithFetchedTx
  rw [fetched]
  simp [Program.run, serveRefused, serve, appendObservation, tryEnqueueStorageWrite, appendEvent,
    persistTransaction, appendReplacement, SchedulerPersistenceDecision.replacedHash,
    SchedulerPersistenceDecision.emitsDecoded, SchedulerPersistenceDecision.isAdmitted,
    SchedulerPersistenceDecision.droppedReason, appendEvents, readyTransactionsForQueueTransitions,
    readyFrontierForQueueTransitions, readyHashes, exploreOpportunities,
    buildExecutableOpportunities, registerAndDispatch, prepareSimulationTasks, refusedWrites]

theorem loggedPayloads_refused (state : LiveState) (seqId : UInt64) :
    ({ state with
      storageQueue := state.storageQueue ++ refusedWrites arrival tx start.nextSeqId
      nextSeqId := seqId } : LiveState).loggedPayloads =
      state.loggedPayloads ++
        [.txSeen
            { hash := arrival.hash, peerId := "rpc-ws"
              seenAtUnixMs := arrival.observation.observedAtUnixMs
              seenAtMonoNs := arrival.observation.observedAtMonoNs },
          .txFetched { hash := arrival.hash, fetchedAtUnixMs := arrival.processedAtUnixMs },
          .txDropped { hash := tx.hash, reason := "queue_full" }] := by
  rw [LiveState.loggedPayloads, LiveState.loggedPayloads, map_payload_drain, map_payload_drain,
    List.filterMap_append]
  rfl

/-- A drop of a hash that the scheduler does not hold keeps the agreement. -/
theorem Agrees.retire {model : MempoolState} {scheduler : SchedulerState} {hash : TxHash}
    (agrees : Agrees model scheduler) (seating : Seating scheduler)
    (absent : scheduler.pending[hash]? = none) {status : TxLifecycleStatus}
    (ended : status ≠ .pending) : Agrees (model.retire hash status) scheduler := by
  have slots : ∀ {sender : Address} {nonce : UInt64} {holder : TxHash},
      model.slot sender nonce = some holder → ∃ held, scheduler.pending[holder]? = some held := by
    intro sender nonce holder held
    rw [MempoolState.slot, agrees.queues] at held
    obtain ⟨tx, stored, -⟩ := seating.occupied held
    exact ⟨tx, stored⟩
  have full : SchedulerState.NoEmptyQueue model.senderQueues := by
    rw [agrees.queues]
    exact fun sender queue queued => seating.nonempty queued
  refine ⟨fun other => ?_, ?_⟩
  · rw [MempoolState.mem_pendingHashes, MempoolState.lifecycle_eq, MempoolState.profile_retire]
    split
    case isTrue same =>
      subst same
      simp [ended, absent]
    case isFalse =>
      rw [← MempoolState.lifecycle_eq, ← MempoolState.mem_pendingHashes]
      exact agrees.pending other
  · rw [← agrees.queues]
    refine SchedulerState.queues_ext (MempoolState.noEmptyQueue_retire hash status full) full
      fun sender nonce => MempoolState.slot_retire_of_unheld ?_ ?_ status sender nonce
    · intro sender nonce holder held
      rw [← MempoolState.mem_pendingHashes, agrees.pending]
      exact slots held
    · intro sender nonce held
      obtain ⟨tx, stored⟩ := slots held
      rw [absent] at stored
      cases stored

end Refused

/-- **A refused admission is harmless exactly when the scheduler does not hold the hash.** From
every reachable scheduler state and every log that replays to it, the log of the finished call
replays to the scheduler's pending set and sender queues if and only if the fetched transaction is
not pending. -/
theorem refusedAdmission_agrees_iff (config : SchedulerConfig) (commands : List SchedulerCommand)
    (start : LiveState) (reached : start.scheduler = SchedulerState.run config {} commands)
    (agrees : Agrees (MempoolState.replay {} start.loggedPayloads) start.scheduler)
    (arrival : Arrival) (tx : LiveTx) (fetched : arrival.fetchedTx = some tx) :
    let final := (processPendingHashWithFetchedTx arrival).run (serveRefused config) start
    final.1 = .ok () ∧
      (Agrees (MempoolState.replay {} final.2.loggedPayloads) final.2.scheduler ↔
        start.scheduler.pending[tx.hash]? = none) := by
  have seating := (RepresentationInvariant.reached config commands).seating
  rw [← reached] at seating
  intro final
  have ends : final = _ := run_processPendingHashWithFetchedTx_refused fetched
  rw [ends]
  refine ⟨rfl, ?_⟩
  have replayed : MempoolState.replay {} final.2.loggedPayloads =
      (MempoolState.replay {} start.loggedPayloads).retire tx.hash (.dropped "queue_full") := by
    rw [ends, loggedPayloads_refused, MempoolState.replay_append]
    rfl
  rw [ends] at replayed
  rw [replayed]
  constructor
  · intro still
    cases held : start.scheduler.pending[tx.hash]? with
    | none => rfl
    | some other =>
        have pending := (still.pending tx.hash).mpr ⟨other, held⟩
        rw [MempoolState.mem_pendingHashes, MempoolState.lifecycle_eq, MempoolState.profile_retire,
          if_pos rfl] at pending
        cases pending
  · exact fun absent => agrees.retire seating absent (by simp)

/-- Transaction 10 as the scheduler gets it. -/
def transactionTen : ValidatedTransaction :=
  validatedTransactionFromLiveTx (sampleArrival (sampleLiveTx 10 1 0 100)).chain
    (sampleArrival (sampleLiveTx 10 1 0 100)).observation (sampleLiveTx 10 1 0 100)

/-- Transaction 10 is pending, and its admission is logged. -/
def tenPending : LiveState where
  scheduler := SchedulerState.run {} {} [.admitTx transactionTen]
  nextSeqId := 0
  storageQueue := (admissionEvents transactionTen
    (({} : SchedulerState).admitTx transactionTen {}).1).map fun payload =>
      .appendPayload "rpc-mainnet" payload 0 0

theorem tenPending_agrees :
    Agrees (MempoolState.replay {} tenPending.loggedPayloads) tenPending.scheduler := by
  have mirrors := Mirrors.empty.admission (RepresentationInvariant.empty {}) transactionTen
  have seating := ((RepresentationInvariant.empty {}).admitTx transactionTen).seating
  exact ⟨mirrors.mem_pendingHashes, senderQueues_eq mirrors.follows mirrors.occupies seating⟩

/-- Transaction 11 of the sender is observed while transaction 10 is pending, and its admission is
refused: the log still agrees with the scheduler. -/
theorem elevenRefused_agrees :
    Agrees
      (MempoolState.replay {} ((processPendingHashWithFetchedTx
        (sampleArrival (sampleLiveTx 11 1 1 100))).run (serveRefused {}) tenPending).2.loggedPayloads)
      ((processPendingHashWithFetchedTx
        (sampleArrival (sampleLiveTx 11 1 1 100))).run (serveRefused {}) tenPending).2.scheduler :=
  (refusedAdmission_agrees_iff {} [.admitTx transactionTen] tenPending rfl tenPending_agrees
    (sampleArrival (sampleLiveTx 11 1 1 100)) (sampleLiveTx 11 1 1 100) rfl).2.mpr (by decide +kernel)

/-- Transaction 10 is observed again while it is pending, and its admission is refused: the log
then says that it was dropped, and the scheduler still holds it. -/
theorem tenRefused_not_agrees :
    tenPending.scheduler = SchedulerState.run {} {} [.admitTx transactionTen] ∧
      Agrees (MempoolState.replay {} tenPending.loggedPayloads) tenPending.scheduler ∧
      ¬ Agrees
        (MempoolState.replay {} ((processPendingHashWithFetchedTx
          (sampleArrival (sampleLiveTx 10 1 0 100))).run (serveRefused {})
            tenPending).2.loggedPayloads)
        ((processPendingHashWithFetchedTx
          (sampleArrival (sampleLiveTx 10 1 0 100))).run (serveRefused {})
            tenPending).2.scheduler := by
  refine ⟨rfl, tenPending_agrees, fun agrees => ?_⟩
  have held := (agrees.pending 10).mpr ⟨transactionTen, by decide +kernel⟩
  revert held
  decide +kernel

end Mempulse.LiveRpc
