import Mempulse.LiveRpc.AdmissionEvents

/-!
# A sequential run of the live pipeline

One worker, no queue ever full or closed. The operations act on the scheduler, on the queue of
the storage writer and on the simulation queue. The pipeline keeps a protocol: after an admission
it logs the lifecycle events of that admission, all of them and in order, before it admits the
next transaction. So after every transaction the replay of the log is the scheduler's own state.
-/

set_option autoImplicit false

namespace Mempulse.LiveRpc

open Std EventLog Library Scheduler Storage Replay Searcher

/-! ## Serving the operations -/

/-- What the workers share. -/
structure LiveState where
  scheduler : SchedulerState := {}
  nextSeqId : UInt64
  /-- Everything enqueued for the storage writer so far. -/
  storageQueue : List StorageWriteOp := []
  /-- Everything enqueued for the simulation workers so far. -/
  simulationQueue : List SimulationTask := []

/-- Serves an operation; no queue is full or closed. -/
def serve (config : SchedulerConfig) (state : LiveState) :
    (op : PipelineOp) → PipelineReply op × LiveState
  | .admitOutcome tx =>
    let admitted := state.scheduler.admitTx tx config
    (.ok admitted.1, { state with scheduler := admitted.2 })
  | .tryEnqueue op => (.ok (), { state with storageQueue := state.storageQueue ++ [op] })
  | .fetchAddSeqId => (state.nextSeqId, { state with nextSeqId := state.nextSeqId + 1 })
  | .observeDropReason _ => ((), state)
  | .invalidateCandidateHash hash =>
    (.ok (), { state with scheduler := state.scheduler.invalidateCandidateHash hash })
  | .getPendingTransactions hashes => (state.scheduler.pendingTransactions hashes, state)
  | .snapshotReady => (state.scheduler.classifyReady, state)
  | .observeSearcherBatch _ => ((), state)
  | .registerCandidates candidates =>
    let registered := state.scheduler.registerCandidates candidates
    (.ok registered.1, { state with scheduler := registered.2 })
  | .enqueueSimulationTask task =>
    (.ok true, { state with simulationQueue := state.simulationQueue ++ [task] })

/-- The payloads of the log once the writer has drained its queue, in sequence order. -/
def LiveState.loggedPayloads (state : LiveState) : List EventPayload :=
  (drain {} state.storageQueue).map (·.payload)

/-! ## The protocol of the pipeline -/

/-- The lifecycle event an operation logs. -/
def loggedLifecycle (op : StorageWriteOp) : Option EventPayload :=
  (op.envelope.map (·.payload)).filter isLifecycle

/-- The phase of a worker: the lifecycle events it has still to log. An admission needs an empty
phase, and a lifecycle event is logged when it is the first of the phase. -/
def admissionProtocol : Protocol PipelineOp PipelineReply (List EventPayload) where
  permits outstanding
    | .admitOutcome _ => outstanding = []
    | .tryEnqueue op => ∀ payload, loggedLifecycle op = some payload → outstanding.head? = some payload
    | _ => True
  promises _
    | .admitOutcome _, reply => reply.isOk = true
    | .tryEnqueue _, reply => reply.isOk = true
    | .invalidateCandidateHash _, reply => reply.isOk = true
    | .registerCandidates _, reply => reply.isOk = true
    | .enqueueSimulationTask _, reply => reply.isOk = true
    | _, _ => True
  advance outstanding
    | .admitOutcome tx, .ok outcome => admissionEvents tx outcome
    | .tryEnqueue op, _ => if (loggedLifecycle op).isSome then outstanding.tail else outstanding
    | _, _ => outstanding

/-- The promises are those of queues that are never full or closed. -/
theorem serve_promises (config : SchedulerConfig) (state : LiveState)
    (outstanding : List EventPayload) (op : PipelineOp) :
    admissionProtocol.promises outstanding op (serve config state op).1 := by
  cases op <;> first | rfl | trivial

/-- A worker's call conforms when it logs the outstanding events before it ends. -/
abbrev Settles (outstanding : List EventPayload) (pipeline : Pipeline) : Prop :=
  pipeline.Conforms admissionProtocol (· = []) outstanding

section Settles

variable {outstanding : List EventPayload} {next : Pipeline}

theorem settles_done (value : Except String Unit) : Settles [] (.done value) :=
  .done value rfl

theorem settles_tryEnqueueStorageWrite_silent {op : StorageWriteOp}
    (silent : loggedLifecycle op = none) (settles : Settles outstanding next) :
    Settles outstanding (tryEnqueueStorageWrite op next) := by
  refine .call ?_ fun reply promised => ?_
  · intro payload logged
    rw [silent] at logged
    cases logged
  · cases reply with
    | error _ => cases promised
    | ok _ =>
        dsimp only [admissionProtocol]
        rw [silent]
        exact settles

theorem settles_tryEnqueueStorageWrite {op : StorageWriteOp} {payload : EventPayload}
    (logs : loggedLifecycle op = some payload) (settles : Settles outstanding next) :
    Settles (payload :: outstanding) (tryEnqueueStorageWrite op next) := by
  refine .call ?_ fun reply promised => ?_
  · intro other logged
    rw [logs] at logged
    cases logged
    rfl
  · cases reply with
    | error _ => cases promised
    | ok _ =>
        dsimp only [admissionProtocol]
        rw [logs]
        exact settles

variable {chain : ChainRpcConfig} {nowUnixMs : Int64}

theorem settles_appendEvent_silent {payload : EventPayload} (silent : isLifecycle payload = false)
    (settles : Settles outstanding next) :
    Settles outstanding (appendEvent chain nowUnixMs payload next) := by
  refine .call trivial fun seqId _ => settles_tryEnqueueStorageWrite_silent ?_ settles
  simp [loggedLifecycle, StorageWriteOp.envelope, silent]

theorem settles_appendEvent {payload : EventPayload} (reads : isLifecycle payload = true)
    (settles : Settles outstanding next) :
    Settles (payload :: outstanding) (appendEvent chain nowUnixMs payload next) := by
  refine .call trivial fun seqId _ => settles_tryEnqueueStorageWrite ?_ settles
  simp [loggedLifecycle, StorageWriteOp.envelope, reads]

theorem settles_appendEvents_silent {payloads : List EventPayload}
    (silent : ∀ payload ∈ payloads, isLifecycle payload = false)
    (settles : Settles outstanding next) :
    Settles outstanding (appendEvents chain nowUnixMs payloads next) := by
  induction payloads with
  | nil => exact settles
  | cons payload rest ih =>
      obtain ⟨first, others⟩ := List.forall_mem_cons.mp silent
      exact settles_appendEvent_silent first (ih others)

theorem settles_appendEvents {payloads : List EventPayload}
    (reads : ∀ payload ∈ payloads, isLifecycle payload = true)
    (settles : Settles outstanding next) :
    Settles (payloads ++ outstanding) (appendEvents chain nowUnixMs payloads next) := by
  induction payloads with
  | nil => exact settles
  | cons payload rest ih =>
      obtain ⟨first, others⟩ := List.forall_mem_cons.mp reads
      exact settles_appendEvent first (ih others)

theorem settles_queueCandidates {onward : GroupedTasks → Pipeline}
    (settles : ∀ grouped, Settles outstanding (onward grouped))
    (queued : List (SimulationTaskSpec × PreparedSimulationTask)) (grouped : GroupedTasks) :
    Settles outstanding (queueCandidates chain nowUnixMs onward grouped queued) := by
  induction queued generalizing grouped with
  | nil => exact settles grouped
  | cons first rest ih => exact settles_appendEvent_silent rfl (ih _)

theorem settles_dispatchTasks
    (tasks : List (RemoteSimulationRequest × List RegisteredSimulationCandidate)) :
    Settles [] (dispatchTasks chain nowUnixMs tasks) := by
  induction tasks with
  | nil => exact settles_done _
  | cons first rest ih =>
      refine .call trivial fun reply promised => ?_
      match reply with
      | .error _ => cases promised
      | .ok false => exact ih
      | .ok true =>
          refine settles_appendEvents_silent (fun payload member => ?_) ih
          obtain ⟨candidate, -, rfl⟩ := List.mem_map.mp member
          rfl

theorem settles_registerAndDispatch (prepared : List PreparedSimulationTask) :
    Settles [] (registerAndDispatch chain nowUnixMs prepared) := by
  unfold registerAndDispatch
  split
  · exact settles_done _
  · refine .call trivial fun reply promised => ?_
    match reply with
    | .error _ => cases promised
    | .ok simulationTasks =>
        exact settles_queueCandidates (fun grouped => settles_dispatchTasks _) _ _

variable {arrival : Arrival}

theorem settles_appendObservation (settles : Settles outstanding next) :
    Settles outstanding (appendObservation arrival next) := by
  refine .call trivial fun seqId _ => ?_
  refine settles_tryEnqueueStorageWrite_silent rfl ?_
  refine settles_tryEnqueueStorageWrite_silent rfl ?_
  exact settles_appendEvent_silent rfl settles

theorem settles_appendReplacement (txHash : TxHash) (replacedHash : Option TxHash)
    (settles : Settles outstanding next) :
    Settles
      ((replacedHash.toList.map fun replacedHash =>
        EventPayload.txReplaced { hash := replacedHash, replacedBy := txHash }) ++ outstanding)
      (appendReplacement arrival txHash replacedHash next) := by
  cases replacedHash with
  | none => exact settles
  | some replacedHash =>
      refine settles_appendEvent rfl (.call trivial fun reply promised => ?_)
      match reply with
      | .error _ => cases promised
      | .ok () => exact settles

theorem settles_readyTransactions (queueTransitions : List SchedulerQueueTransition)
    {onward : List ValidatedTransaction → Pipeline}
    (settles : ∀ executable, Settles outstanding (onward executable)) :
    Settles outstanding (readyTransactionsForQueueTransitions queueTransitions onward) := by
  dsimp only [readyTransactionsForQueueTransitions]
  split
  · exact settles []
  · exact .call trivial fun reply _ => settles reply

theorem settles_readyFrontier (queueTransitions : List SchedulerQueueTransition)
    {onward : List ValidatedTransaction → Pipeline}
    (settles : ∀ executable, Settles outstanding (onward executable)) :
    Settles outstanding (readyFrontierForQueueTransitions queueTransitions onward) := by
  dsimp only [readyFrontierForQueueTransitions]
  split
  · exact .call trivial fun reply _ => settles reply
  · exact settles []

theorem settles_exploreOpportunities (chainId : Option UInt64)
    (executable simulationContext : List ValidatedTransaction) :
    Settles [] (exploreOpportunities arrival chainId executable simulationContext) := by
  have announced : ∀ records : List OpportunityRecord, ∀ prepared,
      Settles [] (appendEvents arrival.chain arrival.processedAtUnixMs
        (records.map buildOpportunityDetectedPayload)
        (registerAndDispatch arrival.chain arrival.processedAtUnixMs prepared)) := by
    intro records prepared
    refine settles_appendEvents_silent (fun payload member => ?_) (settles_registerAndDispatch _)
    obtain ⟨record, -, rfl⟩ := List.mem_map.mp member
    rfl
  dsimp only [exploreOpportunities]
  split
  · exact announced _ _
  · exact .call trivial fun _ _ => announced _ _

/-- The persistence of a transaction logs the lifecycle events of the decision. -/
theorem settles_persistTransaction (tx : LiveTx) (decision : SchedulerPersistenceDecision)
    (queueTransitions : List SchedulerQueueTransition) :
    Settles
      (decisionEvents (validatedTransactionFromLiveTx arrival.chain arrival.observation tx).decoded
        decision queueTransitions)
      (persistTransaction arrival tx decision queueTransitions) := by
  refine settles_tryEnqueueStorageWrite_silent rfl ?_
  refine settles_tryEnqueueStorageWrite_silent rfl ?_
  refine settles_appendReplacement tx.hash _ ?_
  refine settles_appendEvents ?_ ?_
  · intro payload member
    split at member
    case isTrue => rw [List.mem_singleton.mp member]; rfl
    case isFalse => cases member
  refine settles_appendEvents ?_ ?_
  · intro payload member
    obtain ⟨reason, -, rfl⟩ := List.mem_map.mp member
    rfl
  refine settles_readyTransactions queueTransitions fun executable => ?_
  refine settles_readyFrontier queueTransitions fun simulationContext => ?_
  have transitions : Settles (queueTransitions.map queueTransitionPayload ++ [])
      (appendEvents arrival.chain arrival.processedAtUnixMs
        (queueTransitions.map queueTransitionPayload)
        (exploreOpportunities arrival (resolveRecordChainId arrival.chain.chainId tx.chainId)
          executable simulationContext)) := by
    refine settles_appendEvents (fun payload member => ?_) (settles_exploreOpportunities _ _ _)
    obtain ⟨transition, -, rfl⟩ := List.mem_map.mp member
    exact isLifecycle_queueTransitionPayload transition
  rw [List.append_nil] at transitions
  exact transitions

/-- **Every call keeps the protocol.** -/
theorem settles_processPendingHashWithFetchedTx (arrival : Arrival) :
    Settles [] (processPendingHashWithFetchedTx arrival) := by
  unfold processPendingHashWithFetchedTx
  split
  · exact settles_appendObservation (settles_done _)
  · refine .call rfl fun reply promised => ?_
    match reply with
    | .error _ => cases promised
    | .ok outcome => exact settles_appendObservation (settles_persistTransaction _ _ _)

theorem settles_processArrivals (arrivals : List Arrival) :
    Settles [] (processArrivals arrivals) := by
  induction arrivals with
  | nil => exact settles_done _
  | cons arrival rest ih =>
      refine (settles_processPendingHashWithFetchedTx arrival).bind ?_
      rintro value _ rfl
      match value with
      | .ok () => exact ih
      | .error error => exact settles_done _

end Settles

/-! ## What the log replays to -/

/-- The replayed state is the scheduler's: the same pending set, the same slots, and the same
queue state for each transaction. -/
structure Replays (model : MempoolState) (scheduler : SchedulerState) : Prop where
  pending : ∀ hash, hash ∈ model.pendingHashes ↔ ∃ tx, scheduler.pending[hash]? = some tx
  queues : model.senderQueues = scheduler.senderQueues
  entries : ∀ (hash : TxHash) (tx : ValidatedTransaction), scheduler.pending[hash]? = some tx →
    model.profile hash = some ⟨some tx.decoded.sender, some tx.decoded.nonce, .pending⟩ ∧
      model.slot tx.decoded.sender tx.decoded.nonce = some hash ∧
      ∃ position ∈ scheduler.senderQueuePositions tx.decoded.sender,
        position.hash = hash ∧ position.nonce = tx.decoded.nonce ∧
          model.queueState hash = some position.state
  report : model.senderQueuesReport = scheduler.senderQueues.toList.map fun entry =>
    { sender := entry.1
      queued := (scheduler.senderQueuePositions entry.1).map fun position =>
        { hash := position.hash, nonce := position.nonce, state := position.state } }

section Replays

variable {model : MempoolState} {log : List (Touch TxHash (Address × UInt64))}
  {state : SchedulerState}

theorem senderQueuePositions_eq (seating : Seating state) {sender : Address} {queue : SenderQueue}
    (queued : state.senderQueues[sender]? = some queue) :
    state.senderQueuePositions sender = queuePositions queue := by
  rw [SchedulerState.senderQueuePositions, queued]
  exact seating.walkQueue_eq queued

theorem Mirrors.mem_pendingHashes (mirrors : Mirrors model log state) (hash : TxHash) :
    hash ∈ model.pendingHashes ↔ ∃ tx, state.pending[hash]? = some tx := by
  rw [MempoolState.mem_pendingHashes, mirrors.follows.pending, mirrors.occupies.places,
    Option.isSome_map, Option.isSome_iff_exists]

/-- The report of a model that mirrors the scheduler lists the scheduler's own verdicts. -/
theorem Mirrors.senderQueuesReport (mirrors : Mirrors model log state) (seating : Seating state) :
    model.senderQueuesReport = state.senderQueues.toList.map fun entry =>
      { sender := entry.1
        queued := (state.senderQueuePositions entry.1).map fun position =>
          { hash := position.hash, nonce := position.nonce, state := position.state } } := by
  have queues := senderQueues_eq mirrors.follows mirrors.occupies seating
  rw [MempoolState.senderQueuesReport, queues]
  refine Eq.trans ?_ (congrFun List.filterMap_eq_map _)
  apply List.filterMap_congr
  rintro ⟨sender, queue⟩ member
  have queued := mem_toList.mp member
  have queuedModel := queued
  rw [← queues] at queuedModel
  have live : MempoolState.liveEntries model.txs queue = queue.toList := by
    refine List.filter_eq_self.mpr fun entry listed => ?_
    rw [MempoolState.isPending_iff]
    have held : model.slot sender entry.1 = some entry.2 := by
      rw [MempoolState.slot, SchedulerState.slotOf, queuedModel]
      exact mem_toList.mp listed
    exact mirrors.follows.named.lifecycle held
  have verdicts : (GapCursor.scan checkedSucc {} queue.toList).map (fun visited =>
        ({ hash := visited.1.2
           nonce := visited.1.1
           state := ((model.txs[visited.1.2]?).bind (·.queueState)).getD visited.2 } :
          ReplaySenderQueueEntry)) =
      (queuePositions queue).map fun position =>
        { hash := position.hash, nonce := position.nonce, state := position.state } := by
    rw [queuePositions, List.map_map]
    refine List.map_congr_left fun visited scanned => ?_
    have known := mirrors.classified sender queuedModel visited scanned
    rw [MempoolState.queueState] at known
    rw [known]
    rfl
  dsimp only [Function.comp_apply]
  rw [senderQueuePositions_eq seating queued, live, verdicts]
  rw [if_neg]
  obtain ⟨nonce, hash, entry⟩ := SchedulerState.exists_slotOf_of_ne_empty (seating.nonempty queued)
  intro none
  rw [List.isEmpty_iff, List.map_eq_nil_iff, queuePositions, List.map_eq_nil_iff] at none
  have scanned := GapCursor.map_fst_scan checkedSucc {} queue.toList
  have listed : (nonce, hash) ∈ queue.toList := mem_toList.mpr entry
  rw [← scanned, none] at listed
  cases listed

theorem Mirrors.replays (mirrors : Mirrors model log state) (seating : Seating state) :
    Replays model state where
  pending := mirrors.mem_pendingHashes
  queues := senderQueues_eq mirrors.follows mirrors.occupies seating
  entries := by
    intro hash tx stored
    have queues := senderQueues_eq mirrors.follows mirrors.occupies seating
    have sits := seating.seated stored
    have held : model.slot tx.decoded.sender tx.decoded.nonce = some hash := by
      rw [MempoolState.slot, queues]
      exact sits
    refine ⟨mirrors.follows.named held, held, ?_⟩
    obtain ⟨queue, queued, entry⟩ := SchedulerState.slot_eq_some_iff.mp sits
    have listed : (tx.decoded.nonce, hash) ∈ queue.toList := mem_toList.mpr entry
    rw [← GapCursor.map_fst_scan checkedSucc {} queue.toList] at listed
    obtain ⟨visited, scanned, same⟩ := List.mem_map.mp listed
    rw [senderQueuePositions_eq seating queued]
    refine ⟨⟨visited.1.2, visited.1.1, visited.2⟩, List.mem_map_of_mem scanned, ?_, ?_, ?_⟩
    · exact congrArg Prod.snd same
    · exact congrArg Prod.fst same
    · rw [← queues] at queued
      have known := mirrors.classified _ queued visited scanned
      rw [same] at known
      exact known
  report := mirrors.senderQueuesReport seating

end Replays

/-! ## The run -/

theorem loggedPayloads_enqueue (state : LiveState) (op : StorageWriteOp) :
    ({ state with storageQueue := state.storageQueue ++ [op] } : LiveState).loggedPayloads =
      state.loggedPayloads ++ (op.envelope.map (·.payload)).toList := by
  rw [LiveState.loggedPayloads, LiveState.loggedPayloads, map_payload_drain, map_payload_drain,
    List.filterMap_append]
  congr 1

theorem filter_loggedPayloads_enqueue (state : LiveState) (op : StorageWriteOp) :
    ({ state with storageQueue := state.storageQueue ++ [op] } : LiveState).loggedPayloads.filter
        isLifecycle =
      state.loggedPayloads.filter isLifecycle ++ (loggedLifecycle op).toList := by
  rw [loggedPayloads_enqueue, List.filter_append, loggedLifecycle]
  cases op.envelope.map (·.payload) with
  | none => rfl
  | some payload =>
      cases reads : isLifecycle payload with
      | true => simp [Option.filter, reads]
      | false => simp [Option.filter, reads]

/-- What a worker keeps: the log, with the events it has still to log, mirrors the scheduler. -/
structure Logging (config : SchedulerConfig) (state : LiveState) (outstanding : List EventPayload) :
    Prop where
  invariant : RepresentationInvariant config state.scheduler
  mirrors : ∃ log, Mirrors (MempoolState.replay {} (state.loggedPayloads ++ outstanding)) log
    state.scheduler

/-- A change of the scheduler that leaves its admissions alone. -/
theorem Logging.sameAdmission {config : SchedulerConfig} {state : LiveState}
    {outstanding : List EventPayload} (logging : Logging config state outstanding)
    {next : SchedulerState} (same : state.scheduler.SameAdmission next) :
    Logging config { state with scheduler := next } outstanding := by
  obtain ⟨candidates, head, stale, rfl⟩ := same
  obtain ⟨log, mirrors⟩ := logging.mirrors
  exact ⟨logging.invariant.congr rfl rfl rfl rfl rfl rfl rfl,
    log, mirrors.follows, mirrors.classified, mirrors.occupies⟩

theorem Logging.enqueue {config : SchedulerConfig} {state : LiveState}
    {outstanding : List EventPayload} (logging : Logging config state outstanding)
    {op : StorageWriteOp}
    (next : ∀ payload, loggedLifecycle op = some payload → outstanding.head? = some payload) :
    Logging config { state with storageQueue := state.storageQueue ++ [op] }
      (if (loggedLifecycle op).isSome then outstanding.tail else outstanding) := by
  obtain ⟨log, mirrors⟩ := logging.mirrors
  refine ⟨logging.invariant, log, ?_⟩
  rw [loggedPayloads_enqueue]
  cases logged : loggedLifecycle op with
  | some payload =>
      obtain ⟨rest, rfl⟩ : ∃ rest, outstanding = payload :: rest := by
        cases outstanding with
        | nil => simp at next; exact absurd logged (next payload)
        | cons first rest =>
            have same := next payload logged
            rw [List.head?_cons, Option.some.injEq] at same
            exact ⟨rest, by rw [same]⟩
      obtain ⟨written, -⟩ := Option.filter_eq_some_iff.mp logged
      rw [written, List.append_assoc]
      exact mirrors
  | none =>
      rw [if_neg (by simp), List.append_assoc, MempoolState.replay_append, MempoolState.replay_append]
      rw [MempoolState.replay_append] at mirrors
      cases written : op.envelope.map (·.payload) with
      | none => exact mirrors
      | some payload =>
          have silent : isLifecycle payload = false := by
            rw [loggedLifecycle, written, Option.filter_some] at logged
            simpa using logged
          have skipped : (MempoolState.replay {} state.loggedPayloads).replay [payload] =
              MempoolState.replay {} state.loggedPayloads :=
            MempoolState.applyEvent_of_not_lifecycle _ silent
          rw [Option.toList_some, skipped]
          exact mirrors

/-- Every permitted call keeps the log a mirror of the scheduler. -/
theorem Logging.serve {config : SchedulerConfig} (state : LiveState)
    (outstanding : List EventPayload) (op : PipelineOp)
    (logging : Logging config state outstanding) (permitted : admissionProtocol.permits outstanding op) :
    admissionProtocol.promises outstanding op (LiveRpc.serve config state op).1 ∧
      Logging config (LiveRpc.serve config state op).2
        (admissionProtocol.advance outstanding op (LiveRpc.serve config state op).1) := by
  refine ⟨serve_promises config state outstanding op, ?_⟩
  cases op with
  | admitOutcome tx =>
      have settled : outstanding = [] := permitted
      subst settled
      obtain ⟨log, mirrors⟩ := logging.mirrors
      rw [List.append_nil] at mirrors
      have admitted := mirrors.admission logging.invariant tx
      rw [← MempoolState.replay_append] at admitted
      exact ⟨logging.invariant.admitTx tx, _, admitted⟩
  | tryEnqueue op => exact logging.enqueue permitted
  | invalidateCandidateHash hash => exact logging.sameAdmission ⟨_, _, _, rfl⟩
  | registerCandidates candidates =>
      exact logging.sameAdmission (state.scheduler.sameAdmission_registerCandidates candidates)
  | fetchAddSeqId | enqueueSimulationTask => exact ⟨logging.invariant, logging.mirrors⟩
  | observeDropReason | getPendingTransactions | snapshotReady | observeSearcherBatch =>
      exact logging

/-- **The event log refines the scheduler in a sequential run.** After any transactions, the log
replays to the scheduler's pending set, slots and queue states. -/
theorem processArrivals_replays (config : SchedulerConfig) (nextSeqId : UInt64)
    (arrivals : List Arrival) :
    let final := ((processArrivals arrivals).run (serve config) { nextSeqId := nextSeqId }).2
    Replays (MempoolState.replay {} final.loggedPayloads) final.scheduler := by
  have start : Logging config { nextSeqId := nextSeqId } [] :=
    ⟨.empty config, [], Mirrors.empty⟩
  obtain ⟨outstanding, rfl, logging⟩ :=
    (settles_processArrivals arrivals).run (@Logging.serve config) start
  obtain ⟨log, mirrors⟩ := logging.mirrors
  rw [List.append_nil] at mirrors
  exact mirrors.replays logging.invariant.seating

end Mempulse.LiveRpc
