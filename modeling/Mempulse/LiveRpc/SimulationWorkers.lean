import Mempulse.LiveRpc.Simulation

/-!
# Simulation workers

The simulation workers run beside the chain workers and share the scheduler, the builder and the
storage writer with them. A worker takes a task, simulates its request, and applies the outcome call
by call: it records the status under the id of the simulation, and then, for every candidate of the
task, brings the result to the scheduler and logs it, and at last tells the builder. The queues may
refuse any call.
-/

set_option autoImplicit false

namespace Mempulse.LiveRpc

open Std EventLog Library Scheduler Storage Searcher Builder

/-! ## Simulating a request -/

/-- Why the first failed transaction of a batch failed. -/
inductive SimulationFailCategory where
  | revert
  | outOfGas
  | nonceMismatch
  | stateMismatch
  | unknown
  deriving DecidableEq

/-- The category as the outcome spells it. -/
def simulationFailCategoryLabel : SimulationFailCategory → String
  | .revert => "revert"
  | .outOfGas => "out_of_gas"
  | .nonceMismatch => "nonce_mismatch"
  | .stateMismatch => "state_mismatch"
  | .unknown => "unknown"

/-- How the simulation of a request ended: with a batch, and the category of its first failed result
if that has one; with an error of the state it reads; or not in time. -/
inductive Simulated where
  | batch (batch : SimulationBatchResult) (failCategory : Option SimulationFailCategory)
  | stateError
  | timedOut
  deriving DecidableEq

/-- The status of a batch, and the category when a transaction failed. -/
def summarizeSimulationBatch (batch : SimulationBatchResult)
    (failCategory : Option SimulationFailCategory) : RemoteSimulationStatus × Option String :=
  if batch.txResults.any fun result => !result.success then
    (.failed, some ((failCategory.map simulationFailCategoryLabel).getD "unknown"))
  else (.ok, none)

/-- The first eight hex digits of a hash. -/
def hashPrefix (hash : TxHash) : String :=
  String.ofList ((formatFixedHex hash).toList.take 10 |>.drop 2)

/-- The id of a simulation: `sim-` with the first digits of the hash and the detection time. -/
def simIdForRequest (request : RemoteSimulationRequest) : String :=
  "sim-" ++ hashPrefix request.txHash ++ "-" ++ toString request.detectedUnixMs

/-- What `simulate_remote_request_with_owner` makes of a simulation. -/
def simulateRemoteRequest (request : RemoteSimulationRequest) (simulated : Simulated)
    (latencyMs : UInt64) : RemoteSimulationOutcome :=
  let (status, failCategory, simulationBatch) := match simulated with
    | .batch batch failCategory =>
      let summary := summarizeSimulationBatch batch failCategory
      (summary.1, summary.2, some batch)
    | .stateError => (RemoteSimulationStatus.stateError, some "state_rpc", none)
    | .timedOut => (.timeout, some "state_timeout", none)
  { simId := simIdForRequest request
    status := status
    failCategory := failCategory
    latencyMs := latencyMs
    txCount := UInt32.ofNat request.txs.length
    simulationBatch := simulationBatch }

/-! ## Statuses -/

/-- What the status endpoint shows of one simulation. -/
structure LiveRpcSimulationStatusSnapshot where
  id : String
  bundleId : String
  status : String
  relayUrl : String
  attemptCount : Nat
  accepted : Bool
  failCategory : Option String
  startedUnixMs : Int64
  finishedUnixMs : Int64
  deriving DecidableEq

/-- The statuses of the simulations, by id. -/
structure SimulationStatusStore where
  latest : Option LiveRpcSimulationStatusSnapshot := none
  byId : ExtTreeMap String LiveRpcSimulationStatusSnapshot := ∅

/-- The newest snapshot replaces the latest and the one under its id. -/
def SimulationStatusStore.record (store : SimulationStatusStore)
    (snapshot : LiveRpcSimulationStatusSnapshot) : SimulationStatusStore where
  latest := some snapshot
  byId := store.byId.insert snapshot.id snapshot

/-- The snapshot of a finished task. -/
def buildSimulationStatusSnapshot (task : SimulationTask) (outcome : RemoteSimulationOutcome)
    (finishedUnixMs : Int64) : LiveRpcSimulationStatusSnapshot where
  id := outcome.simId
  bundleId := match task.candidates.head? with
    | some candidate => bundleIdForOpportunity candidate.opportunity.record
    | none => buildBundleId task.request.txHash task.request.detectedUnixMs
  status := simulationStatusLabel outcome.status
  relayUrl := "not_submitted"
  attemptCount := 0
  accepted := outcome.status = .ok
  failCategory := outcome.failCategory
  startedUnixMs := task.enqueuedUnixMs
  finishedUnixMs := finishedUnixMs

/-! ## Operations -/

/-- What a simulation worker calls. -/
inductive SimulationOp where
  | recordSimulationStatus (snapshot : LiveRpcSimulationStatusSnapshot)
  | applySimulationResult (result : SchedulerSimulationResult)
  | observeSimulationStaleDrop
  | fetchAddSeqId
  | tryEnqueue (op : StorageWriteOp)
  | observeDropReason (reason : LiveRpcDropReason)
  /-- `with_builder_engine_mut(|engine| engine.insert(candidate))`. -/
  | insertCandidate (candidate : AssemblyCandidate)
  deriving DecidableEq

/-- What each call of a simulation worker returns. -/
abbrev SimulationReply : SimulationOp → Type
  | .recordSimulationStatus _ => Unit
  | .applySimulationResult _ => Except SchedulerEnqueueError SchedulerSimulationApplyOutcome
  | .observeSimulationStaleDrop => Unit
  | .fetchAddSeqId => UInt64
  | .tryEnqueue _ => Except StorageTryEnqueueError Unit
  | .observeDropReason _ => Unit
  | .insertCandidate _ => AssemblyDecision

/-- The program of a simulation worker on one task. -/
abbrev Simulation := Program SimulationOp SimulationReply (Except String Unit)

namespace Simulation

/-- `append_event_with_owner`, which ends the caller when the event is not taken. -/
def appendEvent (chain : ChainRpcConfig) (nowUnixMs : Int64) (payload : EventPayload)
    (next : Simulation) : Simulation :=
  .call .fetchAddSeqId fun seqId =>
    .call
      (.tryEnqueue (.appendPayload chain.sourceId payload nowUnixMs
        (UInt64.ofNat (saturatingMul u64Max seqId.toNat 1000000))))
      fun
      | .ok () => next
      | .error error =>
        .call (.observeDropReason (classifyStorageEnqueueDropReason error)) fun _ =>
          match error with
          | .queueFull => .done (.ok ())
          | .queueClosed => .done (.error "storage writer queue is closed")

/-- Applies the results for the candidates and goes on with the ids of those that are handed to the
builder. -/
def applyResults (chain : ChainRpcConfig) (outcome : RemoteSimulationOutcome)
    (finishedUnixMs : Int64) (next : ExtTreeSet CandidateId → Simulation) :
    List RegisteredSimulationCandidate → ExtTreeSet CandidateId → Simulation
  | [], accepted => next accepted
  | candidate :: rest, accepted =>
    .call (.applySimulationResult (simulationResultOf outcome candidate.spec)) fun
      | .error error => .done (.error ("scheduler simulation apply failed: " ++ error.debug))
      | .ok applied =>
        if applied.staleResultDropTotal > 0 then
          .call .observeSimulationStaleDrop fun _ =>
            applyResults chain outcome finishedUnixMs next rest accepted
        else
          let accepted :=
            if applied.builderHandoffs.isEmpty then accepted
            else accepted.insert candidate.spec.candidateId
          let simEvent := buildSimCompletedPayload candidate.opportunity.record outcome
          let onward := applyResults chain outcome finishedUnixMs next rest accepted
          appendEvent chain finishedUnixMs (.simCompleted simEvent)
            (if outcome.status = .ok then
              appendEvent chain finishedUnixMs
                (buildBundleSubmittedPayload candidate.opportunity.record simEvent) onward
            else onward)

/-- Inserts the accepted candidates and goes on with the decisions. -/
def insertAccepted (batch : SimulationBatchResult) (accepted : ExtTreeSet CandidateId)
    (next : List BuilderDecisionRecord → Simulation) :
    List RegisteredSimulationCandidate → List BuilderDecisionRecord → Simulation
  | [], decisions => next decisions
  | candidate :: rest, decisions =>
    if accepted.contains candidate.spec.candidateId then
      match fromSimulatedOpportunity hexEncode candidate.opportunity.candidate batch with
      | .ok builderCandidate =>
        .call (.insertCandidate builderCandidate) fun decision =>
          insertAccepted batch accepted next rest
            (decisions ++
              [{ txHash := candidate.opportunity.record.txHash
                 blockNumber := builderCandidate.simulation.blockNumber
                 decision := decision }])
      | .error _ => insertAccepted batch accepted next rest decisions
    else insertAccepted batch accepted next rest decisions

/-- Logs the decisions. -/
def appendDecisions (chain : ChainRpcConfig) (finishedUnixMs : Int64)
    (decisions : List BuilderDecisionRecord) : Simulation :=
  decisions.foldr
    (fun decision next => appendEvent chain finishedUnixMs
      (buildAssemblyDecisionPayload decision.txHash decision.blockNumber decision.decision) next)
    (.done (.ok ()))

/-- `apply_simulation_task_outcome`. -/
def ofTask (task : SimulationTask) (outcome : RemoteSimulationOutcome) (finishedUnixMs : Int64) :
    Simulation :=
  .call (.recordSimulationStatus (buildSimulationStatusSnapshot task outcome finishedUnixMs))
    fun _ =>
      applyResults task.chain outcome finishedUnixMs
        (fun accepted =>
          if accepted.isEmpty then .done (.ok ())
          else
            match outcome.simulationBatch with
            | none => .done (.ok ())
            | some batch =>
              insertAccepted batch accepted (appendDecisions task.chain finishedUnixMs)
                task.candidates [])
        task.candidates ∅

/-! ### One outcome at a time -/

/-- Serves a simulation worker while nobody else calls anything. The queues give the replies. -/
def serveOutcome (state : LiveAssembly × QueueReplies) :
    (op : SimulationOp) → SimulationReply op × LiveAssembly × QueueReplies
  | .applySimulationResult result =>
    let applied := state.1.live.scheduler.applySimulationResult result
    (.ok applied.1, { state.1 with live := { state.1.live with scheduler := applied.2 } }, state.2)
  | .fetchAddSeqId =>
    (state.1.live.nextSeqId,
      { state.1 with live := { state.1.live with nextSeqId := state.1.live.nextSeqId + 1 } }, state.2)
  | .tryEnqueue op =>
    match state.2.storage with
    | .error error :: rest => (.error error, state.1, { state.2 with storage := rest })
    | replies =>
      (.ok (),
        { state.1 with
            live := { state.1.live with storageQueue := state.1.live.storageQueue ++ [op] } },
        { state.2 with storage := replies.tail })
  | .insertCandidate candidate =>
    let inserted := state.1.engine.insert candidate
    (inserted.1, { state.1 with engine := inserted.2 }, state.2)
  | .recordSimulationStatus _ | .observeSimulationStaleDrop | .observeDropReason _ => ((), state)

section Alone

variable {chain : ChainRpcConfig} {outcome : RemoteSimulationOutcome} {finishedUnixMs : Int64}
  {state : LiveAssembly} {replies : QueueReplies}

theorem run_appendEvent (payload : EventPayload) (next : Simulation) :
    ((appendEvent chain finishedUnixMs payload next).run serveOutcome (state, replies)).2 =
      let appended := tryAppend chain finishedUnixMs payload (state.live, replies)
      if appended.1 then
        (next.run serveOutcome ({ state with live := appended.2.1 }, appended.2.2)).2
      else ({ state with live := appended.2.1 }, appended.2.2) := by
  rcases replies with ⟨storage, simulation⟩
  cases storage with
  | nil => rfl
  | cons reply rest =>
      cases reply with
      | ok taken => rfl
      | error error => cases error <;> rfl

/-- The results are applied as by the first loop. -/
theorem run_applyResults (next : ExtTreeSet CandidateId → Simulation)
    (candidates : List RegisteredSimulationCandidate) (accepted : ExtTreeSet CandidateId) :
    ((applyResults chain outcome finishedUnixMs next candidates accepted).run serveOutcome
        (state, replies)).2 =
      let applied :=
        applySimulationResults chain outcome finishedUnixMs candidates (state.live, replies) accepted
      let after := ({ state with live := applied.2.1 }, applied.2.2)
      applied.1.elim after fun accepted => ((next accepted).run serveOutcome after).2 := by
  induction candidates generalizing state replies accepted with
  | nil => rfl
  | cons candidate rest ih =>
      rw [applyResults, Program.run, applySimulationResults]
      dsimp only [serveOutcome]
      split
      case isTrue => exact ih accepted
      case isFalse =>
        rw [run_appendEvent]
        dsimp only
        generalize tryAppend chain finishedUnixMs (.simCompleted _) _ = completed
        obtain ⟨taken, live, later⟩ := completed
        cases taken with
        | false => rfl
        | true =>
            simp only [if_true, Bool.not_true, Bool.false_eq_true, if_false]
            split
            case isFalse => exact ih _
            case isTrue =>
              rw [run_appendEvent]
              dsimp only
              generalize tryAppend chain finishedUnixMs
                (buildBundleSubmittedPayload _ _) _ = submitted
              obtain ⟨taken, live, later⟩ := submitted
              cases taken with
              | false => rfl
              | true => exact ih _

/-- The candidates are inserted as by the loop over the engine. -/
theorem run_insertAccepted (batch : SimulationBatchResult) (accepted : ExtTreeSet CandidateId)
    (next : List BuilderDecisionRecord → Simulation)
    (candidates : List RegisteredSimulationCandidate) (decisions : List BuilderDecisionRecord) :
    ((insertAccepted batch accepted next candidates decisions).run serveOutcome
        (state, replies)).2 =
      let decided := LiveRpc.insertAccepted batch accepted candidates state.engine
      ((next (decisions ++ decided.1)).run serveOutcome
        ({ state with engine := decided.2 }, replies)).2 := by
  induction candidates generalizing state decisions with
  | nil =>
      rw [insertAccepted, LiveRpc.insertAccepted]
      dsimp only
      rw [List.append_nil]
  | cons candidate rest ih =>
      rw [insertAccepted, LiveRpc.insertAccepted]
      split
      case isFalse => exact ih decisions
      case isTrue =>
        cases built : fromSimulatedOpportunity hexEncode candidate.opportunity.candidate batch with
        | error error => exact ih decisions
        | ok builderCandidate =>
            dsimp only
            rw [Program.run]
            refine (ih _).trans ?_
            dsimp only [serveOutcome]
            rw [List.append_assoc, List.singleton_append]

theorem run_appendDecisions (decisions : List BuilderDecisionRecord) :
    ((appendDecisions chain finishedUnixMs decisions).run serveOutcome (state, replies)).2 =
      let after := LiveRpc.appendDecisions chain finishedUnixMs decisions (state.live, replies)
      ({ state with live := after.1 }, after.2) := by
  induction decisions generalizing state replies with
  | nil => rfl
  | cons decision rest ih =>
      rw [appendDecisions, List.foldr_cons, run_appendEvent, LiveRpc.appendDecisions]
      dsimp only
      split
      case isFalse refused => rw [if_pos (by simpa using refused)]
      case isTrue taken =>
        rw [if_neg (by simpa using taken)]
        exact ih

/-- **A worker that nobody interrupts applies the outcome as the sequential function does.** -/
theorem run_ofTask (state : LiveAssembly) (task : SimulationTask) (outcome : RemoteSimulationOutcome)
    (finishedUnixMs : Int64) (replies : QueueReplies) :
    ((ofTask task outcome finishedUnixMs).run serveOutcome (state, replies)).2.1 =
      applySimulationTaskOutcome state task outcome finishedUnixMs replies := by
  rw [ofTask, Program.run]
  dsimp only [serveOutcome]
  rw [run_applyResults, applySimulationTaskOutcome]
  dsimp only
  cases applySimulationResults task.chain outcome finishedUnixMs task.candidates
      (state.live, replies) ∅ with
  | mk result after =>
      cases result with
      | none => rfl
      | some accepted =>
          dsimp only [Option.elim_some]
          split
          case isTrue => rfl
          case isFalse =>
            rw [applyBuilderAssemblyState]
            cases outcome.simulationBatch with
            | none => rfl
            | some batch =>
                dsimp only
                rw [run_insertAccepted]
                dsimp only
                rw [List.nil_append, run_appendDecisions]

end Alone

end Simulation

/-! ## The system -/

/-- Why a queue refuses a call. The simulation queue's error has a message. -/
inductive Refusal where
  | queueFull
  | queueClosed (message : String)
  deriving DecidableEq

namespace Refusal

/-- The error of the scheduler's queue. -/
def scheduler : Refusal → SchedulerEnqueueError
  | .queueFull => .queueFull
  | .queueClosed _ => .queueClosed

/-- The error of the storage queue. -/
def storage : Refusal → StorageTryEnqueueError
  | .queueFull => .queueFull
  | .queueClosed _ => .queueClosed

/-- What a chain worker gets when its call is refused. Some calls cannot be refused. -/
def pipelineReply (refusal : Refusal) : (op : PipelineOp) → Option (PipelineReply op)
  | .admitOutcome _ => some (.error refusal.scheduler)
  | .tryEnqueue _ => some (.error refusal.storage)
  | .invalidateCandidateHash _ => some (.error refusal.scheduler)
  | .registerCandidates _ => some (.error refusal.scheduler)
  | .enqueueSimulationTask _ =>
    match refusal with
    | .queueFull => some (.ok false)
    | .queueClosed message => some (.error message)
  | .fetchAddSeqId | .observeDropReason _ | .getPendingTransactions _ | .snapshotReady
  | .observeSearcherBatch _ => none

/-- What a simulation worker gets when its call is refused. Some calls cannot be refused. -/
def simulationReply (refusal : Refusal) : (op : SimulationOp) → Option (SimulationReply op)
  | .applySimulationResult _ => some (.error refusal.scheduler)
  | .tryEnqueue _ => some (.error refusal.storage)
  | .recordSimulationStatus _ | .observeSimulationStaleDrop | .fetchAddSeqId | .observeDropReason _
  | .insertCandidate _ => none

end Refusal

/-- A simulation worker on a task. `subject` is bookkeeping that no call reads: the candidate whose
result it applied last. -/
structure Assignment where
  task : SimulationTask
  program : Simulation
  subject : Option CandidateId := none

/-- An event of the log. An event of a simulation worker has the task and the candidate for which
the worker emitted it. -/
structure LogEntry where
  payload : EventPayload
  origin : Option (SimulationTask × Option CandidateId) := none
  deriving DecidableEq

/-- All workers and what they share. `log` and `recorded` are bookkeeping that no call reads: the
events that the storage queue took, and the statuses recorded, each with its task. -/
structure LiveSystem where
  live : LiveState
  engine : AssemblyEngine
  statuses : SimulationStatusStore := {}
  workers : List Pipeline
  assignments : List Assignment := []
  log : List LogEntry := []
  recorded : List (SimulationTask × LiveRpcSimulationStatusSnapshot) := []

/-- What happens next: a chain worker makes its next call; a simulation worker takes a task of the
queue, whose simulation ends somehow; or a simulation worker makes its next call. A call may be
refused. -/
inductive LiveTurn where
  | worker (index : Nat) (refusal : Option Refusal)
  | take (number : Nat) (simulated : Simulated) (latencyMs : UInt64) (finishedUnixMs : Int64)
  | simulation (index : Nat) (refusal : Option Refusal)
  deriving DecidableEq

/-- The event that a write appends. -/
def loggedPayload (op : StorageWriteOp) : Option EventPayload := op.envelope.map (·.payload)

namespace LiveSystem

/-- Every chain worker is about to process its own list of arrivals. -/
def start (nextSeqId : UInt64) (assembly : AssemblyConfig) (jobs : List (List Arrival)) :
    LiveSystem where
  live := { nextSeqId := nextSeqId }
  engine := { config := assembly }
  workers := jobs.map processArrivals

/-- Serves a chain worker. -/
def servePipeline (config : SchedulerConfig) (system : LiveSystem) (op : PipelineOp) :
    PipelineReply op × LiveSystem :=
  let served := serve config system.live op
  (served.1, { system with
    live := served.2
    log := system.log ++ match op with
      | .tryEnqueue write => (loggedPayload write).toList.map fun payload => { payload := payload }
      | _ => [] })

/-- Serves a simulation worker. -/
def serveSimulation (system : LiveSystem) (assignment : Assignment) :
    (op : SimulationOp) → SimulationReply op × LiveSystem
  | .recordSimulationStatus snapshot =>
    ((), { system with
      statuses := system.statuses.record snapshot
      recorded := system.recorded ++ [(assignment.task, snapshot)] })
  | .applySimulationResult result =>
    let applied := system.live.scheduler.applySimulationResult result
    (.ok applied.1, { system with live := { system.live with scheduler := applied.2 } })
  | .observeSimulationStaleDrop => ((), system)
  | .fetchAddSeqId =>
    (system.live.nextSeqId,
      { system with live := { system.live with nextSeqId := system.live.nextSeqId + 1 } })
  | .tryEnqueue write =>
    (.ok (), { system with
      live := { system.live with storageQueue := system.live.storageQueue ++ [write] }
      log := system.log ++ (loggedPayload write).toList.map fun payload =>
        { payload := payload, origin := some (assignment.task, assignment.subject) } })
  | .observeDropReason _ => ((), system)
  | .insertCandidate candidate =>
    let inserted := system.engine.insert candidate
    (inserted.1, { system with engine := inserted.2 })

/-- The candidate a simulation worker is at after a call. -/
def subjectAfter (subject : Option CandidateId) : SimulationOp → Option CandidateId
  | .applySimulationResult result => some result.candidateId
  | _ => subject

/-- One turn: a call of a chain worker, a task taken, or a call of a simulation worker. -/
def turn (config : SchedulerConfig) (system : LiveSystem) : LiveTurn → LiveSystem
  | .worker index refusal =>
    match system.workers[index]? with
    | some (.call op next) =>
      match refusal.bind fun refusal => refusal.pipelineReply op with
      | some reply => { system with workers := system.workers.set index (next reply) }
      | none =>
        let served := system.servePipeline config op
        { served.2 with workers := served.2.workers.set index (next served.1) }
    | _ => system
  | .take number simulated latencyMs finishedUnixMs =>
    match system.live.simulationQueue[number]? with
    | some task =>
      { system with
        assignments := system.assignments ++
          [{ task := task
             program := .ofTask task (simulateRemoteRequest task.request simulated latencyMs)
               finishedUnixMs }] }
    | none => system
  | .simulation index refusal =>
    match system.assignments[index]? with
    | some assignment =>
      match assignment.program with
      | .call op next =>
        let moved := { assignment with subject := subjectAfter assignment.subject op }
        match refusal.bind fun refusal => refusal.simulationReply op with
        | some reply =>
          { system with
            assignments := system.assignments.set index { moved with program := next reply } }
        | none =>
          let served := system.serveSimulation assignment op
          { served.2 with
            assignments :=
              served.2.assignments.set index { moved with program := next served.1 } }
      | .done _ => system
    | none => system

/-- The system after the turns. -/
def run (config : SchedulerConfig) (system : LiveSystem) (turns : List LiveTurn) : LiveSystem :=
  turns.foldl (turn config) system

end LiveSystem

end Mempulse.LiveRpc
