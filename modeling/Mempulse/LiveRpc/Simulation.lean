import Mempulse.Builder.Assembly
import Mempulse.HexParsers
import Mempulse.LiveRpc.Sequential

/-!
# Simulation outcomes

What a simulation worker does with the outcome of a task. It applies one result for every candidate
of the task. The candidates the scheduler hands to the builder are made into assembly candidates,
with the gas and the success of each member read from the simulated batch, and inserted into the
live assembly set. Any write may find the storage queue full, which ends what is being done. The
status snapshot of the worker is left out, nothing here reads it.
-/

set_option autoImplicit false

namespace Mempulse.LiveRpc

open Std EventLog Library Scheduler Storage Searcher Builder

/-! ## Data -/

/-- Simulation outcome for one transaction hash. -/
structure TxSimulationResult where
  hash : TxHash
  success : Bool
  gasUsed : UInt64
  deriving DecidableEq

/-- What the builder reads of the chain context of a batch. -/
structure ChainContext where
  blockNumber : UInt64
  deriving DecidableEq

/-- Aggregate simulation output for a batch executed against one chain context. -/
structure SimulationBatchResult where
  chainContext : ChainContext
  txResults : List TxSimulationResult
  finalStateDiffHash : TxHash
  deriving DecidableEq

/-- How a simulation ended. -/
inductive RemoteSimulationStatus where
  | ok
  | failed
  | stateError
  | timeout
  deriving DecidableEq

/-- What a simulation worker learns of one task. -/
structure RemoteSimulationOutcome where
  simId : String
  status : RemoteSimulationStatus
  failCategory : Option String
  latencyMs : UInt64
  txCount : UInt32
  simulationBatch : Option SimulationBatchResult
  deriving DecidableEq

/-- The status as the events spell it. -/
def simulationStatusLabel : RemoteSimulationStatus → String
  | .ok => "ok"
  | .failed => "failed"
  | .stateError => "state_error"
  | .timeout => "timeout"

/-- One decision of the assembly engine, as it is logged. -/
structure BuilderDecisionRecord where
  txHash : TxHash
  blockNumber : UInt64
  decision : AssemblyDecision
  deriving DecidableEq

/-! ## Assembly candidates -/

/-- Errors returned while converting a simulated opportunity into an assembly candidate. -/
inductive AssemblyCandidateBuildError where
  | missingSimulationResult (txHash : TxHash)
  deriving DecidableEq

/-- A bundle is what the searcher called one, or what has several members. -/
def assemblyKind (strategy : StrategyKind) (memberCount : Nat) : AssemblyCandidateKind :=
  if strategy = .bundleCandidate ∨ memberCount > 1 then .bundle else .transaction

/-- The hashes of the candidate of an opportunity. -/
def opportunityHashes (opportunity : OpportunityCandidate) : List TxHash :=
  if opportunity.memberTxHashes.isEmpty then [opportunity.txHash] else opportunity.memberTxHashes

/-- The loop of `from_simulated_opportunity`: whether all members succeeded, and their gas. -/
def joinSimulationResults (txResults : List TxSimulationResult) :
    Bool → Nat → List TxHash → Except AssemblyCandidateBuildError (Bool × Nat)
  | approved, gasUsed, [] => .ok (approved, gasUsed)
  | approved, gasUsed, txHash :: rest =>
    match txResults.find? fun result => result.hash = txHash with
    | none => .error (.missingSimulationResult txHash)
    | some result =>
      joinSimulationResults txResults (approved && result.success)
        (saturatingAdd u64Max gasUsed result.gasUsed.toNat) rest

/-- Builds an assembly candidate by joining a ranked opportunity with its simulation results. The
encoder is `hex::encode`. -/
def fromSimulatedOpportunity (encode : List UInt8 → String) (opportunity : OpportunityCandidate)
    (simulation : SimulationBatchResult) :
    Except AssemblyCandidateBuildError AssemblyCandidate := do
  let txHashes := opportunityHashes opportunity
  let (approved, gasUsed) ← joinSimulationResults simulation.txResults true 0 txHashes
  return {
    candidateId :=
      opportunity.strategy.debug ++ ":0x" ++ encode (hashBytes opportunity.txHash).toList
    txHashes := txHashes
    priorityScore := UInt32.ofNat opportunity.score
    gasUsed := UInt64.ofNat gasUsed
    kind := assemblyKind opportunity.strategy opportunity.memberTxHashes.length
    simulation :=
      { simId := "0x" ++ encode (hashBytes simulation.finalStateDiffHash).toList
        blockNumber := simulation.chainContext.blockNumber
        approved := approved } }

/-! ## Payloads -/

/-- The id of a bundle: the first four bytes of its hash, and the moment it was detected. -/
def buildBundleId (hash : TxHash) (detectedUnixMs : Int64) : String :=
  "bundle-" ++ String.ofList ((formatFixedHex hash).toList.take 10 |>.drop 2) ++ "-" ++
    toString detectedUnixMs

/-- The id of an opportunity's bundle. -/
def bundleIdForOpportunity (opportunity : OpportunityRecord) : String :=
  buildBundleId opportunity.txHash opportunity.detectedUnixMs

/-- The event announcing a finished simulation. -/
def buildSimCompletedPayload (opportunity : OpportunityRecord) (outcome : RemoteSimulationOutcome) :
    SimCompleted where
  hash := opportunity.txHash
  simId := outcome.simId
  status := simulationStatusLabel outcome.status
  featureEngineVersion := opportunity.featureEngineVersion
  scorerVersion := opportunity.scorerVersion
  strategyVersion := opportunity.strategyVersion
  failCategory := outcome.failCategory
  latencyMs := some outcome.latencyMs
  txCount := some outcome.txCount

/-- The event announcing a bundle, which is never submitted here. -/
def buildBundleSubmittedPayload (opportunity : OpportunityRecord) (simEvent : SimCompleted) :
    EventPayload :=
  .bundleSubmitted
    { hash := opportunity.txHash
      bundleId := bundleIdForOpportunity opportunity
      simId := simEvent.simId
      relay := "not_submitted"
      accepted := false
      featureEngineVersion := opportunity.featureEngineVersion
      scorerVersion := opportunity.scorerVersion
      strategyVersion := opportunity.strategyVersion }

/-- The event announcing a decision of the assembly engine. -/
def buildAssemblyDecisionPayload (txHash : TxHash) (blockNumber : UInt64) :
    AssemblyDecision → EventPayload
  | .inserted candidateId replacedCandidateIds =>
    .assemblyDecisionApplied
      { candidateId := candidateId, txHash := txHash, decision := "inserted"
        replacedCandidateIds := replacedCandidateIds, reason := none, blockNumber := blockNumber }
  | .rejected candidateId reason =>
    .assemblyDecisionApplied
      { candidateId := candidateId, txHash := txHash, decision := "rejected"
        replacedCandidateIds := [], reason := some reason, blockNumber := blockNumber }

/-! ## Queues that may refuse -/

/-- What the queues reply to the calls that try to enqueue something, oldest call first. When the
replies have run out, the queues take everything. -/
structure QueueReplies where
  storage : List (Except StorageTryEnqueueError Unit) := []
  simulation : List (Except String Bool) := []
  deriving DecidableEq

/-- Serves an operation, the queues giving the replies. -/
def serveReplying (config : SchedulerConfig) (state : LiveState × QueueReplies) :
    (op : PipelineOp) → PipelineReply op × LiveState × QueueReplies
  | .tryEnqueue op =>
    match state.2.storage with
    | .error error :: rest => (.error error, state.1, { state.2 with storage := rest })
    | replies =>
      (.ok (), (serve config state.1 (.tryEnqueue op)).2, { state.2 with storage := replies.tail })
  | .enqueueSimulationTask task =>
    match state.2.simulation with
    | .error message :: rest => (.error message, state.1, { state.2 with simulation := rest })
    | .ok false :: rest => (.ok false, state.1, { state.2 with simulation := rest })
    | replies =>
      (.ok true, (serve config state.1 (.enqueueSimulationTask task)).2,
        { state.2 with simulation := replies.tail })
  | op =>
    let served := serve config state.1 op
    (served.1, served.2, state.2)

/-- `append_event_with_owner` when the storage queue takes the event. -/
def LiveState.append (live : LiveState) (chain : ChainRpcConfig) (nowUnixMs : Int64)
    (payload : EventPayload) : LiveState :=
  { live with
    nextSeqId := live.nextSeqId + 1
    storageQueue := live.storageQueue ++
      [.appendPayload chain.sourceId payload nowUnixMs
        (UInt64.ofNat (saturatingMul u64Max live.nextSeqId.toNat 1000000))] }

/-- `append_event_with_owner`: whether the storage queue took the event. A full queue and a closed
one both end the caller. -/
def tryAppend (chain : ChainRpcConfig) (nowUnixMs : Int64) (payload : EventPayload)
    (state : LiveState × QueueReplies) : Bool × LiveState × QueueReplies :=
  match state.2.storage with
  | .error _ :: rest =>
    (false, { state.1 with nextSeqId := state.1.nextSeqId + 1 }, { state.2 with storage := rest })
  | replies =>
    (true, state.1.append chain nowUnixMs payload, { state.2 with storage := replies.tail })

/-! ## Applying an outcome -/

/-- The result that is applied for a candidate of a task. -/
def simulationResultOf (outcome : RemoteSimulationOutcome) (spec : SimulationTaskSpec) :
    SchedulerSimulationResult where
  candidateId := spec.candidateId
  txHash := spec.txHash
  memberTxHashes := spec.memberTxHashes
  blockNumber := spec.blockNumber
  generation := spec.generation
  approved := outcome.status = .ok

/-- The first loop of `apply_simulation_task_outcome`: applies a result for every candidate and
collects the ids of those that are handed to the builder. It brings no ids when an event is not
taken. -/
def applySimulationResults (chain : ChainRpcConfig) (outcome : RemoteSimulationOutcome)
    (finishedUnixMs : Int64) :
    List RegisteredSimulationCandidate → LiveState × QueueReplies → ExtTreeSet CandidateId →
      Option (ExtTreeSet CandidateId) × LiveState × QueueReplies
  | [], state, accepted => (some accepted, state)
  | candidate :: rest, state, accepted =>
    let applied :=
      state.1.scheduler.applySimulationResult (simulationResultOf outcome candidate.spec)
    let state := ({ state.1 with scheduler := applied.2 }, state.2)
    if applied.1.staleResultDropTotal > 0 then
      applySimulationResults chain outcome finishedUnixMs rest state accepted
    else
      let accepted :=
        if applied.1.builderHandoffs.isEmpty then accepted
        else accepted.insert candidate.spec.candidateId
      let simEvent := buildSimCompletedPayload candidate.opportunity.record outcome
      let completed := tryAppend chain finishedUnixMs (.simCompleted simEvent) state
      if !completed.1 then (none, completed.2)
      else if outcome.status = .ok then
        let submitted := tryAppend chain finishedUnixMs
          (buildBundleSubmittedPayload candidate.opportunity.record simEvent) completed.2
        if !submitted.1 then (none, submitted.2)
        else applySimulationResults chain outcome finishedUnixMs rest submitted.2 accepted
      else applySimulationResults chain outcome finishedUnixMs rest completed.2 accepted

/-- The loop of `apply_builder_assembly_state_with_owner`. -/
def insertAccepted (batch : SimulationBatchResult) (accepted : ExtTreeSet CandidateId) :
    List RegisteredSimulationCandidate → AssemblyEngine →
      List BuilderDecisionRecord × AssemblyEngine
  | [], engine => ([], engine)
  | candidate :: rest, engine =>
    if accepted.contains candidate.spec.candidateId then
      match fromSimulatedOpportunity hexEncode candidate.opportunity.candidate batch with
      | .ok builderCandidate =>
        let inserted := engine.insert builderCandidate
        let later := insertAccepted batch accepted rest inserted.2
        ({ txHash := candidate.opportunity.record.txHash
           blockNumber := builderCandidate.simulation.blockNumber
           decision := inserted.1 } :: later.1, later.2)
      | .error _ => insertAccepted batch accepted rest engine
    else insertAccepted batch accepted rest engine

/-- Offers the engine the candidates whose results the scheduler accepted. -/
def applyBuilderAssemblyState (engine : AssemblyEngine) (task : SimulationTask)
    (outcome : RemoteSimulationOutcome) (acceptedCandidateIds : ExtTreeSet CandidateId) :
    List BuilderDecisionRecord × AssemblyEngine :=
  match outcome.simulationBatch with
  | none => ([], engine)
  | some batch => insertAccepted batch acceptedCandidateIds task.candidates engine

/-- The live pipeline with the assembly engine of the builder. -/
structure LiveAssembly where
  live : LiveState
  engine : AssemblyEngine

/-- The second loop of `apply_simulation_task_outcome`: logs the decisions until an event is not
taken. -/
def appendDecisions (chain : ChainRpcConfig) (finishedUnixMs : Int64) :
    List BuilderDecisionRecord → LiveState × QueueReplies → LiveState × QueueReplies
  | [], state => state
  | decision :: rest, state =>
    let appended := tryAppend chain finishedUnixMs
      (buildAssemblyDecisionPayload decision.txHash decision.blockNumber decision.decision) state
    if !appended.1 then appended.2 else appendDecisions chain finishedUnixMs rest appended.2

/-- What follows a finished simulation: its results, then the assembly, then the log. -/
def applySimulationTaskOutcome (state : LiveAssembly) (task : SimulationTask)
    (outcome : RemoteSimulationOutcome) (finishedUnixMs : Int64) (replies : QueueReplies) :
    LiveAssembly :=
  let applied := applySimulationResults task.chain outcome finishedUnixMs task.candidates
    (state.live, replies) ∅
  match applied.1 with
  | none => { state with live := applied.2.1 }
  | some accepted =>
    if accepted.isEmpty then { state with live := applied.2.1 }
    else
      let decided := applyBuilderAssemblyState state.engine task outcome accepted
      { live := (appendDecisions task.chain finishedUnixMs decided.1 applied.2).1
        engine := decided.2 }

/-! ## Sequential runs with simulations -/

/-- What happens next: a transaction is processed to its end, or the outcome of a task that was
enqueued is applied. The queues give their replies. -/
inductive LiveStep where
  | processed (arrival : Arrival) (replies : QueueReplies)
  | simulated (number : Nat) (outcome : RemoteSimulationOutcome) (finishedUnixMs : Int64)
    (replies : QueueReplies)
  deriving DecidableEq

namespace LiveAssembly

/-- A pipeline that has seen nothing. -/
def start (nextSeqId : UInt64) (assembly : AssemblyConfig) : LiveAssembly where
  live := { nextSeqId := nextSeqId }
  engine := { config := assembly }

/-- One arrival or one finished simulation, with the replies its queues give. -/
def step (config : SchedulerConfig) (state : LiveAssembly) : LiveStep → LiveAssembly
  | .processed arrival replies =>
    { state with
      live := ((processPendingHashWithFetchedTx arrival).run (serveReplying config)
        (state.live, replies)).2.1 }
  | .simulated number outcome finishedUnixMs replies =>
    match state.live.simulationQueue[number]? with
    | none => state
    | some task => applySimulationTaskOutcome state task outcome finishedUnixMs replies

/-- The state after the steps. -/
def run (config : SchedulerConfig) (state : LiveAssembly) (steps : List LiveStep) : LiveAssembly :=
  steps.foldl (step config) state

end LiveAssembly

end Mempulse.LiveRpc
