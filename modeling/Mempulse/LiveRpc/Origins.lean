import Mempulse.LiveRpc.Registration
import Mempulse.LiveRpc.SimulationWorkers

/-!
# Where the events of the log come from

A chain worker logs a candidate before it enqueues the task of the candidate, and a simulation worker
logs results for the candidates of its task only. Both follow a protocol, so the log of all workers,
however their calls interleave, spells the transaction of every candidate in its id, and has no
result of a candidate that was not queued before.
-/

set_option autoImplicit false

namespace Mempulse.LiveRpc

open Std EventLog Library Scheduler Storage Searcher Builder

/-! ## Candidates and their transactions -/

/-- The id of a candidate spells a strategy and the transaction. -/
def Spells (candidateId : CandidateId) (hash : TxHash) : Prop :=
  ∃ strategy : StrategyKind, candidateId = strategy.debug ++ ":" ++ formatFixedHex hash

/-- An id spells one transaction. -/
theorem Spells.unique {candidateId : CandidateId} {left right : TxHash}
    (first : Spells candidateId left) (second : Spells candidateId right) : left = right := by
  obtain ⟨strategy, rfl⟩ := first
  obtain ⟨other, same⟩ := second
  exact (spelledId_inj same).2

/-- The key of a task names its transaction. -/
theorem txHash_of_simulationTaskKey {left right : RemoteSimulationRequest}
    (same : simulationTaskKey left = simulationTaskKey right) : left.txHash = right.txHash := by
  have characters := congrArg String.toList same
  simp only [simulationTaskKey, String.toList_append, List.append_assoc] at characters
  refine formatFixedHex_inj (String.toList_inj.mp (List.append_inj characters ?_).1)
  rw [length_formatFixedHex, length_formatFixedHex]

/-- A candidate is one of the transaction and of the time of a request. -/
structure Carries (request : RemoteSimulationRequest) (candidate : RegisteredSimulationCandidate) :
    Prop where
  recorded : candidate.opportunity.record.txHash = request.txHash
  detected : candidate.opportunity.record.detectedUnixMs = request.detectedUnixMs
  ranked : candidate.opportunity.candidate.txHash = request.txHash
  issued : candidate.spec.txHash = request.txHash
  spelled : candidate.spec.candidateId =
    candidate.opportunity.candidate.strategy.debug ++ ":" ++ formatFixedHex request.txHash

theorem Carries.spells {request : RemoteSimulationRequest}
    {candidate : RegisteredSimulationCandidate} (carries : Carries request candidate) :
    Spells candidate.spec.candidateId request.txHash := ⟨_, carries.spelled⟩

/-! ## Chain workers -/

/-- What a chain worker may log: it names candidates by their ids and logs no results. -/
def ChainLogs : EventPayload → Prop
  | .candidateQueued queued => Spells queued.candidateId queued.txHash
  | .simDispatched dispatched => Spells dispatched.candidateId dispatched.txHash
  | .simCompleted _ | .assemblyDecisionApplied _ | .bundleSubmitted _ => False
  | _ => True

/-- The candidate that an event queues. -/
def queuedId : EventPayload → Option CandidateId
  | .candidateQueued queued => some queued.candidateId
  | _ => none

/-- The protocol of a chain worker: the phase lists the candidates it has queued, and a task may have
only those. -/
def announcing : Protocol PipelineOp PipelineReply (List CandidateId) where
  permits queued
    | .tryEnqueue op => ∀ payload ∈ loggedPayload op, ChainLogs payload
    | .enqueueSimulationTask task => ∀ candidate ∈ task.candidates,
        Carries task.request candidate ∧ candidate.spec.candidateId ∈ queued
    | _ => True
  promises _
    | .registerCandidates candidates, reply => ∀ specs, reply = .ok specs →
        ∀ entry ∈ specs.zip candidates,
          entry.1.candidateId = entry.2.candidateId ∧ entry.1.txHash = entry.2.txHash
    | _, _ => True
  advance queued
    | .tryEnqueue op, .ok () => queued ++ ((loggedPayload op).bind queuedId).toList
    | _, _ => queued

/-- The pipeline announces a candidate as queued before its simulation is dispatched. -/
abbrev Announces (queued : List CandidateId) (pipeline : Pipeline) : Prop :=
  pipeline.Conforms announcing (fun _ => True) queued

section Announces

variable {queued : List CandidateId} {next : Pipeline}

theorem announces_done (value : Except String Unit) : Announces queued (.done value) :=
  .done value trivial

theorem announces_tryEnqueueStorageWrite {op : StorageWriteOp}
    (permitted : ∀ payload ∈ loggedPayload op, ChainLogs payload)
    (onward : Announces (queued ++ ((loggedPayload op).bind queuedId).toList) next) :
    Announces queued (tryEnqueueStorageWrite op next) := by
  refine .call permitted fun reply _ => ?_
  match reply with
  | .ok () => exact onward
  | .error .queueFull | .error .queueClosed => exact .call trivial fun _ _ => announces_done _

/-- A write that appends no event. -/
theorem announces_write {op : StorageWriteOp} (silent : loggedPayload op = none)
    (onward : Announces queued next) : Announces queued (tryEnqueueStorageWrite op next) := by
  refine announces_tryEnqueueStorageWrite (fun payload appended => ?_) ?_
  · rw [silent] at appended
    cases appended
  · rw [silent, Option.bind_none, Option.toList_none, List.append_nil]
    exact onward

variable {chain : ChainRpcConfig} {nowUnixMs : Int64}

theorem announces_appendEvent {payload : EventPayload} (permitted : ChainLogs payload)
    (onward : Announces (queued ++ (queuedId payload).toList) next) :
    Announces queued (appendEvent chain nowUnixMs payload next) := by
  refine .call trivial fun seqId _ => announces_tryEnqueueStorageWrite ?_ onward
  intro other appended
  cases appended
  exact permitted

/-- Events that queue no candidate. -/
theorem announces_appendEvents {payloads : List EventPayload}
    (permitted : ∀ payload ∈ payloads, ChainLogs payload ∧ queuedId payload = none)
    (onward : Announces queued next) :
    Announces queued (appendEvents chain nowUnixMs payloads next) := by
  induction payloads with
  | nil => exact onward
  | cons payload rest ih =>
      obtain ⟨⟨first, silent⟩, others⟩ := List.forall_mem_cons.mp permitted
      refine announces_appendEvent first ?_
      rw [silent, Option.toList_none, List.append_nil]
      exact ih others

theorem announces_dispatchTasks
    {tasks : List (RemoteSimulationRequest × List RegisteredSimulationCandidate)}
    (carried : ∀ group ∈ tasks, ∀ candidate ∈ group.2,
      Carries group.1 candidate ∧ candidate.spec.candidateId ∈ queued) :
    Announces queued (dispatchTasks chain nowUnixMs tasks) := by
  induction tasks with
  | nil => exact announces_done _
  | cons group rest ih =>
      obtain ⟨here, others⟩ := List.forall_mem_cons.mp carried
      refine .call here fun reply _ => ?_
      match reply with
      | .error _ => exact announces_done _
      | .ok false => exact ih others
      | .ok true =>
          refine announces_appendEvents (fun payload member => ?_) (ih others)
          obtain ⟨candidate, listed, rfl⟩ := List.mem_map.mp member
          have carries := (here candidate listed).1
          exact ⟨show Spells _ _ from carries.issued.symm ▸ carries.spells, rfl⟩

/-- The groups of a worker's candidates: each has one key, and the candidates it has queued. -/
def Gathered (queued : List CandidateId) (nowUnixMs : Int64) (grouped : GroupedTasks) : Prop :=
  ∀ key group, grouped[key]? = some group → simulationTaskKey group.1 = key ∧
    group.1.detectedUnixMs = nowUnixMs ∧
      ∀ candidate ∈ group.2, Carries group.1 candidate ∧ candidate.spec.candidateId ∈ queued

/-- A request and a candidate that were prepared together. -/
structure Prepared (nowUnixMs : Int64) (entry : SimulationTaskSpec × PreparedSimulationTask) :
    Prop where
  detected : entry.2.request.detectedUnixMs = nowUnixMs
  carries : Carries entry.2.request (registeredCandidate entry)
  queued : entry.2.candidate.candidateId = entry.1.candidateId
  named : entry.2.candidate.txHash = entry.1.txHash

theorem Carries.of_key {first request : RemoteSimulationRequest}
    {candidate : RegisteredSimulationCandidate} (carries : Carries request candidate)
    (key : simulationTaskKey first = simulationTaskKey request)
    (detected : first.detectedUnixMs = request.detectedUnixMs) : Carries first candidate := by
  have hash := txHash_of_simulationTaskKey key
  exact ⟨carries.recorded.trans hash.symm, carries.detected.trans detected.symm,
    carries.ranked.trans hash.symm, carries.issued.trans hash.symm, hash ▸ carries.spelled⟩

theorem Gathered.push {grouped : GroupedTasks} (gathered : Gathered queued nowUnixMs grouped)
    {entry : SimulationTaskSpec × PreparedSimulationTask} (prepared : Prepared nowUnixMs entry) :
    Gathered (queued ++ [entry.2.candidate.candidateId]) nowUnixMs
      (grouped.push entry.2.request (registeredCandidate entry)) := by
  have grown : Gathered (queued ++ [entry.2.candidate.candidateId]) nowUnixMs grouped := by
    intro key group found
    obtain ⟨same, detected, carried⟩ := gathered key group found
    exact ⟨same, detected, fun candidate member => ⟨(carried candidate member).1,
      List.mem_append_left _ (carried candidate member).2⟩⟩
  have listed : (registeredCandidate entry).spec.candidateId ∈
      queued ++ [entry.2.candidate.candidateId] :=
    List.mem_append_right _ (List.mem_singleton.mpr prepared.queued.symm)
  intro key group found
  rcases GroupedTasks.push_cases found with
    stored | ⟨here, rfl | ⟨first, candidates, known, rfl⟩⟩
  · exact grown key group stored
  · refine ⟨here, prepared.detected, fun candidate member => ?_⟩
    rw [List.mem_singleton.mp member]
    exact ⟨prepared.carries, listed⟩
  · obtain ⟨same, detected, carried⟩ := grown key _ known
    refine ⟨same, detected, fun candidate member => ?_⟩
    rcases List.mem_append.mp member with before | now
    · exact carried candidate before
    · rw [List.mem_singleton.mp now]
      exact ⟨prepared.carries.of_key (same.trans here.symm)
        (detected.trans prepared.detected.symm), listed⟩

theorem announces_queueCandidates {onward : GroupedTasks → Pipeline}
    (continues : ∀ queued grouped, Gathered queued nowUnixMs grouped →
      Announces queued (onward grouped))
    {entries : List (SimulationTaskSpec × PreparedSimulationTask)}
    (prepared : ∀ entry ∈ entries, Prepared nowUnixMs entry) {grouped : GroupedTasks}
    (gathered : Gathered queued nowUnixMs grouped) :
    Announces queued (queueCandidates chain nowUnixMs onward grouped entries) := by
  induction entries generalizing queued grouped with
  | nil => exact continues queued grouped gathered
  | cons entry rest ih =>
      obtain ⟨here, others⟩ := List.forall_mem_cons.mp prepared
      refine announces_appendEvent ?_ (ih others (gathered.push here))
      have spells := here.carries.spells
      rw [← here.carries.issued] at spells
      exact show Spells _ _ from here.queued ▸ here.named ▸ spells

/-- What is prepared for an opportunity, with a task that the scheduler issued for it. -/
theorem prepared_of_mem {executable simulationContext : List ValidatedTransaction}
    {chainId : Option UInt64} {specs : List SimulationTaskSpec}
    {prepared : List PreparedSimulationTask}
    (built : prepared = prepareSimulationTasks
      (buildExecutableOpportunities executable nowUnixMs chainId) simulationContext)
    (issued : ∀ entry ∈ specs.zip (prepared.map (·.candidate)),
      entry.1.candidateId = entry.2.candidateId ∧ entry.1.txHash = entry.2.txHash)
    {entry : SimulationTaskSpec × PreparedSimulationTask} (member : entry ∈ specs.zip prepared) :
    Prepared nowUnixMs entry := by
  obtain ⟨spec, task⟩ := entry
  have listed : task ∈ prepared := (List.of_mem_zip member).2
  rw [built] at listed
  obtain ⟨opportunity, ranked, requested⟩ := List.mem_filterMap.mp listed
  obtain ⟨request, asked, rfl⟩ := Option.map_eq_some_iff.mp requested
  have zipped := List.mem_map_of_mem (f := Prod.map id PreparedSimulationTask.candidate) member
  rw [← List.zip_map_right] at zipped
  obtain ⟨named, hash⟩ := issued _ zipped
  have hashes := (mem_buildExecutableOpportunities ranked).1
  have detected : opportunity.record.detectedUnixMs = nowUnixMs := by
    unfold buildExecutableOpportunities at ranked
    split at ranked
    · cases ranked
    · obtain ⟨candidate, -, rfl⟩ := List.mem_map.mp ranked
      rfl
  have fields : request.txHash = opportunity.record.txHash ∧
      request.detectedUnixMs = opportunity.record.detectedUnixMs := by
    unfold buildRemoteSimulationRequest at asked
    obtain ⟨txs, -, rest⟩ := Option.bind_eq_some_iff.mp asked
    cases rest
    exact ⟨rfl, rfl⟩
  refine ⟨fields.2.trans detected, ⟨fields.1.symm, fields.2.symm, hashes.symm.trans fields.1.symm,
    hash.trans fields.1.symm, ?_⟩, named.symm, hash.symm⟩
  rw [fields.1]
  exact named

theorem announces_registerAndDispatch {executable simulationContext : List ValidatedTransaction}
    {chainId : Option UInt64} :
    Announces queued (registerAndDispatch chain nowUnixMs (prepareSimulationTasks
      (buildExecutableOpportunities executable nowUnixMs chainId) simulationContext)) := by
  unfold registerAndDispatch
  split
  · exact announces_done _
  · refine .call trivial fun reply promised => ?_
    match reply with
    | .error _ => exact announces_done _
    | .ok specs =>
        refine announces_queueCandidates (fun queued grouped gathered => ?_)
          (fun entry member => prepared_of_mem rfl (promised specs rfl) member)
          fun key group found => ?_
        · refine announces_dispatchTasks fun group member => ?_
          obtain ⟨entry, listed, rfl⟩ := List.mem_map.mp member
          exact (gathered entry.1 entry.2 (mem_toList.mp listed)).2.2
        · rw [ExtTreeMap.getElem?_empty] at found
          cases found

variable {arrival : Arrival}

theorem announces_appendObservation (onward : Announces queued next) :
    Announces queued (appendObservation arrival next) := by
  have seen : ∀ payload ∈ loggedPayload (.appendPayload arrival.chain.sourceId
      (.txSeen
        { hash := arrival.hash, peerId := "rpc-ws"
          seenAtUnixMs := arrival.observation.observedAtUnixMs
          seenAtMonoNs := arrival.observation.observedAtMonoNs })
      arrival.observation.observedAtUnixMs arrival.observation.observedAtMonoNs),
      ChainLogs payload := by
    intro payload appended
    cases appended
    trivial
  refine .call trivial fun seqId _ => announces_tryEnqueueStorageWrite seen ?_
  have fetched : Announces queued (appendEvent arrival.chain arrival.processedAtUnixMs
      (.txFetched { hash := arrival.hash, fetchedAtUnixMs := arrival.processedAtUnixMs })
        next) := by
    refine announces_appendEvent (show ChainLogs _ from trivial) ?_
    exact (List.append_nil queued).symm ▸ onward
  exact (List.append_nil queued).symm ▸ announces_write rfl fetched

theorem announces_exploreOpportunities {chainId : Option UInt64}
    {executable simulationContext : List ValidatedTransaction} :
    Announces queued (exploreOpportunities arrival chainId executable simulationContext) := by
  have announced : ∀ queued, Announces queued (appendEvents arrival.chain arrival.processedAtUnixMs
      (((buildExecutableOpportunities executable arrival.processedAtUnixMs chainId).map
        (·.record)).map buildOpportunityDetectedPayload)
      (registerAndDispatch arrival.chain arrival.processedAtUnixMs
        (prepareSimulationTasks
          (buildExecutableOpportunities executable arrival.processedAtUnixMs chainId)
            simulationContext))) := by
    intro queued
    refine announces_appendEvents (fun payload member => ?_) announces_registerAndDispatch
    obtain ⟨record, -, rfl⟩ := List.mem_map.mp member
    exact ⟨trivial, rfl⟩
  unfold exploreOpportunities
  dsimp only
  split
  · exact announced queued
  · exact .call trivial fun _ _ => announced queued

theorem announces_readyTransactions {queueTransitions : List SchedulerQueueTransition}
    {onward : List ValidatedTransaction → Pipeline}
    (continues : ∀ executable, Announces queued (onward executable)) :
    Announces queued (readyTransactionsForQueueTransitions queueTransitions onward) := by
  unfold readyTransactionsForQueueTransitions
  dsimp only
  split
  · exact continues []
  · exact .call trivial fun reply _ => continues reply

theorem announces_readyFrontier {queueTransitions : List SchedulerQueueTransition}
    {onward : List ValidatedTransaction → Pipeline}
    (continues : ∀ simulationContext, Announces queued (onward simulationContext)) :
    Announces queued (readyFrontierForQueueTransitions queueTransitions onward) := by
  unfold readyFrontierForQueueTransitions
  split
  · exact .call trivial fun reply _ => continues reply
  · exact continues []

theorem announces_appendReplacement {txHash : TxHash} {replacedHash : Option TxHash}
    (onward : Announces queued next) :
    Announces queued (appendReplacement arrival txHash replacedHash next) := by
  unfold appendReplacement
  split
  · exact onward
  · refine announces_appendEvent (show ChainLogs _ from trivial) (.call trivial fun reply _ => ?_)
    match reply with
    | .ok () => exact (List.append_nil queued).symm ▸ onward
    | .error _ => exact announces_done _

theorem announces_persistTransaction {tx : LiveTx} {decision : SchedulerPersistenceDecision}
    {queueTransitions : List SchedulerQueueTransition} :
    Announces queued (persistTransaction arrival tx decision queueTransitions) := by
  refine announces_write rfl (announces_write rfl (announces_appendReplacement ?_))
  refine announces_appendEvents (fun payload member => ?_)
    (announces_appendEvents (fun payload member => ?_)
      (announces_readyTransactions fun executable => announces_readyFrontier fun context =>
        announces_appendEvents (fun payload member => ?_) announces_exploreOpportunities))
  · split at member
    · cases List.mem_singleton.mp member
      exact ⟨trivial, rfl⟩
    · cases member
  · obtain ⟨reason, -, rfl⟩ := List.mem_map.mp member
    exact ⟨trivial, rfl⟩
  · obtain ⟨transition, -, rfl⟩ := List.mem_map.mp member
    unfold queueTransitionPayload
    split <;> exact ⟨trivial, rfl⟩

/-- **A chain worker queues a candidate before it enqueues the task of the candidate.** -/
theorem announces_processArrivals (arrivals : List Arrival) :
    Announces queued (processArrivals arrivals) := by
  induction arrivals generalizing queued with
  | nil => exact announces_done _
  | cons arrival rest ih =>
      have processed : Announces queued (processPendingHashWithFetchedTx arrival) := by
        unfold processPendingHashWithFetchedTx
        split
        · exact announces_appendObservation (announces_done _)
        · refine .call trivial fun reply _ => ?_
          match reply with
          | .ok outcome => exact announces_appendObservation announces_persistTransaction
          | .error .queueFull => exact announces_appendObservation announces_persistTransaction
          | .error .queueClosed => exact announces_done _
      refine processed.bind fun value queued _ => ?_
      match value with
      | .ok () => exact ih
      | .error _ => exact announces_done _

end Announces

/-! ## Simulation workers -/

/-- What a simulation worker may log for the candidate it is at. -/
def SimulationLogs (task : SimulationTask) (subject : Option CandidateId) : EventPayload → Prop
  | .simCompleted completed =>
    completed.hash = task.request.txHash ∧
      ∃ candidate ∈ task.candidates, subject = some candidate.spec.candidateId
  | .bundleSubmitted submitted =>
    submitted.bundleId = buildBundleId task.request.txHash task.request.detectedUnixMs ∧
      ∃ candidate ∈ task.candidates, subject = some candidate.spec.candidateId
  | .assemblyDecisionApplied applied =>
    applied.txHash = task.request.txHash ∧ Spells applied.candidateId task.request.txHash
  | _ => False

/-- The candidate that a decision is about. -/
def decidedId : AssemblyDecision → CandidateId
  | .inserted candidateId _ | .rejected candidateId _ => candidateId

/-- The protocol of a simulation worker: the phase is the candidate it is at. -/
def reporting (task : SimulationTask) :
    Protocol SimulationOp SimulationReply (Option CandidateId) where
  permits subject
    | .recordSimulationStatus snapshot => snapshot.id = simIdForRequest task.request
    | .tryEnqueue op => ∀ payload ∈ loggedPayload op, SimulationLogs task subject payload
    | _ => True
  promises _
    | .insertCandidate candidate, decision => decidedId decision = candidate.candidateId
    | _, _ => True
  advance subject op _ := LiveSystem.subjectAfter subject op

/-- The worker reports of its own task, and decides only about the candidate it is at. -/
abbrev Reports (task : SimulationTask) (subject : Option CandidateId) (simulation : Simulation) :
    Prop :=
  simulation.Conforms (reporting task) (fun _ => True) subject

section Reports

variable {task : SimulationTask} {subject : Option CandidateId} {next : Simulation}
  {chain : ChainRpcConfig} {finishedUnixMs : Int64}

theorem reports_done (value : Except String Unit) : Reports task subject (.done value) :=
  .done value trivial

theorem reports_appendEvent {payload : EventPayload}
    (permitted : SimulationLogs task subject payload) (onward : Reports task subject next) :
    Reports task subject (Simulation.appendEvent chain finishedUnixMs payload next) := by
  refine .call trivial fun seqId _ => .call ?_ fun reply _ => ?_
  · intro other appended
    cases appended
    exact permitted
  · match reply with
    | .ok () => exact onward
    | .error .queueFull | .error .queueClosed => exact .call trivial fun _ _ => reports_done _

theorem reports_applyResults (outcome : RemoteSimulationOutcome)
    {onward : ExtTreeSet CandidateId → Simulation}
    (continues : ∀ subject accepted, Reports task subject (onward accepted))
    {candidates : List RegisteredSimulationCandidate}
    (listed : ∀ candidate ∈ candidates, candidate ∈ task.candidates)
    (carried : ∀ candidate ∈ task.candidates, Carries task.request candidate)
    (accepted : ExtTreeSet CandidateId) :
    Reports task subject
      (Simulation.applyResults chain outcome finishedUnixMs onward candidates accepted) := by
  induction candidates generalizing subject accepted with
  | nil => exact continues subject accepted
  | cons candidate rest ih =>
      obtain ⟨here, others⟩ := List.forall_mem_cons.mp listed
      have carries := carried candidate here
      refine .call trivial fun reply _ => ?_
      match reply with
      | .error _ => exact reports_done _
      | .ok applied =>
          dsimp only
          split
          · exact .call trivial fun _ _ => ih others accepted
          · refine reports_appendEvent ⟨carries.recorded, candidate, here, rfl⟩ ?_
            split
            · refine reports_appendEvent ⟨?_, candidate, here, rfl⟩ (ih others _)
              rw [bundleIdForOpportunity, carries.recorded, carries.detected]
            · exact ih others _

theorem reports_appendDecisions {decisions : List BuilderDecisionRecord}
    (named : ∀ record ∈ decisions, record.txHash = task.request.txHash ∧
      Spells (decidedId record.decision) task.request.txHash) :
    Reports task subject (Simulation.appendDecisions chain finishedUnixMs decisions) := by
  induction decisions with
  | nil => exact reports_done _
  | cons record rest ih =>
      obtain ⟨⟨hash, spells⟩, others⟩ := List.forall_mem_cons.mp named
      refine reports_appendEvent ?_ (ih others)
      obtain ⟨txHash, blockNumber, decision⟩ := record
      cases decision with
      | inserted candidateId replaced => exact ⟨hash, spells⟩
      | rejected candidateId reason => exact ⟨hash, spells⟩

/-- The id of an assembly candidate spells its strategy and its transaction. -/
theorem candidateId_fromSimulatedOpportunity {opportunity : OpportunityCandidate}
    {encode : List UInt8 → String} {simulation : SimulationBatchResult}
    {candidate : AssemblyCandidate} (documented : HexEncodes encode)
    (built : fromSimulatedOpportunity encode opportunity simulation = .ok candidate) :
    candidate.candidateId =
      opportunity.strategy.debug ++ ":" ++ formatFixedHex opportunity.txHash := by
  dsimp only [fromSimulatedOpportunity] at built
  cases results : joinSimulationResults simulation.txResults true 0
      (opportunityHashes opportunity) with
  | error error =>
      rw [results] at built
      cases built
  | ok totals =>
      rw [results] at built
      cases built
      have marked := documented.marked_hash opportunity.txHash
      rw [formatFixedHex, ← marked]
      simp [← String.toList_inj]

theorem reports_insertAccepted {batch : SimulationBatchResult} (accepted : ExtTreeSet CandidateId)
    {candidates : List RegisteredSimulationCandidate}
    (listed : ∀ candidate ∈ candidates, candidate ∈ task.candidates)
    (carried : ∀ candidate ∈ task.candidates, Carries task.request candidate)
    {decisions : List BuilderDecisionRecord}
    (named : ∀ record ∈ decisions, record.txHash = task.request.txHash ∧
      Spells (decidedId record.decision) task.request.txHash) :
    Reports task subject (Simulation.insertAccepted batch accepted
      (Simulation.appendDecisions chain finishedUnixMs) candidates decisions) := by
  induction candidates generalizing decisions with
  | nil => exact reports_appendDecisions named
  | cons candidate rest ih =>
      obtain ⟨here, others⟩ := List.forall_mem_cons.mp listed
      have carries := carried candidate here
      unfold Simulation.insertAccepted
      split
      · split
        case h_1 builderCandidate built =>
          refine .call trivial fun decision promised => ih others fun record member => ?_
          rcases List.mem_append.mp member with before | now
          · exact named record before
          · cases List.mem_singleton.mp now
            have spells := candidateId_fromSimulatedOpportunity hexEncodes_hexEncode built
            rw [carries.ranked, ← promised] at spells
            exact ⟨carries.recorded, _, spells⟩
        case h_2 => exact ih others named
      · exact ih others named

/-- **A simulation worker reports on the candidates of its task.** -/
theorem reports_ofTask (carried : ∀ candidate ∈ task.candidates, Carries task.request candidate)
    (simulated : Simulated) (latencyMs : UInt64) :
    Reports task subject (.ofTask task (simulateRemoteRequest task.request simulated latencyMs)
      finishedUnixMs) := by
  refine .call rfl fun _ _ => reports_applyResults _ (fun subject accepted => ?_)
    (fun candidate member => member) carried ∅
  split
  · exact reports_done _
  · split
    · exact reports_done _
    · exact reports_insertAccepted accepted (fun candidate member => member) carried
        fun record member => nomatch member

end Reports

end Mempulse.LiveRpc
