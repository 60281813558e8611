import Mempulse.LiveRpc.Origins

/-!
# The log of all workers

What holds of the log in every run of the chain workers and the simulation workers, whatever the
order of their calls and whichever calls are refused.
-/

set_option autoImplicit false

namespace Mempulse.LiveRpc

open Std EventLog Library Scheduler Storage Searcher Builder

/-- The candidates that a log queues. -/
def queuedIds (log : List LogEntry) : List CandidateId :=
  log.filterMap fun entry => queuedId entry.payload

/-- An event comes from a chain worker, or from a simulation worker with a task whose candidates were
queued before. -/
def LogEntry.Sourced (tasks : List SimulationTask) (earlier : List LogEntry) (entry : LogEntry) :
    Prop :=
  match entry.origin with
  | none => ChainLogs entry.payload
  | some (task, subject) => task ∈ tasks ∧ SimulationLogs task subject entry.payload ∧
      ∀ candidate ∈ task.candidates, candidate.spec.candidateId ∈ queuedIds earlier

/-- A log beside the tasks that were enqueued. -/
structure Chronicled (tasks : List SimulationTask) (log : List LogEntry) : Prop where
  entries : ∀ earlier entry later, log = earlier ++ entry :: later → entry.Sourced tasks earlier
  tasks : ∀ task ∈ tasks, ∀ candidate ∈ task.candidates,
    Carries task.request candidate ∧ candidate.spec.candidateId ∈ queuedIds log

/-- The statuses as the recorded ones left them. -/
def statusesOf (recorded : List (SimulationTask × LiveRpcSimulationStatusSnapshot)) :
    ExtTreeMap String LiveRpcSimulationStatusSnapshot :=
  recorded.foldl (fun statuses pair => statuses.insert pair.2.id pair.2) ∅

theorem statusesOf_concat (recorded : List (SimulationTask × LiveRpcSimulationStatusSnapshot))
    (pair : SimulationTask × LiveRpcSimulationStatusSnapshot) :
    statusesOf (recorded ++ [pair]) = (statusesOf recorded).insert pair.2.id pair.2 := by
  rw [statusesOf, List.foldl_append]
  rfl

/-- The log tells what was logged, and no program under way will break it. -/
structure LiveSystem.Sound (system : LiveSystem) : Prop where
  logged : system.live.loggedPayloads = system.log.map (·.payload)
  chronicled : Chronicled system.live.simulationQueue system.log
  workers : ∀ program ∈ system.workers, ∃ queued,
    (∀ id ∈ queued, id ∈ queuedIds system.log) ∧ Announces queued program
  assignments : ∀ assignment ∈ system.assignments,
    assignment.task ∈ system.live.simulationQueue ∧
      Reports assignment.task assignment.subject assignment.program
  recorded : ∀ pair ∈ system.recorded,
    pair.1 ∈ system.live.simulationQueue ∧ pair.2.id = simIdForRequest pair.1.request
  statuses : system.statuses.byId = statusesOf system.recorded

section Chronicled

variable {tasks : List SimulationTask} {log : List LogEntry}

theorem queuedIds_append (earlier later : List LogEntry) :
    queuedIds (earlier ++ later) = queuedIds earlier ++ queuedIds later :=
  List.filterMap_append

theorem LogEntry.Sourced.mono {earlier : List LogEntry} {entry : LogEntry}
    (sourced : entry.Sourced tasks earlier) (more : List SimulationTask) :
    entry.Sourced (tasks ++ more) earlier := by
  unfold LogEntry.Sourced at sourced ⊢
  split at sourced
  · exact sourced
  · exact ⟨List.mem_append_left _ sourced.1, sourced.2⟩

/-- An event is logged. -/
theorem Chronicled.append (chronicled : Chronicled tasks log) {entry : LogEntry}
    (sourced : entry.Sourced tasks log) : Chronicled tasks (log ++ [entry]) := by
  refine ⟨fun earlier other later whole => ?_, fun task member candidate listed => ?_⟩
  · rcases split_append_singleton whole with ⟨rfl, rfl, rfl⟩ | ⟨rest, rfl, before⟩
    · exact sourced
    · exact chronicled.entries earlier other rest before
  · obtain ⟨carries, queued⟩ := chronicled.tasks task member candidate listed
    rw [queuedIds_append]
    exact ⟨carries, List.mem_append_left _ queued⟩

/-- A task with queued candidates is enqueued. -/
theorem Chronicled.enqueue (chronicled : Chronicled tasks log) {task : SimulationTask}
    (carried : ∀ candidate ∈ task.candidates,
      Carries task.request candidate ∧ candidate.spec.candidateId ∈ queuedIds log) :
    Chronicled (tasks ++ [task]) log := by
  refine ⟨fun earlier entry later whole => ?_, fun other member => ?_⟩
  · exact (chronicled.entries earlier entry later whole).mono [task]
  · rcases List.mem_append.mp member with before | now
    · exact chronicled.tasks other before
    · rw [List.mem_singleton.mp now]
      exact carried

end Chronicled

/-! ## What a call keeps -/

namespace LiveSystem

variable {config : SchedulerConfig} {system next : LiveSystem}

/-- A call leaves everything as it was, or adds to the log or to the simulation queue. -/
structure Extends (system next : LiveSystem) : Prop where
  log : ∃ more, next.log = system.log ++ more
  tasks : ∃ more, next.live.simulationQueue = system.live.simulationQueue ++ more

theorem Extends.rfl : Extends system system :=
  ⟨⟨[], (List.append_nil _).symm⟩, ⟨[], (List.append_nil _).symm⟩⟩

theorem Extends.queued (onward : Extends system next) {id : CandidateId}
    (queued : id ∈ queuedIds system.log) : id ∈ queuedIds next.log := by
  obtain ⟨more, log⟩ := onward.log
  rw [log, queuedIds_append]
  exact List.mem_append_left _ queued

theorem Extends.task (onward : Extends system next) {task : SimulationTask}
    (member : task ∈ system.live.simulationQueue) : task ∈ next.live.simulationQueue := by
  obtain ⟨more, tasks⟩ := onward.tasks
  rw [tasks]
  exact List.mem_append_left _ member

/-- The shared part after a call. -/
structure Served (system next : LiveSystem) : Prop extends Extends system next where
  logged : next.live.loggedPayloads = next.log.map (·.payload)
  chronicled : Chronicled next.live.simulationQueue next.log
  workers : next.workers = system.workers
  assignments : next.assignments = system.assignments
  recorded : ∀ pair ∈ next.recorded,
    pair.1 ∈ next.live.simulationQueue ∧ pair.2.id = simIdForRequest pair.1.request
  statuses : next.statuses.byId = statusesOf next.recorded

theorem Sound.served (sound : system.Sound) : Served system system where
  toExtends := .rfl
  logged := sound.logged
  chronicled := sound.chronicled
  workers := rfl
  assignments := rfl
  recorded := sound.recorded
  statuses := sound.statuses

/-- One chain worker moves on. -/
theorem Sound.setWorker (sound : system.Sound) (served : Served system next) (index : Nat)
    {program : Pipeline} {queued : List CandidateId}
    (listed : ∀ id ∈ queued, id ∈ queuedIds next.log) (announces : Announces queued program) :
    Sound { next with workers := next.workers.set index program } where
  logged := served.logged
  chronicled := served.chronicled
  workers other member := by
    rcases List.mem_or_eq_of_mem_set member with before | rfl
    · rw [served.workers] at before
      obtain ⟨queued, listed, announces⟩ := sound.workers other before
      exact ⟨queued, fun id member => served.queued (listed id member), announces⟩
    · exact ⟨queued, listed, announces⟩
  assignments assignment member := by
    rw [served.assignments] at member
    exact (sound.assignments assignment member).imp_left served.task
  recorded := served.recorded
  statuses := served.statuses

/-- One simulation worker moves on. -/
theorem Sound.setAssignment (sound : system.Sound) (served : Served system next) (index : Nat)
    {assignment : Assignment} (taken : assignment.task ∈ next.live.simulationQueue)
    (reports : Reports assignment.task assignment.subject assignment.program) :
    Sound { next with assignments := next.assignments.set index assignment } where
  logged := served.logged
  chronicled := served.chronicled
  workers program member := by
    rw [served.workers] at member
    obtain ⟨queued, listed, announces⟩ := sound.workers program member
    exact ⟨queued, fun id member => served.queued (listed id member), announces⟩
  assignments other member := by
    rcases List.mem_or_eq_of_mem_set member with before | rfl
    · rw [served.assignments] at before
      exact (sound.assignments other before).imp_left served.task
    · exact ⟨taken, reports⟩
  recorded := served.recorded
  statuses := served.statuses

/-- A refused call keeps the promises, and queues no candidate. -/
theorem promises_of_refused {refusal : Refusal} {op : PipelineOp} {reply : PipelineReply op}
    (refused : refusal.pipelineReply op = some reply) (queued : List CandidateId) :
    announcing.promises queued op reply ∧ announcing.advance queued op reply = queued := by
  cases op with
  | registerCandidates candidates =>
      cases refused
      exact ⟨(fun specs never => nomatch never), rfl⟩
  | admitOutcome tx | tryEnqueue write | invalidateCandidateHash hash =>
      cases refused
      exact ⟨trivial, rfl⟩
  | enqueueSimulationTask task => exact ⟨trivial, rfl⟩
  | fetchAddSeqId | observeDropReason reason | getPendingTransactions hashes | snapshotReady
  | observeSearcherBatch executable => cases refused

/-- The scheduler issues the tasks of the candidates it registers. -/
theorem zip_registerCandidates (state : SchedulerState) (candidates : List SchedulerCandidate) :
    ∀ entry ∈ (state.registerCandidates candidates).1.zip candidates,
      entry.1.candidateId = entry.2.candidateId ∧ entry.1.txHash = entry.2.txHash := by
  induction candidates generalizing state with
  | nil => exact fun entry never => nomatch never
  | cons candidate rest ih =>
      intro entry member
      rcases List.mem_cons.mp member with rfl | later
      · exact ⟨rfl, rfl⟩
      · exact ih _ entry later

/-- A write is enqueued, and its event logged. -/
theorem Sound.enqueueWrite (sound : system.Sound) (write : StorageWriteOp)
    (origin : Option (SimulationTask × Option CandidateId))
    (sourced : ∀ payload ∈ loggedPayload write,
      LogEntry.Sourced system.live.simulationQueue system.log
        { payload := payload, origin := origin }) :
    Served system { system with
      live := { system.live with storageQueue := system.live.storageQueue ++ [write] }
      log := system.log ++ (loggedPayload write).toList.map fun payload =>
        { payload := payload, origin := origin } } := by
  refine ⟨⟨⟨_, rfl⟩, ⟨[], (List.append_nil _).symm⟩⟩, ?_, ?_, rfl, rfl, sound.recorded,
    sound.statuses⟩
  · refine (loggedPayloads_enqueue system.live write).trans ?_
    rw [sound.logged, List.map_append, List.map_map]
    exact congrArg _ (List.map_id _).symm
  · cases appended : loggedPayload write with
    | none =>
        rw [Option.toList_none, List.map_nil, List.append_nil]
        exact sound.chronicled
    | some payload => exact sound.chronicled.append (sourced payload appended)

/-- The scheduler or the counter moves on. -/
theorem Sound.keepLog (sound : system.Sound) (scheduler : SchedulerState) (nextSeqId : UInt64) :
    Served system { system with
      live := { system.live with scheduler := scheduler, nextSeqId := nextSeqId } } where
  toExtends := ⟨⟨[], (List.append_nil _).symm⟩, ⟨[], (List.append_nil _).symm⟩⟩
  logged := sound.logged
  chronicled := sound.chronicled
  workers := rfl
  assignments := rfl
  recorded := sound.recorded
  statuses := sound.statuses

/-- **What a call of a chain worker does.** -/
theorem Sound.servePipeline (sound : system.Sound) {op : PipelineOp} {queued : List CandidateId}
    (listed : ∀ id ∈ queued, id ∈ queuedIds system.log)
    (permitted : announcing.permits queued op) :
    Served system (system.servePipeline config op).2 ∧
      announcing.promises queued op (system.servePipeline config op).1 ∧
      ∀ id ∈ announcing.advance queued op (system.servePipeline config op).1,
        id ∈ queuedIds (system.servePipeline config op).2.log := by
  have silent : system.log ++ [] = system.log := List.append_nil _
  cases op with
  | tryEnqueue write =>
      have served := sound.enqueueWrite write none permitted
      refine ⟨served, trivial, fun id member => ?_⟩
      rcases List.mem_append.mp member with before | now
      · exact served.queued (listed id before)
      · obtain ⟨payload, appended, queues⟩ := Option.bind_eq_some_iff.mp (Option.mem_toList.mp now)
        change id ∈ queuedIds (system.log ++ (loggedPayload write).toList.map _)
        rw [queuedIds_append, appended]
        exact List.mem_append_right _ (List.mem_filterMap.mpr ⟨_, List.mem_cons_self, queues⟩)
  | enqueueSimulationTask task =>
      have carried : ∀ candidate ∈ task.candidates, Carries task.request candidate ∧
          candidate.spec.candidateId ∈ queuedIds system.log := fun candidate member =>
        (permitted candidate member).imp_right (listed _)
      unfold LiveSystem.servePipeline
      dsimp only
      rw [silent]
      refine ⟨⟨⟨⟨[], silent.symm⟩, ⟨[task], rfl⟩⟩, sound.logged, sound.chronicled.enqueue carried,
        rfl, rfl, fun pair member => ?_, sound.statuses⟩, trivial, listed⟩
      exact (sound.recorded pair member).imp_left (List.mem_append_left _)
  | registerCandidates candidates =>
      unfold LiveSystem.servePipeline
      dsimp only
      rw [silent]
      refine ⟨sound.keepLog _ system.live.nextSeqId, fun specs same => ?_, listed⟩
      cases same
      exact zip_registerCandidates system.live.scheduler candidates
  | admitOutcome tx | invalidateCandidateHash hash =>
      unfold LiveSystem.servePipeline
      dsimp only
      rw [silent]
      exact ⟨sound.keepLog _ system.live.nextSeqId, trivial, listed⟩
  | fetchAddSeqId =>
      unfold LiveSystem.servePipeline
      dsimp only
      rw [silent]
      exact ⟨sound.keepLog system.live.scheduler _, trivial, listed⟩
  | observeDropReason reason | getPendingTransactions hashes | snapshotReady
  | observeSearcherBatch executable =>
      unfold LiveSystem.servePipeline
      dsimp only
      rw [silent]
      exact ⟨sound.served, trivial, listed⟩

/-- A refused call keeps the promises. -/
theorem promises_of_refused_simulation {refusal : Refusal} {op : SimulationOp}
    {reply : SimulationReply op} (refused : refusal.simulationReply op = some reply)
    (task : SimulationTask) (subject : Option CandidateId) :
    (reporting task).promises subject op reply := by
  cases op with
  | insertCandidate candidate => cases refused
  | recordSimulationStatus snapshot | applySimulationResult result | observeSimulationStaleDrop
  | fetchAddSeqId | tryEnqueue write | observeDropReason reason => trivial

/-- A decision is about the candidate that was to be inserted. -/
theorem decidedId_insert (engine : AssemblyEngine) (candidate : AssemblyCandidate) :
    decidedId (engine.insert candidate).1 = candidate.candidateId := by
  rcases engine.insert_cases candidate with ⟨reason, rejected⟩ | ⟨-, -, -, metrics, inserted⟩
  · rw [rejected]
    rfl
  · rw [inserted]
    rfl

/-- **What a call of a simulation worker does.** -/
theorem Sound.serveSimulation (sound : system.Sound) {assignment : Assignment}
    (taken : assignment.task ∈ system.live.simulationQueue) {op : SimulationOp}
    (permitted : (reporting assignment.task).permits assignment.subject op) :
    Served system (system.serveSimulation assignment op).2 ∧
      (reporting assignment.task).promises assignment.subject op
        (system.serveSimulation assignment op).1 := by
  cases op with
  | recordSimulationStatus snapshot =>
      refine ⟨⟨⟨⟨[], (List.append_nil _).symm⟩, ⟨[], (List.append_nil _).symm⟩⟩, sound.logged,
        sound.chronicled, rfl, rfl, fun pair member => ?_, ?_⟩, trivial⟩
      · rcases List.mem_append.mp member with before | now
        · exact sound.recorded pair before
        · rw [List.mem_singleton.mp now]
          exact ⟨taken, permitted⟩
      · change system.statuses.byId.insert snapshot.id snapshot =
          statusesOf (system.recorded ++ [(assignment.task, snapshot)])
        rw [statusesOf_concat, sound.statuses]
  | applySimulationResult result =>
      exact ⟨sound.keepLog _ system.live.nextSeqId, trivial⟩
  | fetchAddSeqId => exact ⟨sound.keepLog system.live.scheduler _, trivial⟩
  | tryEnqueue write =>
      refine ⟨sound.enqueueWrite write _ fun payload appended => ?_, trivial⟩
      exact ⟨taken, permitted payload appended, fun candidate member =>
        (sound.chronicled.tasks assignment.task taken candidate member).2⟩
  | insertCandidate candidate =>
      exact ⟨⟨⟨⟨[], (List.append_nil _).symm⟩, ⟨[], (List.append_nil _).symm⟩⟩, sound.logged,
        sound.chronicled, rfl, rfl, sound.recorded, sound.statuses⟩,
        decidedId_insert system.engine candidate⟩
  | observeSimulationStaleDrop | observeDropReason reason => exact ⟨sound.served, trivial⟩

/-! ## Runs -/

theorem Sound.start (nextSeqId : UInt64) (assembly : AssemblyConfig) (jobs : List (List Arrival)) :
    (LiveSystem.start nextSeqId assembly jobs).Sound where
  logged := rfl
  chronicled := ⟨fun earlier entry later whole => by simp [LiveSystem.start] at whole,
    fun task never => nomatch never⟩
  workers program member := by
    obtain ⟨arrivals, -, rfl⟩ := List.mem_map.mp member
    exact ⟨[], (fun id never => nomatch never), announces_processArrivals arrivals⟩
  assignments assignment never := nomatch never
  recorded pair never := nomatch never
  statuses := rfl

theorem Sound.turn (sound : system.Sound) (label : LiveTurn) : (system.turn config label).Sound := by
  cases label with
  | worker index refusal =>
      unfold LiveSystem.turn
      dsimp only
      split
      case h_1 op onward found =>
        obtain ⟨queued, listed, announces⟩ :=
          sound.workers (.call op onward) (List.mem_of_getElem? found)
        cases announces with
        | call permitted continues =>
            split
            case h_1 reply refused =>
              obtain ⟨reason, -, refused⟩ := Option.bind_eq_some_iff.mp refused
              obtain ⟨promised, same⟩ := promises_of_refused refused queued
              exact sound.setWorker sound.served index listed (same ▸ continues reply promised)
            case h_2 =>
              obtain ⟨served, promised, later⟩ :=
                @Sound.servePipeline config system sound op queued listed permitted
              exact sound.setWorker served index later (continues _ promised)
      case h_2 => exact sound
  | take number simulated latencyMs finishedUnixMs =>
      unfold LiveSystem.turn
      dsimp only
      split
      case h_1 task found =>
        have taken := List.mem_of_getElem? found
        have carried : ∀ candidate ∈ task.candidates, Carries task.request candidate :=
          fun candidate member => (sound.chronicled.tasks task taken candidate member).1
        refine ⟨sound.logged, sound.chronicled, sound.workers, fun assignment member => ?_,
          sound.recorded, sound.statuses⟩
        rcases List.mem_append.mp member with before | now
        · exact sound.assignments assignment before
        · rw [List.mem_singleton.mp now]
          exact ⟨taken, reports_ofTask carried simulated latencyMs⟩
      case h_2 => exact sound
  | simulation index refusal =>
      unfold LiveSystem.turn
      dsimp only
      split
      case h_1 assignment found =>
        obtain ⟨taken, reports⟩ := sound.assignments assignment (List.mem_of_getElem? found)
        split
        case h_1 op onward isCall =>
          rw [isCall] at reports
          cases reports with
          | call permitted continues =>
              split
              case h_1 reply refused =>
                obtain ⟨reason, -, refused⟩ := Option.bind_eq_some_iff.mp refused
                have promised :=
                  promises_of_refused_simulation refused assignment.task assignment.subject
                exact sound.setAssignment sound.served index taken (continues reply promised)
              case h_2 =>
                obtain ⟨served, promised⟩ := sound.serveSimulation taken permitted
                exact sound.setAssignment served index (served.task taken)
                  (continues _ promised)
        case h_2 => exact sound
      case h_2 => exact sound

/-- **What every run keeps.** -/
theorem Sound.run (sound : system.Sound) (turns : List LiveTurn) :
    (system.run config turns).Sound := by
  induction turns generalizing system with
  | nil => exact sound
  | cons label rest ih => exact ih (sound.turn label)

end LiveSystem

end Mempulse.LiveRpc
