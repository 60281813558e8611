import Mempulse.LiveRpc.CandidateIds
import Mempulse.LiveRpc.SettledTasks

/-!
# Registration

What the processing of a transaction leaves in the scheduler and in the simulation queue: the
transaction is admitted, the candidates of the transaction it replaced are invalidated, and the
candidates of pending transactions are registered and enqueued, grouped by simulation task. All
other calls write events and table rows only.
-/

set_option autoImplicit false

namespace Mempulse.LiveRpc

open Std EventLog Library Scheduler Storage Searcher Builder

/-! ## What a call does -/

/-- Only events and table rows are written. -/
def Logs (before after : LiveState) : Prop :=
  after.scheduler = before.scheduler ∧ after.simulationQueue = before.simulationQueue

/-- The candidates of the prepared tasks, grouped by simulation task. -/
def groupTasks (queued : List (SimulationTaskSpec × PreparedSimulationTask))
    (grouped : GroupedTasks) : GroupedTasks :=
  queued.foldl (fun grouped entry =>
    grouped.push entry.2.request { spec := entry.1, opportunity := entry.2.opportunity }) grouped

/-- A group of candidates as a simulation task. -/
def taskOf (chain : ChainRpcConfig) (nowUnixMs : Int64)
    (group : RemoteSimulationRequest × List RegisteredSimulationCandidate) : SimulationTask where
  chain := chain
  request := group.1
  candidates := group.2
  enqueuedUnixMs := nowUnixMs

section Calls

variable {config : SchedulerConfig} {next : Pipeline} {live : LiveState} {replies : QueueReplies}
  {post : LiveState × QueueReplies → Prop}

theorem Logs.rfl (live : LiveState) : Logs live live := ⟨Eq.refl _, Eq.refl _⟩

theorem Logs.trans {first second third : LiveState} (front : Logs first second)
    (back : Logs second third) : Logs first third :=
  ⟨back.1.trans front.1, back.2.trans front.2⟩

/-- The storage queue takes the next writes. -/
def QueueReplies.Takes (replies : QueueReplies) (count : Nat) : Prop :=
  ∀ reply ∈ replies.storage.take count, reply = .ok ()

/-- A write goes through, or it ends the caller. It is known to go through as long as the queue is
known to take it. -/
theorem post_tryEnqueue (live : LiveState) {count : Nat} {mayStop : Prop} (op : StorageWriteOp)
    (clear : replies.Takes (count + 1) ∨ mayStop) (stops : mayStop → ∀ rest, post (live, rest))
    (onward : ∀ rest : QueueReplies, rest.Takes count ∨ mayStop →
      post (next.run (serveReplying config)
        ({ live with storageQueue := live.storageQueue ++ [op] }, rest)).2) :
    post ((tryEnqueueStorageWrite op next).run (serveReplying config) (live, replies)).2 := by
  obtain ⟨storage, simulation⟩ := replies
  cases storage with
  | nil => exact onward ⟨[], simulation⟩ (.inl fun _ listed => by simp at listed)
  | cons reply later =>
      cases reply with
      | ok =>
          refine onward ⟨later, simulation⟩ (clear.imp_left fun takes other listed => ?_)
          exact takes other (.tail _ listed)
      | error error =>
          rcases clear with takes | may
          · cases takes _ (.head _)
          · cases error <;> exact stops may ⟨later, simulation⟩

theorem post_appendEvent (chain : ChainRpcConfig) (nowUnixMs : Int64) (payload : EventPayload)
    {count : Nat} {mayStop : Prop} (clear : replies.Takes (count + 1) ∨ mayStop)
    (stops : mayStop → ∀ later rest, Logs live later → post (later, rest))
    (onward : ∀ (later : LiveState) (rest : QueueReplies), Logs live later →
      rest.Takes count ∨ mayStop → post (next.run (serveReplying config) (later, rest)).2) :
    post ((appendEvent chain nowUnixMs payload next).run (serveReplying config)
      (live, replies)).2 :=
  post_tryEnqueue { live with nextSeqId := live.nextSeqId + 1 } _ clear
    (fun may rest => stops may _ rest ⟨rfl, rfl⟩) fun rest left => onward _ rest ⟨rfl, rfl⟩ left

/-- What holds however events are written, and when their writing is cut short, holds once they
are appended. -/
theorem post_appendEvents (chain : ChainRpcConfig) (nowUnixMs : Int64)
    (payloads : List EventPayload) (stops : ∀ later rest, Logs live later → post (later, rest))
    (onward : ∀ later rest, Logs live later →
      post (next.run (serveReplying config) (later, rest)).2) :
    post ((appendEvents chain nowUnixMs payloads next).run (serveReplying config)
      (live, replies)).2 := by
  induction payloads generalizing live replies with
  | nil => exact onward live replies (.rfl live)
  | cons payload rest ih =>
      have unknown : replies.Takes (0 + 1) ∨ True := .inr trivial
      refine post_appendEvent chain nowUnixMs payload unknown (fun _ => stops)
        fun middle left logs _ => ih ?_ ?_
      · exact fun later rest more => stops later rest (logs.trans more)
      · exact fun later rest more => onward later rest (logs.trans more)

theorem post_queueCandidates (chain : ChainRpcConfig) (nowUnixMs : Int64)
    (onward : GroupedTasks → Pipeline)
    {queued : List (SimulationTaskSpec × PreparedSimulationTask)} {grouped : GroupedTasks}
    (stops : ∀ later rest, Logs live later → post (later, rest))
    (holds : ∀ later rest, Logs live later →
      post ((onward (groupTasks queued grouped)).run (serveReplying config) (later, rest)).2) :
    post ((queueCandidates chain nowUnixMs onward grouped queued).run (serveReplying config)
      (live, replies)).2 := by
  induction queued generalizing grouped live replies with
  | nil => exact holds live replies (.rfl live)
  | cons first rest ih =>
      have unknown : replies.Takes (0 + 1) ∨ True := .inr trivial
      refine post_appendEvent chain nowUnixMs _ unknown (fun _ => stops)
        fun middle left logs _ => ih ?_ ?_
      · exact fun later rest more => stops later rest (logs.trans more)
      · exact fun later rest more => holds later rest (logs.trans more)

/-- The scheduler is as given, and some of the tasks are enqueued. -/
structure Enqueued (before : LiveState) (scheduler : SchedulerState) (tasks : List SimulationTask)
    (after : LiveState × QueueReplies) : Prop where
  scheduler : after.1.scheduler = scheduler
  queue : ∃ enqueued : List SimulationTask,
    after.1.simulationQueue = before.simulationQueue ++ enqueued ∧ enqueued.Sublist tasks

theorem Enqueued.none {before later : LiveState} (logs : Logs before later)
    (tasks : List SimulationTask) (rest : QueueReplies) :
    Enqueued before before.scheduler tasks (later, rest) :=
  ⟨logs.1, [], logs.2.trans (List.append_nil _).symm, List.nil_sublist _⟩

/-- Groups are enqueued, nothing else happens to the scheduler and its queue. -/
theorem run_dispatchTasks (config : SchedulerConfig) (chain : ChainRpcConfig) (nowUnixMs : Int64)
    (tasks : List (RemoteSimulationRequest × List RegisteredSimulationCandidate))
    (live : LiveState) (replies : QueueReplies) :
    Enqueued live live.scheduler (tasks.map (taskOf chain nowUnixMs))
      ((dispatchTasks chain nowUnixMs tasks).run (serveReplying config) (live, replies)).2 := by
  induction tasks generalizing live replies with
  | nil => exact Enqueued.none (.rfl live) _ _
  | cons group rest ih =>
      have skipped : ∀ replies, Enqueued live live.scheduler
          ((group :: rest).map (taskOf chain nowUnixMs))
          ((dispatchTasks chain nowUnixMs rest).run (serveReplying config) (live, replies)).2 := by
        intro replies
        obtain ⟨scheduler, enqueued, queue, part⟩ := ih live replies
        exact ⟨scheduler, enqueued, queue, part.cons _⟩
      have taken : ∀ replies, Enqueued live live.scheduler
          ((group :: rest).map (taskOf chain nowUnixMs))
          ((appendEvents chain nowUnixMs
            (group.2.map fun candidate => buildSimDispatchedPayload candidate.spec)
            (dispatchTasks chain nowUnixMs rest)).run (serveReplying config)
              ({ live with
                simulationQueue := live.simulationQueue ++ [taskOf chain nowUnixMs group] },
                replies)).2 := by
        intro replies
        refine post_appendEvents chain nowUnixMs _ (fun later left logs => ?_)
          fun later left logs => ?_
        · exact ⟨logs.1, [taskOf chain nowUnixMs group], logs.2,
            (List.nil_sublist _).cons_cons _⟩
        · obtain ⟨scheduler, enqueued, queue, part⟩ := ih later left
          refine ⟨scheduler.trans logs.1, taskOf chain nowUnixMs group :: enqueued, ?_,
            part.cons_cons _⟩
          rw [queue, logs.2, List.append_assoc]
          rfl
      obtain ⟨storage, simulation⟩ := replies
      cases simulation with
      | nil => exact taken ⟨storage, []⟩
      | cons reply later =>
          cases reply with
          | error message => exact Enqueued.none (.rfl live) _ _
          | ok accepts =>
              cases accepts with
              | false => exact skipped ⟨storage, later⟩
              | true => exact taken ⟨storage, later⟩

/-- The tasks that registering the candidates of the prepared tasks brings. -/
def registeredTasks (scheduler : SchedulerState) (chain : ChainRpcConfig) (nowUnixMs : Int64)
    (prepared : List PreparedSimulationTask) : List SimulationTask :=
  ((groupTasks ((scheduler.registerCandidates (prepared.map (·.candidate))).1.zip prepared)
    ∅).toList.map Prod.snd).map (taskOf chain nowUnixMs)

theorem run_registerAndDispatch (config : SchedulerConfig) (chain : ChainRpcConfig)
    (nowUnixMs : Int64) (prepared : List PreparedSimulationTask) (live : LiveState)
    (replies : QueueReplies) :
    Enqueued live (live.scheduler.registerCandidates (prepared.map (·.candidate))).2
      (registeredTasks live.scheduler chain nowUnixMs prepared)
      ((registerAndDispatch chain nowUnixMs prepared).run (serveReplying config)
        (live, replies)).2 := by
  cases prepared with
  | nil => exact Enqueued.none (.rfl live) _ _
  | cons first rest =>
      let registered := live.scheduler.registerCandidates ((first :: rest).map (·.candidate))
      let reached : LiveState := { live with scheduler := registered.2 }
      have dispatched : ∀ later rest', Logs reached later →
          Enqueued live registered.2
            (registeredTasks live.scheduler chain nowUnixMs (first :: rest))
            ((dispatchTasks chain nowUnixMs ((groupTasks (registered.1.zip (first :: rest))
              ∅).toList.map Prod.snd)).run (serveReplying config) (later, rest')).2 := by
        intro later left logs
        obtain ⟨scheduler, enqueued, queue, part⟩ := run_dispatchTasks config chain nowUnixMs
          ((groupTasks (registered.1.zip (first :: rest)) ∅).toList.map Prod.snd) later left
        exact ⟨scheduler.trans logs.1, enqueued, queue.trans (by rw [logs.2]), part⟩
      have stopped : ∀ later left, Logs reached later →
          Enqueued live registered.2
            (registeredTasks live.scheduler chain nowUnixMs (first :: rest)) (later, left) :=
        fun later left logs =>
          ⟨logs.1, [], logs.2.trans (List.append_nil _).symm, List.nil_sublist _⟩
      exact post_queueCandidates chain nowUnixMs
        (fun grouped => dispatchTasks chain nowUnixMs (grouped.toList.map Prod.snd)) stopped
        dispatched

end Calls

/-- Tasks with different candidate ids, whose members are all pending. -/
structure Registrable (state : SchedulerState) (prepared : List PreparedSimulationTask) : Prop where
  distinct : prepared.Pairwise fun left right =>
    left.candidate.candidateId ≠ right.candidate.candidateId
  hashes : ∀ task ∈ prepared,
    normalizedMemberHashes task.candidate.txHash task.candidate.memberTxHashes =
      opportunityHashes task.opportunity.candidate
  pending : ∀ task ∈ prepared,
    ∀ member ∈ opportunityHashes task.opportunity.candidate, state.pending.contains member = true

section Registrable

variable {state : SchedulerState} {executable simulationContext : List ValidatedTransaction}

theorem opportunityHashes_ne_nil (opportunity : OpportunityCandidate) :
    opportunityHashes opportunity ≠ [] := by
  unfold opportunityHashes
  split
  · exact List.cons_ne_nil _ _
  case isFalse some => simpa using some

theorem opportunityHashes_subset {opportunity : OpportunityCandidate} {hashes : List TxHash}
    (among : opportunity.AmongHashes hashes) :
    ∀ member ∈ opportunityHashes opportunity, member ∈ hashes := by
  intro member listed
  unfold opportunityHashes at listed
  split at listed
  · rw [List.mem_singleton.mp listed]
    exact among.1
  · exact among.2 member listed

/-- What is prepared of pending transactions with different hashes can be registered. -/
theorem Registrable.of_executable
    (distinct : executable.Pairwise fun left right => left.hash ≠ right.hash)
    (pending : ∀ tx ∈ executable, state.pending.contains tx.hash = true) (detectedUnixMs : Int64)
    (chainId : Option UInt64) :
    Registrable state (prepareSimulationTasks
      (buildExecutableOpportunities executable detectedUnixMs chainId) simulationContext) where
  distinct := prepareSimulationTasks_pairwise distinct
  hashes := by
    intro task listed
    obtain ⟨built, same⟩ := mem_prepareSimulationTasks listed
    obtain ⟨record, -⟩ := mem_buildExecutableOpportunities built
    rw [same]
    dsimp only [schedulerCandidateFromExecutableOpportunity, normalizedMemberHashes,
      opportunityHashes]
    rw [record]
    split <;> rename_i empty
    · rw [if_neg (by simp)]
    · rfl
  pending := by
    intro task listed member named
    obtain ⟨built, -⟩ := mem_prepareSimulationTasks listed
    obtain ⟨-, among⟩ := mem_buildExecutableOpportunities built
    obtain ⟨tx, ready, rfl⟩ := List.mem_map.mp (opportunityHashes_subset among member named)
    exact pending tx ready

/-- The ready transactions of an admission are pending and have different hashes. -/
theorem pendingTransactions_readyHashes (seating : Seating state)
    (queueTransitions : List SchedulerQueueTransition) :
    ((state.pendingTransactions (readyHashes queueTransitions)).Pairwise
        fun left right => left.hash ≠ right.hash) ∧
      ∀ tx ∈ state.pendingTransactions (readyHashes queueTransitions),
        state.pending.contains tx.hash = true := by
  refine ⟨pendingTransactions_pairwise seating.keyed (nodup_eraseDups _), fun tx listed => ?_⟩
  obtain ⟨hash, -, stored⟩ := List.mem_filterMap.mp listed
  rw [seating.keyed stored, contains_eq_isSome, stored]
  rfl

end Registrable

/-- The scheduler and the simulation queue after a call: the candidates of some prepared tasks are
registered, or the call is cut short before that. -/
inductive Registered (before : LiveState) (seated : SchedulerState)
    (after : LiveState × QueueReplies) : Prop
  | cut (scheduler : after.1.scheduler = seated)
      (queue : after.1.simulationQueue = before.simulationQueue)
  | registered (chain : ChainRpcConfig) (nowUnixMs : Int64) (prepared : List PreparedSimulationTask)
      (registrable : Registrable seated prepared)
      (enqueued : Enqueued before (seated.registerCandidates (prepared.map (·.candidate))).2
        (registeredTasks seated chain nowUnixMs prepared) after)

section Calls

variable {config : SchedulerConfig} {arrival : Arrival} {live before : LiveState}
  {replies : QueueReplies} {seated : SchedulerState} {post : LiveState × QueueReplies → Prop}

theorem Registered.of_logs (scheduler : live.scheduler = seated)
    (queue : live.simulationQueue = before.simulationQueue) {later : LiveState}
    (rest : QueueReplies) (logs : Logs live later) : Registered before seated (later, rest) :=
  .cut (logs.1.trans scheduler) (logs.2.trans queue)

/-- The opportunities of pending transactions are registered. -/
theorem run_exploreOpportunities {executable simulationContext : List ValidatedTransaction}
    {chainId : Option UInt64} (scheduler : live.scheduler = seated)
    (queue : live.simulationQueue = before.simulationQueue)
    (distinct : executable.Pairwise fun left right => left.hash ≠ right.hash)
    (pending : ∀ tx ∈ executable, seated.pending.contains tx.hash = true) :
    Registered before seated
      ((exploreOpportunities arrival chainId executable simulationContext).run
        (serveReplying config) (live, replies)).2 := by
  have announced : Registered before seated
      ((appendEvents arrival.chain arrival.processedAtUnixMs
        (((buildExecutableOpportunities executable arrival.processedAtUnixMs chainId).map
          (·.record)).map buildOpportunityDetectedPayload)
        (registerAndDispatch arrival.chain arrival.processedAtUnixMs
          (prepareSimulationTasks
            (buildExecutableOpportunities executable arrival.processedAtUnixMs chainId)
            simulationContext))).run (serveReplying config) (live, replies)).2 := by
    refine post_appendEvents _ _ _
      (fun later rest logs => .of_logs scheduler queue rest logs) fun later rest logs => ?_
    obtain ⟨registered, enqueued, tasks, part⟩ := run_registerAndDispatch config arrival.chain
      arrival.processedAtUnixMs (prepareSimulationTasks
        (buildExecutableOpportunities executable arrival.processedAtUnixMs chainId)
        simulationContext) later rest
    rw [logs.1, scheduler] at registered part
    rw [logs.2, queue] at tasks
    exact .registered _ _ _ (.of_executable distinct pending _ _) ⟨registered, enqueued, tasks, part⟩
  dsimp only [exploreOpportunities]
  split
  · exact announced
  · exact announced

/-- The executable transactions are pending ones with different hashes. -/
theorem post_readyTransactions {queueTransitions : List SchedulerQueueTransition}
    {next : List ValidatedTransaction → Pipeline} (seating : Seating live.scheduler)
    (onward : ∀ executable : List ValidatedTransaction,
      executable.Pairwise (fun left right => left.hash ≠ right.hash) →
      (∀ tx ∈ executable, live.scheduler.pending.contains tx.hash = true) →
      post ((next executable).run (serveReplying config) (live, replies)).2) :
    post ((readyTransactionsForQueueTransitions queueTransitions next).run
      (serveReplying config) (live, replies)).2 := by
  obtain ⟨distinct, pending⟩ := pendingTransactions_readyHashes seating queueTransitions
  dsimp only [readyTransactionsForQueueTransitions]
  split
  · exact onward [] .nil fun _ listed => nomatch listed
  · exact onward _ distinct pending

theorem post_readyFrontier {queueTransitions : List SchedulerQueueTransition}
    {next : List ValidatedTransaction → Pipeline}
    (onward : ∀ simulationContext,
      post ((next simulationContext).run (serveReplying config) (live, replies)).2) :
    post ((readyFrontierForQueueTransitions queueTransitions next).run
      (serveReplying config) (live, replies)).2 := by
  dsimp only [readyFrontierForQueueTransitions]
  split
  · exact onward _
  · exact onward _

/-- A replacement is invalidated as long as its announcement goes through. -/
theorem post_appendReplacement {txHash : TxHash} {decision : SchedulerPersistenceDecision}
    {next : Pipeline} (clear : replies.Takes 1 ∨ decision.replacedHash = none)
    (onward : ∀ (later : LiveState) (rest : QueueReplies),
      later.scheduler = invalidated live.scheduler decision →
      later.simulationQueue = live.simulationQueue →
      post (next.run (serveReplying config) (later, rest)).2) :
    post ((appendReplacement arrival txHash decision.replacedHash next).run
      (serveReplying config) (live, replies)).2 := by
  unfold invalidated at onward
  cases replaced : decision.replacedHash with
  | none =>
      rw [replaced] at onward
      exact onward live replies rfl rfl
  | some replacedHash =>
      rw [replaced] at onward clear
      refine post_appendEvent _ _ _ (clear.imp_right (nomatch ·)) False.elim
        fun later rest logs _ => onward _ rest ?_ logs.2
      rw [← logs.1]
      rfl

theorem run_persistTransaction {tx : LiveTx} {decision : SchedulerPersistenceDecision}
    {queueTransitions : List SchedulerQueueTransition}
    (clear : replies.Takes 3 ∨ decision.replacedHash = none)
    (scheduler : invalidated live.scheduler decision = seated)
    (queue : live.simulationQueue = before.simulationQueue) (seating : Seating seated) :
    Registered before seated
      ((persistTransaction arrival tx decision queueTransitions).run (serveReplying config)
        (live, replies)).2 := by
  have unreplaced : decision.replacedHash = none → live.scheduler = seated := by
    intro none
    rw [← scheduler, invalidated, none]
  unfold persistTransaction
  refine post_tryEnqueue live _ clear (fun none rest => .cut (unreplaced none) queue)
    fun first clear => post_tryEnqueue _ _ clear (fun none rest => .cut (unreplaced none) queue)
      fun second clear => post_appendReplacement clear fun replaced third moved stayed => ?_
  have seatedThere : replaced.scheduler = seated := moved.trans scheduler
  have queuedThere : replaced.simulationQueue = before.simulationQueue := stayed.trans queue
  have stops : ∀ later rest, Logs replaced later → Registered before seated (later, rest) :=
    fun later rest logs => .of_logs seatedThere queuedThere rest logs
  refine post_appendEvents _ _ _ stops fun decoded fourth decodedLogs =>
    post_appendEvents _ _ _ (fun later rest logs => stops later rest (decodedLogs.trans logs))
      fun dropped fifth droppedLogs => ?_
  have logs := decodedLogs.trans droppedLogs
  have reached : dropped.scheduler = seated := logs.1.trans seatedThere
  refine post_readyTransactions (by rw [reached]; exact seating) fun executable distinct pending =>
    post_readyFrontier fun simulationContext =>
      post_appendEvents _ _ _ (fun later rest more => stops later rest (logs.trans more))
        fun later sixth laterLogs => ?_
  rw [reached] at pending
  have whole := logs.trans laterLogs
  exact run_exploreOpportunities (whole.1.trans seatedThere) (whole.2.trans queuedThere) distinct
    pending

/-- The observation of an arrival takes three writes. -/
theorem post_appendObservation {count : Nat} {mayStop : Prop} {next : Pipeline}
    (clear : replies.Takes (count + 3) ∨ mayStop)
    (stops : mayStop → ∀ later rest, Logs live later → post (later, rest))
    (onward : ∀ (later : LiveState) (rest : QueueReplies), Logs live later →
      rest.Takes count ∨ mayStop → post (next.run (serveReplying config) (later, rest)).2) :
    post ((appendObservation arrival next).run (serveReplying config) (live, replies)).2 := by
  refine post_tryEnqueue { live with nextSeqId := live.nextSeqId + 1 } _ clear
    (fun may rest => stops may _ rest ⟨rfl, rfl⟩) fun first clear =>
      post_tryEnqueue _ _ clear (fun may rest => stops may _ rest ⟨rfl, rfl⟩)
        fun second clear => post_appendEvent _ _ _ clear ?_ ?_
  · exact fun may later rest logs => stops may later rest (Logs.trans ⟨rfl, rfl⟩ logs)
  · exact fun later rest logs clear => onward later rest (Logs.trans ⟨rfl, rfl⟩ logs) clear

/-- The invariant survives an invalidation. -/
theorem RepresentationInvariant.admitAndInvalidate {state : SchedulerState}
    (invariant : RepresentationInvariant config state) (tx : ValidatedTransaction) :
    RepresentationInvariant config (LiveRpc.admitAndInvalidate config state tx) := by
  have admitted := invariant.admitTx tx
  unfold LiveRpc.admitAndInvalidate invalidated
  dsimp only
  split
  · exact admitted.congr rfl rfl rfl rfl rfl rfl rfl
  · exact admitted

/-- The writes that come before the invalidation of a replaced hash. -/
def writesBeforeInvalidation : Nat := 6

/-- **What processing a transaction does** to the scheduler and to the simulation queue, as long as
the queue takes the writes before the invalidation of a replaced hash. -/
theorem run_processPendingHashWithFetchedTx (invariant : RepresentationInvariant config live.scheduler)
    {tx : LiveTx} (fetched : arrival.fetchedTx = some tx)
    (clear : replies.Takes writesBeforeInvalidation ∨
      (SchedulerPersistenceDecision.fromAdmission (live.scheduler.admitTx
        (validatedTransactionFromLiveTx arrival.chain arrival.observation tx)
        config).1.admission).replacedHash = none) :
    Registered live
      (admitAndInvalidate config live.scheduler
        (validatedTransactionFromLiveTx arrival.chain arrival.observation tx))
      ((processPendingHashWithFetchedTx arrival).run (serveReplying config) (live, replies)).2 := by
  have seating := (RepresentationInvariant.admitAndInvalidate invariant
    (validatedTransactionFromLiveTx arrival.chain arrival.observation tx)).seating
  let admitted := live.scheduler.admitTx
    (validatedTransactionFromLiveTx arrival.chain arrival.observation tx) config
  unfold processPendingHashWithFetchedTx
  rw [fetched]
  have observed : Registered live
      (admitAndInvalidate config live.scheduler
        (validatedTransactionFromLiveTx arrival.chain arrival.observation tx))
      ((appendObservation arrival (persistTransaction arrival tx
        (.fromAdmission admitted.1.admission) admitted.1.queueTransitions)).run
          (serveReplying config) ({ live with scheduler := admitted.2 }, replies)).2 := by
    refine post_appendObservation clear (fun none later rest logs => ?_)
      fun later rest logs clear => ?_
    · refine .cut (logs.1.trans ?_) logs.2
      rw [admitAndInvalidate, invalidated, none]
    · refine run_persistTransaction clear ?_ logs.2 seating
      rw [logs.1]
      rfl
  exact observed

theorem run_processPendingHash_unfetched (fetched : arrival.fetchedTx = none) :
    Logs live ((processPendingHashWithFetchedTx arrival).run (serveReplying config)
      (live, replies)).2.1 := by
  unfold processPendingHashWithFetchedTx
  rw [fetched]
  have unknown : replies.Takes (0 + 3) ∨ True := .inr trivial
  let post : LiveState × QueueReplies → Prop := fun after => Logs live after.1
  have observed : post ((appendObservation arrival (.done (.ok ()))).run (serveReplying config)
      (live, replies)).2 :=
    post_appendObservation unknown (fun _ _ _ logs => logs) fun _ _ logs _ => logs
  exact observed

end Calls

/-! ## Groups -/

section Groups

variable {grouped : GroupedTasks}

/-- The candidate of a prepared task with the task the scheduler issued for it. -/
def registeredCandidate (entry : SimulationTaskSpec × PreparedSimulationTask) :
    RegisteredSimulationCandidate where
  spec := entry.1
  opportunity := entry.2.opportunity

/-- A group after a push is one from before, a new one, or the one that the candidate has joined. -/
theorem GroupedTasks.push_cases {request : RemoteSimulationRequest}
    {registered : RegisteredSimulationCandidate} {key : String}
    {group : RemoteSimulationRequest × List RegisteredSimulationCandidate}
    (found : (grouped.push request registered)[key]? = some group) :
    grouped[key]? = some group ∨
      simulationTaskKey request = key ∧ (group = (request, [registered]) ∨
        ∃ first candidates, grouped[key]? = some (first, candidates) ∧
          group = (first, candidates ++ [registered])) := by
  unfold GroupedTasks.push at found
  dsimp only at found
  split at found
  case h_1 first candidates known =>
    rw [getElem?_insert_eq] at found
    split at found
    case isTrue here =>
      cases found
      exact .inr ⟨here, .inr ⟨first, candidates, here ▸ known, rfl⟩⟩
    case isFalse => exact .inl found
  case h_2 =>
    rw [getElem?_insert_eq] at found
    split at found
    case isTrue here =>
      cases found
      exact .inr ⟨here, .inl rfl⟩
    case isFalse => exact .inl found

/-- The candidates of each group are some of the list, in its order. -/
def PartsOf (grouped : GroupedTasks) (done : List RegisteredSimulationCandidate) : Prop :=
  ∀ (key : String) (group : RemoteSimulationRequest × List RegisteredSimulationCandidate),
    grouped[key]? = some group → group.2.Sublist done

theorem PartsOf.push {done : List RegisteredSimulationCandidate} (parts : PartsOf grouped done)
    (request : RemoteSimulationRequest) (registered : RegisteredSimulationCandidate) :
    PartsOf (grouped.push request registered) (done ++ [registered]) := by
  intro key group found
  rcases GroupedTasks.push_cases found with
    stored | ⟨-, rfl | ⟨first, candidates, known, rfl⟩⟩
  · exact (parts key group stored).trans (List.sublist_append_left _ _)
  · exact List.sublist_append_right _ _
  · exact (parts key _ known).append (List.Sublist.refl _)

/-- The candidates of a group come in the order in which they were registered. -/
theorem PartsOf.groupTasks (queued : List (SimulationTaskSpec × PreparedSimulationTask))
    {done : List RegisteredSimulationCandidate} (parts : PartsOf grouped done) :
    PartsOf (LiveRpc.groupTasks queued grouped) (done ++ queued.map registeredCandidate) := by
  induction queued generalizing grouped done with
  | nil =>
      rw [List.map_nil, List.append_nil]
      exact parts
  | cons entry rest ih =>
      have onward := ih (parts.push entry.2.request (registeredCandidate entry))
      rw [List.append_assoc] at onward
      exact onward

theorem partsOf_empty : PartsOf ∅ [] := fun _ _ stored => by
  rw [ExtTreeMap.getElem?_empty] at stored
  cases stored

/-- The task of a candidate carries its id and its members. -/
theorem mem_zip_registerCandidates {state : SchedulerState}
    {prepared : List PreparedSimulationTask} {entry : SimulationTaskSpec × PreparedSimulationTask}
    (member : entry ∈ (state.registerCandidates (prepared.map (·.candidate))).1.zip prepared) :
    entry.1.candidateId = entry.2.candidate.candidateId ∧
      entry.1.memberTxHashes =
        normalizedMemberHashes entry.2.candidate.txHash entry.2.candidate.memberTxHashes := by
  induction prepared generalizing state with
  | nil => cases member
  | cons first rest ih =>
      rcases List.mem_cons.mp member with rfl | later
      · exact ⟨rfl, rfl⟩
      · exact ih later

end Groups

end Mempulse.LiveRpc
