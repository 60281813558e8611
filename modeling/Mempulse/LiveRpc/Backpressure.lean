import Mempulse.LiveRpc.Sequential
import Mempulse.Scheduler.Candidates

/-!
# Backpressure of the storage queue

A worker asks the scheduler to admit its transaction before it writes anything, and a storage
queue that refuses a write ends the call at once. So a refusal can leave the scheduler changed
and the log behind it. For a replacement the calls that matter are the first seven writes: the
last of them is the `TxDecoded` of the replacing transaction, and the candidates of the replaced
one are invalidated just before it. Nothing later admits a transaction, changes the pending set
in the log, or registers a candidate of the replaced hash.
-/

set_option autoImplicit false

namespace Mempulse.LiveRpc

open Std EventLog Library Scheduler Storage Searcher

/-! ## A queue that refuses -/

/-- The shared state, with the number of storage writes a call has tried. -/
structure Pressured where
  live : LiveState
  attempts : Nat := 0

namespace Pressured

/-- The state after a refused write. -/
def refuse (state : Pressured) : Pressured := { state with attempts := state.attempts + 1 }

/-- The state after an accepted write. -/
def accept (state : Pressured) (op : StorageWriteOp) : Pressured where
  live := { state.live with storageQueue := state.live.storageQueue ++ [op] }
  attempts := state.attempts + 1

end Pressured

/-- Serves an operation; the storage queue is full at the attempts that `refuses` selects. -/
def serveRefusing (config : SchedulerConfig) (refuses : Nat → Bool) (state : Pressured) :
    (op : PipelineOp) → PipelineReply op × Pressured
  | .tryEnqueue op =>
    if refuses state.attempts then (.error .queueFull, state.refuse) else (.ok (), state.accept op)
  | op => ((serve config state.live op).1, { state with live := (serve config state.live op).2 })

/-! ## A whole replacement -/

/-- The transaction an event puts into the pending set or takes out of it. The queue states of
`TxReady` and `TxBlocked` are about transactions that are pending already. -/
def pendingChange : EventPayload → Option TxHash
  | .txDecoded decoded => some decoded.hash
  | .txReplaced replaced => some replaced.hash
  | .txDropped dropped => some dropped.hash
  | .txConfirmedProvisional confirmed => some confirmed.hash
  | .txConfirmedFinal confirmed => some confirmed.hash
  | .txReorged reorged => some reorged.hash
  | _ => none

/-- The hashes whose change is enqueued to the log. -/
def enqueuedChanges (queue : List StorageWriteOp) : List TxHash :=
  queue.filterMap fun op => (op.envelope.map (·.payload)).bind pendingChange

theorem enqueuedChanges_concat (queue : List StorageWriteOp) (op : StorageWriteOp) :
    enqueuedChanges (queue ++ [op]) =
      enqueuedChanges queue ++ ((op.envelope.map (·.payload)).bind pendingChange).toList := by
  rw [enqueuedChanges, List.filterMap_append]
  rfl

/-- The candidates tied to a hash are invalidated: each has been moved on by a generation, and no
other candidate is tied to the hash. -/
structure CandidatesInvalidated (hash : TxHash) (before after : SchedulerState) : Prop where
  advanced : ∀ ⦃id : CandidateId⦄ ⦃entry : CandidateEntry⦄, before.candidates[id]? = some entry →
    entry.mentions hash = true →
      ∃ later, after.candidates[id]? = some later ∧
        nextGeneration entry.generation ≤ later.generation
  known : ∀ ⦃id : CandidateId⦄ ⦃later : CandidateEntry⦄, after.candidates[id]? = some later →
    later.mentions hash = true →
      ∃ entry, before.candidates[id]? = some entry ∧ entry.candidate = later.candidate

/-- The scheduler and the log agree on a replacement: the candidates of the replaced hash are
invalidated, and the pending status of a hash changed exactly if its change was enqueued. -/
def ReplacementWhole (replacedHash : TxHash) (before after : LiveState) : Prop :=
  CandidatesInvalidated replacedHash before.scheduler after.scheduler ∧
    ∀ hash, before.scheduler.pending.contains hash ≠ after.scheduler.pending.contains hash ↔
      hash ∈ enqueuedChanges (after.storageQueue.drop before.storageQueue.length)

theorem CandidatesInvalidated.invalidateCandidateHash (state : SchedulerState) (hash : TxHash)
    {before : SchedulerState} (same : before.candidates = state.candidates) :
    CandidatesInvalidated hash before (state.invalidateCandidateHash hash) := by
  constructor
  · intro id entry stored mentions
    refine ⟨{ entry with generation := nextGeneration entry.generation }, ?_, Nat.le_refl _⟩
    rw [same] at stored
    simp [SchedulerState.invalidateCandidateHash, stored, mentions]
  · intro id later found mentions
    simp only [SchedulerState.invalidateCandidateHash, ExtTreeMap.getElem?_map,
      Option.map_eq_some_iff] at found
    obtain ⟨entry, stored, rfl⟩ := found
    refine ⟨entry, by rw [same, stored], ?_⟩
    split <;> rfl

/-- A later registration of candidates that are not tied to the hash undoes nothing. -/
theorem CandidatesInvalidated.registerCandidates {hash : TxHash} {before : SchedulerState}
    {candidates : List SchedulerCandidate}
    (apart : ∀ candidate ∈ candidates, ∀ entry : CandidateEntry, entry.candidate = candidate →
      entry.mentions hash = false) {state : SchedulerState}
    (invalidated : CandidatesInvalidated hash before state) :
    CandidatesInvalidated hash before (state.registerCandidates candidates).2 := by
  induction candidates generalizing state with
  | nil => exact invalidated
  | cons candidate rest ih =>
      obtain ⟨first, others⟩ := List.forall_mem_cons.mp apart
      refine ih others ⟨?_, ?_⟩
      · intro id entry stored mentions
        obtain ⟨later, found, advanced⟩ := invalidated.advanced stored mentions
        dsimp only [SchedulerState.registerCandidate]
        rw [getElem?_insert_eq]
        split
        case isTrue same =>
          refine ⟨_, rfl, ?_⟩
          dsimp only
          rw [same, found, Option.map_some, Option.getD_some]
          unfold nextGeneration saturatingAdd at advanced ⊢
          omega
        case isFalse => exact ⟨later, found, advanced⟩
      · intro id later found mentions
        dsimp only [SchedulerState.registerCandidate] at found
        rw [getElem?_insert_eq] at found
        split at found
        case isTrue =>
          cases found
          rw [first _ rfl] at mentions
          cases mentions
        case isFalse => exact invalidated.known found mentions

/-! ## The first seven writes -/

/-- What a call has done so far: the scheduler's state, the changes enqueued and the number of
attempts. -/
structure Wrote (start : LiveState) (scheduler : SchedulerState) (changes : List TxHash)
    (attempts : Nat) (state : Pressured) : Prop where
  scheduler : state.live.scheduler = scheduler
  queue : ∃ written, state.live.storageQueue = start.storageQueue ++ written ∧
    enqueuedChanges written = changes
  attempts : state.attempts = attempts

section Wrote

variable {config : SchedulerConfig} {refuses : Nat → Bool} {start : LiveState}
  {scheduler : SchedulerState} {changes : List TxHash} {attempts : Nat} {state : Pressured}
  {next : Pipeline} {motive : Except String Unit × Pressured → Prop}

theorem Wrote.enqueuedChanges_drop (wrote : Wrote start scheduler changes attempts state) :
    enqueuedChanges (state.live.storageQueue.drop start.storageQueue.length) = changes := by
  obtain ⟨written, queue, recorded⟩ := wrote.queue
  rw [queue, List.drop_left, recorded]

/-- A storage write ends the call, or the call goes on with the write enqueued. -/
theorem Wrote.tryEnqueueStorageWrite (wrote : Wrote start scheduler changes attempts state)
    (op : StorageWriteOp)
    (refused : refuses attempts = true → ∀ stopped,
      Wrote start scheduler changes (attempts + 1) stopped → motive (.ok (), stopped))
    (accepted : refuses attempts = false → ∀ later,
      Wrote start scheduler
          (changes ++ ((op.envelope.map (·.payload)).bind pendingChange).toList) (attempts + 1)
          later →
        motive (next.run (serveRefusing config refuses) later)) :
    motive ((tryEnqueueStorageWrite op next).run (serveRefusing config refuses) state) := by
  obtain ⟨same, ⟨written, queue, recorded⟩, rfl⟩ := wrote
  cases full : refuses state.attempts with
  | true =>
      have stops : (LiveRpc.tryEnqueueStorageWrite op next).run (serveRefusing config refuses)
          state = (.ok (), state.refuse) := by
        simp [LiveRpc.tryEnqueueStorageWrite, Program.run, serveRefusing, serve, full]
      rw [stops]
      exact refused full _ ⟨same, ⟨written, queue, recorded⟩, rfl⟩
  | false =>
      have goesOn : (LiveRpc.tryEnqueueStorageWrite op next).run (serveRefusing config refuses)
          state = next.run (serveRefusing config refuses) (state.accept op) := by
        simp [LiveRpc.tryEnqueueStorageWrite, Program.run, serveRefusing, full]
      rw [goesOn]
      refine accepted full _ ⟨same, ⟨written ++ [op], ?_, ?_⟩, rfl⟩
      · rw [Pressured.accept, queue, List.append_assoc]
      · rw [enqueuedChanges_concat, recorded]

theorem Wrote.tryEnqueueSilent (wrote : Wrote start scheduler changes attempts state)
    {op : StorageWriteOp} (silent : (op.envelope.map (·.payload)).bind pendingChange = none)
    (refused : refuses attempts = true → ∀ stopped,
      Wrote start scheduler changes (attempts + 1) stopped → motive (.ok (), stopped))
    (accepted : refuses attempts = false → ∀ later,
      Wrote start scheduler changes (attempts + 1) later →
        motive (next.run (serveRefusing config refuses) later)) :
    motive ((LiveRpc.tryEnqueueStorageWrite op next).run (serveRefusing config refuses) state) := by
  refine wrote.tryEnqueueStorageWrite op refused fun taken later written => ?_
  rw [silent, Option.toList_none, List.append_nil] at written
  exact accepted taken later written

theorem Wrote.fetchAddSeqId (wrote : Wrote start scheduler changes attempts state) :
    Wrote start scheduler changes attempts
      { state with live := { state.live with nextSeqId := state.live.nextSeqId + 1 } } :=
  ⟨wrote.scheduler, wrote.queue, wrote.attempts⟩

end Wrote

/-! ## After the seven writes -/

/-- What is left of the call once the replacement is written. -/
def announceTransitions (arrival : Arrival) (tx : LiveTx)
    (queueTransitions : List SchedulerQueueTransition) : Pipeline :=
  readyTransactionsForQueueTransitions queueTransitions fun executable =>
    readyFrontierForQueueTransitions queueTransitions fun simulationContext =>
      appendEvents arrival.chain arrival.processedAtUnixMs
          (queueTransitions.map queueTransitionPayload) <|
        exploreOpportunities arrival (resolveRecordChainId arrival.chain.chainId tx.chainId)
          executable simulationContext

/-- What a call may still do: it writes no change of the pending set, and registers no candidate
of the replaced hash, which is no longer pending. -/
def afterReplacement (replacedHash : TxHash) : Protocol PipelineOp PipelineReply Unit where
  permits _
    | .admitOutcome _ | .invalidateCandidateHash _ => False
    | .tryEnqueue op => (op.envelope.map (·.payload)).bind pendingChange = none
    | .registerCandidates candidates =>
      ∀ candidate ∈ candidates, ∀ entry : CandidateEntry, entry.candidate = candidate →
        entry.mentions replacedHash = false
    | _ => True
  promises _
    | .getPendingTransactions _, reply => ∀ tx ∈ reply, tx.hash ≠ replacedHash
    | _, _ => True
  advance _ _ _ := ()

/-- After a replacement the pipeline does not name the replaced hash again. -/
abbrev Spares (replacedHash : TxHash) (pipeline : Pipeline) : Prop :=
  pipeline.Conforms (afterReplacement replacedHash) (fun _ => True) ()

section Spares

variable {replacedHash : TxHash} {next : Pipeline} {chain : ChainRpcConfig} {nowUnixMs : Int64}
  {arrival : Arrival}

theorem spares_done (value : Except String Unit) : Spares replacedHash (.done value) :=
  .done value trivial

theorem spares_appendEvents {payloads : List EventPayload}
    (silent : ∀ payload ∈ payloads, pendingChange payload = none)
    (spares : Spares replacedHash next) :
    Spares replacedHash (appendEvents chain nowUnixMs payloads next) := by
  induction payloads with
  | nil => exact spares
  | cons payload rest ih =>
      obtain ⟨first, others⟩ := List.forall_mem_cons.mp silent
      refine .call trivial fun seqId _ => .call first fun reply _ => ?_
      match reply with
      | .ok () => exact ih others
      | .error error =>
          refine .call trivial fun _ _ => ?_
          cases error with
          | queueFull => exact spares_done _
          | queueClosed => exact spares_done _

theorem spares_queueCandidates {onward : GroupedTasks → Pipeline}
    (spares : ∀ grouped, Spares replacedHash (onward grouped))
    (queued : List (SimulationTaskSpec × PreparedSimulationTask)) (grouped : GroupedTasks) :
    Spares replacedHash (queueCandidates chain nowUnixMs onward grouped queued) := by
  induction queued generalizing grouped with
  | nil => exact spares grouped
  | cons first rest ih =>
      have silent : ∀ payload ∈
          [buildCandidateQueuedPayload first.2.candidate first.2.opportunity.record],
            pendingChange payload = none := by
        intro payload member
        rw [List.mem_singleton.mp member]
        rfl
      exact spares_appendEvents silent (ih _)

theorem spares_dispatchTasks
    (tasks : List (RemoteSimulationRequest × List RegisteredSimulationCandidate)) :
    Spares replacedHash (dispatchTasks chain nowUnixMs tasks) := by
  induction tasks with
  | nil => exact spares_done _
  | cons first rest ih =>
      refine .call trivial fun reply _ => ?_
      match reply with
      | .error _ => exact spares_done _
      | .ok false => exact ih
      | .ok true =>
          refine spares_appendEvents (fun payload member => ?_) ih
          obtain ⟨candidate, -, rfl⟩ := List.mem_map.mp member
          rfl

theorem spares_registerAndDispatch {prepared : List PreparedSimulationTask}
    (apart : ∀ task ∈ prepared, ∀ entry : CandidateEntry, entry.candidate = task.candidate →
      entry.mentions replacedHash = false) :
    Spares replacedHash (registerAndDispatch chain nowUnixMs prepared) := by
  unfold registerAndDispatch
  split
  · exact spares_done _
  · refine .call ?_ fun reply _ => ?_
    · intro candidate member
      obtain ⟨task, listed, rfl⟩ := List.mem_map.mp member
      exact apart task listed
    · match reply with
      | .error _ => exact spares_done _
      | .ok simulationTasks =>
          exact spares_queueCandidates (fun grouped => spares_dispatchTasks _) _ _

/-- The candidates to register are about executable transactions. -/
theorem prepareSimulationTasks_apart {executable simulationContext : List ValidatedTransaction}
    (pending : ∀ tx ∈ executable, tx.hash ≠ replacedHash) {detectedUnixMs : Int64}
    {chainId : Option UInt64} {task : PreparedSimulationTask}
    (prepared : task ∈ prepareSimulationTasks
      (buildExecutableOpportunities executable detectedUnixMs chainId) simulationContext)
    (entry : CandidateEntry) (registers : entry.candidate = task.candidate) :
    entry.mentions replacedHash = false := by
  obtain ⟨opportunity, built, requested⟩ := List.mem_filterMap.mp prepared
  obtain ⟨request, -, rfl⟩ := Option.map_eq_some_iff.mp requested
  unfold buildExecutableOpportunities at built
  split at built
  · cases built
  · obtain ⟨candidate, ranked, rfl⟩ := List.mem_map.mp built
    have among := rankOpportunityBatch_amongHashes ranked
    have spared : ∀ {hash : TxHash},
        hash ∈ (executable.map fun tx =>
          ({ decoded := tx.decoded, calldata := tx.calldata } : SearcherInputTx)).map
            (fun input => input.decoded.hash) → hash ≠ replacedHash := by
      intro hash listed
      rw [List.map_map] at listed
      obtain ⟨tx, member, rfl⟩ := List.mem_map.mp listed
      exact pending tx member
    have single := spared among.1
    dsimp only [schedulerCandidateFromExecutableOpportunity] at registers
    rw [CandidateEntry.mentions, registers]
    refine decide_eq_false (not_or.mpr ⟨single, fun named => ?_⟩)
    by_cases alone : candidate.memberTxHashes.isEmpty = true
    · simp only [normalizedMemberHashes, alone, if_true, List.isEmpty_cons, if_false,
        Bool.false_eq_true, List.mem_singleton] at named
      exact single named.symm
    · simp only [normalizedMemberHashes, alone, if_false, Bool.false_eq_true] at named
      exact spared (among.2 _ named) rfl

theorem spares_announceTransitions (tx : LiveTx)
    (queueTransitions : List SchedulerQueueTransition) :
    Spares replacedHash (announceTransitions arrival tx queueTransitions) := by
  have explored : ∀ executable : List ValidatedTransaction,
      (∀ tx ∈ executable, tx.hash ≠ replacedHash) →
        Spares replacedHash
          (readyFrontierForQueueTransitions queueTransitions fun simulationContext =>
            appendEvents arrival.chain arrival.processedAtUnixMs
                (queueTransitions.map queueTransitionPayload) <|
              exploreOpportunities arrival (resolveRecordChainId arrival.chain.chainId tx.chainId)
                executable simulationContext) := by
    intro executable pending
    have announced : ∀ simulationContext : List ValidatedTransaction, Spares replacedHash
        (appendEvents arrival.chain arrival.processedAtUnixMs
            (queueTransitions.map queueTransitionPayload) <|
          exploreOpportunities arrival (resolveRecordChainId arrival.chain.chainId tx.chainId)
            executable simulationContext) := by
      intro simulationContext
      refine spares_appendEvents (fun payload member => ?_) ?_
      · obtain ⟨transition, -, rfl⟩ := List.mem_map.mp member
        unfold queueTransitionPayload
        split <;> rfl
      · have detected : ∀ records : List OpportunityRecord,
            ∀ payload ∈ records.map buildOpportunityDetectedPayload,
              pendingChange payload = none := by
          intro records payload member
          obtain ⟨record, -, rfl⟩ := List.mem_map.mp member
          rfl
        have registered : ∀ chainId : Option UInt64, Spares replacedHash
            (registerAndDispatch arrival.chain arrival.processedAtUnixMs
              (prepareSimulationTasks
                (buildExecutableOpportunities executable arrival.processedAtUnixMs chainId)
                simulationContext)) :=
          fun chainId => spares_registerAndDispatch fun _ member =>
            prepareSimulationTasks_apart pending member
        dsimp only [exploreOpportunities]
        split
        · exact spares_appendEvents (detected _) (registered _)
        · exact .call trivial fun _ _ => spares_appendEvents (detected _) (registered _)
    dsimp only [readyFrontierForQueueTransitions]
    split
    · exact .call trivial fun reply _ => announced reply
    · exact announced []
  dsimp only [announceTransitions, readyTransactionsForQueueTransitions]
  split
  · exact explored [] (by simp)
  · exact .call trivial fun reply promised => explored reply promised

end Spares

/-- What the later calls leave alone. -/
structure Kept (start : LiveState) (replacedHash : TxHash)
    (pending : ExtTreeMap TxHash ValidatedTransaction) (changes : List TxHash)
    (state : Pressured) : Prop where
  pending : state.live.scheduler.pending = pending
  invalidated : CandidatesInvalidated replacedHash start.scheduler state.live.scheduler
  queue : ∃ written, state.live.storageQueue = start.storageQueue ++ written ∧
    enqueuedChanges written = changes

/-- Every permitted call keeps the replacement as it is. -/
theorem Kept.serveRefusing {config : SchedulerConfig} {refuses : Nat → Bool} {start : LiveState}
    {replacedHash : TxHash} {pending : ExtTreeMap TxHash ValidatedTransaction}
    {changes : List TxHash}
    (spared : ∀ (hash : TxHash) (tx : ValidatedTransaction), pending[hash]? = some tx →
      tx.hash ≠ replacedHash)
    (state : Pressured) (phase : Unit) (op : PipelineOp)
    (kept : Kept start replacedHash pending changes state)
    (permitted : (afterReplacement replacedHash).permits phase op) :
    (afterReplacement replacedHash).promises phase op
        (LiveRpc.serveRefusing config refuses state op).1 ∧
      Kept start replacedHash pending changes
        (LiveRpc.serveRefusing config refuses state op).2 := by
  obtain ⟨same, invalidated, written, queue, recorded⟩ := kept
  cases op with
  | admitOutcome tx => exact permitted.elim
  | invalidateCandidateHash hash => exact permitted.elim
  | tryEnqueue op =>
      refine ⟨trivial, ?_⟩
      dsimp only [LiveRpc.serveRefusing]
      split
      · exact ⟨same, invalidated, written, queue, recorded⟩
      · refine ⟨same, invalidated, written ++ [op], ?_, ?_⟩
        · rw [Pressured.accept, queue, List.append_assoc]
        · have silent : (op.envelope.map (·.payload)).bind pendingChange = none := permitted
          rw [enqueuedChanges_concat, recorded, silent, Option.toList_none, List.append_nil]
  | getPendingTransactions hashes =>
      refine ⟨fun tx listed => ?_, same, invalidated, written, queue, recorded⟩
      obtain ⟨hash, -, stored⟩ := List.mem_filterMap.mp listed
      rw [same] at stored
      exact spared hash tx stored
  | registerCandidates candidates =>
      refine ⟨trivial, ?_, invalidated.registerCandidates permitted, written, queue, recorded⟩
      obtain ⟨registered, head, stale, alike⟩ :=
        state.live.scheduler.sameAdmission_registerCandidates candidates
      exact (congrArg SchedulerState.pending alike).trans same
  | fetchAddSeqId | observeDropReason | snapshotReady | observeSearcherBatch
  | enqueueSimulationTask =>
      exact ⟨trivial, same, invalidated, written, queue, recorded⟩

/-! ## Replacements under backpressure -/

section Replacement

variable {config : SchedulerConfig} {refuses : Nat → Bool} {start : LiveState}
  {scheduler : SchedulerState} {changes : List TxHash} {attempts : Nat} {state : Pressured}
  {next : Pipeline} {motive : Except String Unit × Pressured → Prop}

/-- The observation is three writes. -/
theorem Wrote.appendObservation (wrote : Wrote start scheduler changes attempts state)
    (arrival : Arrival)
    (refused : ∀ write < 3, refuses (attempts + write) = true → ∀ stopped,
      Wrote start scheduler changes (attempts + write + 1) stopped → motive (.ok (), stopped))
    (accepted : (∀ write < 3, refuses (attempts + write) = false) → ∀ later,
      Wrote start scheduler changes (attempts + 3) later →
        motive (next.run (serveRefusing config refuses) later)) :
    motive
      ((appendObservation arrival next).run (serveRefusing config refuses) state) := by
  refine wrote.fetchAddSeqId.tryEnqueueSilent rfl (refused 0 (by omega)) fun first _ seen => ?_
  refine seen.tryEnqueueSilent rfl (refused 1 (by omega)) fun second _ upserted => ?_
  refine upserted.fetchAddSeqId.tryEnqueueSilent rfl (refused 2 (by omega))
    fun third later fetched => ?_
  refine accepted ?_ later fetched
  intro write bound
  match write with
  | 0 => exact first
  | 1 => exact second
  | 2 => exact third

variable {arrival : Arrival} {tx : LiveTx} {replacedHash : TxHash}
  {outcome : SchedulerAdmissionOutcome} {admitted : SchedulerState}

/-- **How a replacement goes.** One of the first seven writes is refused, before the `TxDecoded`
of the replacing transaction is in the log; or the candidates are invalidated and both changes
are in the log, and the call goes on from there. -/
theorem processPendingHashWithFetchedTx_cases (fetched : arrival.fetchedTx = some tx)
    (admits : start.scheduler.admitTx
      (validatedTransactionFromLiveTx arrival.chain arrival.observation tx) config =
        (outcome, admitted))
    (replaces : outcome.admission = .replaced replacedHash)
    (refused : ∀ write < 7, refuses write = true → ∀ stopped scheduler changes,
      scheduler.pending = admitted.pending → (changes = [] ∨ changes = [replacedHash]) →
        Wrote start scheduler changes (write + 1) stopped → motive (.ok (), stopped))
    (accepted : (∀ write < 7, refuses write = false) → ∀ later,
      Wrote start (admitted.invalidateCandidateHash replacedHash) [replacedHash, tx.hash] 7 later →
        motive ((announceTransitions arrival tx outcome.queueTransitions).run
          (serveRefusing config refuses) later)) :
    motive ((processPendingHashWithFetchedTx arrival).run (serveRefusing config refuses)
      { live := start }) := by
  have goesOn : (processPendingHashWithFetchedTx arrival).run (serveRefusing config refuses)
      { live := start } =
      (appendObservation arrival
        (persistTransaction arrival tx (.replaced replacedHash) outcome.queueTransitions)).run
        (serveRefusing config refuses) { live := { start with scheduler := admitted } } := by
    unfold processPendingHashWithFetchedTx
    rw [fetched]
    simp only [Program.run, serveRefusing, serve, admits, replaces,
      SchedulerPersistenceDecision.fromAdmission]
  rw [goesOn]
  have begun : Wrote start admitted [] 0 { live := { start with scheduler := admitted } } :=
    ⟨rfl, ⟨[], (List.append_nil _).symm, rfl⟩, rfl⟩
  refine begun.appendObservation arrival ?_ fun observed _ seen => ?_
  · intro write bound full stopped wrote
    rw [Nat.zero_add] at full wrote
    exact refused write (by omega) full stopped admitted [] rfl (.inl rfl) wrote
  refine seen.tryEnqueueSilent rfl ?_ fun full _ stored => ?_
  · exact fun full stopped => refused 3 (by omega) full stopped admitted [] rfl (.inl rfl)
  refine stored.tryEnqueueSilent rfl ?_ fun features _ analysed => ?_
  · exact fun full stopped => refused 4 (by omega) full stopped admitted [] rfl (.inl rfl)
  refine analysed.fetchAddSeqId.tryEnqueueStorageWrite _ ?_ fun replaced state written => ?_
  · exact fun full stopped => refused 5 (by omega) full stopped admitted [] rfl (.inl rfl)
  -- The replacement is in the log: now the candidates are invalidated.
  have invalidated : Wrote start (admitted.invalidateCandidateHash replacedHash) [replacedHash] 6
      { state with
        live := { state.live with
          scheduler := state.live.scheduler.invalidateCandidateHash replacedHash } } :=
    ⟨by rw [written.scheduler], written.queue, written.attempts⟩
  refine invalidated.fetchAddSeqId.tryEnqueueStorageWrite _ ?_ fun decoded later both => ?_
  · exact fun full stopped => refused 6 (by omega) full stopped
      (admitted.invalidateCandidateHash replacedHash) [replacedHash] rfl (.inr rfl)
  refine accepted ?_ later both
  intro write bound
  rcases Nat.lt_or_ge write 3 with early | late
  · have first := observed write early
    rwa [Nat.zero_add] at first
  · match write, late with
    | 3, _ => exact full
    | 4, _ => exact features
    | 5, _ => exact replaced
    | 6, _ => exact decoded

/-- **Backpressure splits a replacement exactly when it refuses one of its first seven writes.** At
every reachable scheduler state, the call leaves the scheduler and the log in agreement on the
replacement if and only if the first seven storage writes are accepted. -/
theorem replacementWhole_iff (config : SchedulerConfig) (commands : List SchedulerCommand)
    (start : LiveState) (reached : start.scheduler = SchedulerState.run config {} commands)
    (arrival : Arrival) (tx : LiveTx) (fetched : arrival.fetchedTx = some tx)
    (replacedHash : TxHash)
    (replaces : (start.scheduler.admitTx
      (validatedTransactionFromLiveTx arrival.chain arrival.observation tx) config).1.admission =
        .replaced replacedHash)
    (refuses : Nat → Bool) :
    ReplacementWhole replacedHash start
        ((processPendingHashWithFetchedTx arrival).run (serveRefusing config refuses)
          { live := start }).2.live ↔
      ∀ write < 7, refuses write = false := by
  have invariant := RepresentationInvariant.reached config commands
  rw [← reached] at invariant
  have status := SchedulerState.contains_ne_iff_of_replaced replaces
  have differ := SchedulerState.replaced_ne_hash replaces
  have gone := SchedulerState.getElem?_pending_of_replaced replaces replacedHash
  rw [if_neg differ.symm, if_pos rfl] at gone
  have unchanged := (start.scheduler.candidates_admit
    (validatedTransactionFromLiveTx arrival.chain arrival.observation tx) config).1
  have seating := (invariant.admitTx
    (validatedTransactionFromLiveTx arrival.chain arrival.observation tx)).seating
  generalize admits : start.scheduler.admitTx
    (validatedTransactionFromLiveTx arrival.chain arrival.observation tx) config = admission
    at replaces status gone unchanged seating
  obtain ⟨outcome, admitted⟩ := admission
  refine processPendingHashWithFetchedTx_cases
    (motive := fun final => ReplacementWhole replacedHash start final.2.live ↔
      ∀ write < 7, refuses write = false) fetched admits replaces ?refused ?accepted
  case refused =>
    intro write bound full stopped scheduler changes same few wrote
    refine iff_of_false (fun whole => ?_) fun taken => ?_
    · -- The replacing transaction became pending, and its `TxDecoded` is not in the log.
      have changed := whole.2 tx.hash
      rw [wrote.enqueuedChanges_drop, wrote.scheduler, same] at changed
      have logged := changed.mp ((status tx.hash).mpr (.inr rfl))
      rcases few with rfl | rfl
      · cases logged
      · exact differ (List.mem_singleton.mp logged).symm
    · rw [taken write bound] at full
      cases full
  case accepted =>
    intro taken later wrote
    refine iff_of_true ?_ taken
    have spared : ∀ (hash : TxHash) (held : ValidatedTransaction),
        admitted.pending[hash]? = some held → held.hash ≠ replacedHash := by
      intro hash held present same
      rw [seating.keyed present] at same
      rw [same, gone] at present
      cases present
    have kept : Kept start replacedHash admitted.pending [replacedHash, tx.hash] later :=
      ⟨by rw [wrote.scheduler]; rfl,
        by rw [wrote.scheduler]; exact .invalidateCandidateHash admitted replacedHash unchanged.symm,
        wrote.queue⟩
    obtain ⟨-, -, final⟩ := (spares_announceTransitions tx outcome.queueTransitions).run
      (Kept.serveRefusing spared) kept
    obtain ⟨written, queue, recorded⟩ := final.queue
    refine ⟨final.invalidated, fun hash => ?_⟩
    rw [queue, List.drop_left, recorded, final.pending, status hash]
    simp [ValidatedTransaction.hash, validatedTransactionFromLiveTx]

end Replacement

/-- Transaction 10 is pending and has a candidate. -/
def pendingWithCandidate : List SchedulerCommand :=
  [.admitTx (validatedTransactionFromLiveTx (sampleArrival (sampleLiveTx 10 1 0 100)).chain
      (sampleArrival (sampleLiveTx 10 1 0 100)).observation (sampleLiveTx 10 1 0 100)),
    .registerCandidates [sampleCandidate "cand-a" 10]]

/-- The state of `pendingWithCandidate`, with empty queues. -/
def replacementStart : LiveState where
  scheduler := SchedulerState.run {} {} pendingWithCandidate
  nextSeqId := 0

/-- Transaction 11 replaces transaction 10, and every write is accepted. -/
theorem replacementWhole_accepted :
    ReplacementWhole 10 replacementStart
      ((processPendingHashWithFetchedTx (sampleArrival (sampleLiveTx 11 1 0 200))).run
        (serveRefusing {} fun _ => false) { live := replacementStart }).2.live :=
  (replacementWhole_iff {} pendingWithCandidate replacementStart rfl
    (sampleArrival (sampleLiveTx 11 1 0 200)) (sampleLiveTx 11 1 0 200) rfl 10
    (by decide +kernel) fun _ => false).mpr fun _ _ => rfl

/-- Transaction 11 replaces transaction 10, and the first write, the `TxSeen`, is refused. The
call returns normally; nothing is in the log, and the candidate of transaction 10 is as it was. -/
theorem replacementWhole_refused :
    let final := (processPendingHashWithFetchedTx (sampleArrival (sampleLiveTx 11 1 0 200))).run
      (serveRefusing {} fun write => write = 0) { live := replacementStart }
    final.1.isOk = true ∧
      ¬ CandidatesInvalidated 10 replacementStart.scheduler final.2.live.scheduler ∧
      ¬ ∀ hash, replacementStart.scheduler.pending.contains hash ≠
          final.2.live.scheduler.pending.contains hash ↔
        hash ∈ enqueuedChanges
          (final.2.live.storageQueue.drop replacementStart.storageQueue.length) := by
  intro final
  refine ⟨by decide +kernel, fun invalidated => ?_, fun agree => ?_⟩
  · have stored : replacementStart.scheduler.candidates["cand-a"]? =
        some ⟨sampleCandidate "cand-a" 10, 0, 1⟩ := by decide +kernel
    have untouched : final.2.live.scheduler.candidates["cand-a"]? =
        some ⟨sampleCandidate "cand-a" 10, 0, 1⟩ := by decide +kernel
    obtain ⟨later, found, advanced⟩ := invalidated.advanced stored (by decide)
    cases untouched.symm.trans found
    exact absurd advanced (by decide)
  · have logged := (agree 10).mp (by decide +kernel)
    exact absurd logged (by decide +kernel)

end Mempulse.LiveRpc
