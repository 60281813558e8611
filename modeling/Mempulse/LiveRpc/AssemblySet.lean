import Mempulse.LiveRpc.Handoffs
import Mempulse.LiveRpc.Registration

/-!
# The live assembly set

A replacement moves the scheduler's candidates of the replaced transaction on by a generation, so
that a late simulation result is stale. Nothing takes a candidate out of the assembly set that was
selected before. Between replacements of selected transactions every selected candidate has its
transactions pending: a candidate is registered with pending members, its task stays current only
as long as they are pending, and the builder is handed current candidates only
(`selectedPending_of_run`). A storage queue that refuses a write between the admission of a
replacement and its invalidation would leave a stale task current.
-/

set_option autoImplicit false

namespace Mempulse.LiveRpc

open Std EventLog Library Scheduler Storage Searcher Builder

/-! ## The invariant -/

/-- What a run keeps of a task that was enqueued. -/
structure Tracked (scheduler : SchedulerState) (task : SimulationTask) : Prop where
  hashes : ∀ candidate ∈ task.candidates,
    candidate.spec.memberTxHashes = opportunityHashes candidate.opportunity.candidate
  distinct : task.candidates.Pairwise fun left right =>
    left.spec.candidateId ≠ right.spec.candidateId
  settled : ∀ candidate ∈ task.candidates, Settled scheduler candidate.spec

/-- Every transaction of a selected candidate is pending in the scheduler. -/
def SelectedPending (state : LiveAssembly) : Prop :=
  ∀ candidate ∈ state.engine.candidates, ∀ hash ∈ candidate.txHashes,
    state.live.scheduler.pending.contains hash = true

/-- What a run keeps. -/
structure LiveAssembly.Sound (config : SchedulerConfig) (state : LiveAssembly) : Prop where
  invariant : RepresentationInvariant config state.live.scheduler
  within : GenerationsWithin u64Max state.live.scheduler
  tracked : ∀ task ∈ state.live.simulationQueue, Tracked state.live.scheduler task
  selected : SelectedPending state

section Tasks

variable {config : SchedulerConfig} {state : SchedulerState}

theorem GenerationsWithin.taken {next : SchedulerState} {step : SchedulerStep}
    (within : GenerationsWithin u64Max state) (taken : state.Takes config step next) :
    GenerationsWithin u64Max next :=
  within.of_step (by decide) (Nat.le_refl _) (fun _ _ => nextGeneration_le_u64Max _) taken

theorem GenerationsWithin.registerCandidates (within : GenerationsWithin u64Max state)
    (candidates : List SchedulerCandidate) :
    GenerationsWithin u64Max (state.registerCandidates candidates).2 :=
  (state.run_registrations {} candidates).invariant
    (motive := fun _ state => GenerationsWithin u64Max state) within
    fun _ before taken => GenerationsWithin.taken before taken

theorem GenerationsWithin.applySimulationResult (within : GenerationsWithin u64Max state)
    (result : SchedulerSimulationResult) :
    GenerationsWithin u64Max (state.applySimulationResult result).2 := by
  have taken : state.Takes {} (.applied result (state.applySimulationResult result).1)
      (state.applySimulationResult result).2 := rfl
  exact GenerationsWithin.taken within taken

theorem GenerationsWithin.admitAndInvalidate (within : GenerationsWithin u64Max state)
    (tx : ValidatedTransaction) :
    GenerationsWithin u64Max (LiveRpc.admitAndInvalidate config state tx) := by
  have admits : state.Takes config (.admitted tx (state.admitTx tx config).1)
      (state.admitTx tx config).2 := rfl
  have admitted := GenerationsWithin.taken within admits
  unfold LiveRpc.admitAndInvalidate invalidated
  dsimp only
  split
  case h_1 replacedHash _ =>
    have invalidates : (state.admitTx tx config).2.Takes config (.invalidated replacedHash)
        ((state.admitTx tx config).2.invalidateCandidateHash replacedHash) := rfl
    exact GenerationsWithin.taken admitted invalidates
  case h_2 => exact admitted

/-- The tasks of a registration are tracked. -/
theorem Registrable.tracked {prepared : List PreparedSimulationTask}
    (registrable : Registrable state prepared) (within : GenerationsWithin u64Max state)
    {task : SimulationTask} {chain : ChainRpcConfig} {nowUnixMs : Int64}
    (member : task ∈ registeredTasks state chain nowUnixMs prepared) :
    Tracked (state.registerCandidates (prepared.map (·.candidate))).2 task := by
  obtain ⟨group, listed, rfl⟩ := List.mem_map.mp member
  obtain ⟨⟨key, group⟩, stored, rfl⟩ := List.mem_map.mp listed
  have part : group.2.Sublist (((state.registerCandidates (prepared.map (·.candidate))).1.zip
      prepared).map registeredCandidate) :=
    partsOf_empty.groupTasks _ key group (ExtTreeMap.mem_toList_iff_getElem?_eq_some.mp stored)
  have origin : ∀ candidate ∈ group.2, ∃ entry ∈
      (state.registerCandidates (prepared.map (·.candidate))).1.zip prepared,
        registeredCandidate entry = candidate :=
    fun candidate inGroup => List.mem_map.mp (part.subset inGroup)
  refine ⟨fun candidate inGroup => ?_, ?_, fun candidate inGroup => ?_⟩
  · obtain ⟨entry, zipped, rfl⟩ := origin candidate inGroup
    exact (mem_zip_registerCandidates zipped).2.trans
      (registrable.hashes _ (List.of_mem_zip zipped).2)
  · refine List.Pairwise.sublist part (List.pairwise_map.mpr ?_)
    refine (pairwise_zip_snd registrable.distinct _).imp_of_mem fun first second differ => ?_
    dsimp only [registeredCandidate]
    rw [(mem_zip_registerCandidates first).1, (mem_zip_registerCandidates second).1]
    exact differ
  · obtain ⟨entry, zipped, rfl⟩ := origin candidate inGroup
    refine settled_of_registered (fun candidate listed member named => ?_) within
      (List.of_mem_zip zipped).1
    obtain ⟨prepared, inPrepared, rfl⟩ := List.mem_map.mp listed
    rw [registrable.hashes _ inPrepared] at named
    exact registrable.pending _ inPrepared member named

end Tasks

/-! ## Applying an outcome -/

section Outcomes

variable {config : SchedulerConfig} {chain : ChainRpcConfig} {outcome : RemoteSimulationOutcome}
  {finishedUnixMs : Int64} {candidates : List RegisteredSimulationCandidate}
  {state : LiveState × QueueReplies} {accepted : ExtTreeSet CandidateId}

theorem logs_tryAppend (chain : ChainRpcConfig) (nowUnixMs : Int64) (payload : EventPayload)
    (state : LiveState × QueueReplies) :
    Logs state.1 (tryAppend chain nowUnixMs payload state).2.1 := by
  unfold tryAppend
  split <;> exact ⟨rfl, rfl⟩

theorem logs_appendDecisions (decisions : List BuilderDecisionRecord)
    (state : LiveState × QueueReplies) :
    Logs state.1 (appendDecisions chain finishedUnixMs decisions state).1 := by
  induction decisions generalizing state with
  | nil => exact .rfl _
  | cons decision rest ih =>
      have appended : Logs state.1 (tryAppend chain finishedUnixMs (buildAssemblyDecisionPayload
          decision.txHash decision.blockNumber decision.decision) state).2.1 :=
        logs_tryAppend _ _ _ state
      dsimp only [appendDecisions]
      split
      · exact appended
      · exact appended.trans (ih _)

/-- What every result preserves, and no event touches, holds after the results are applied. -/
theorem applySimulationResults_invariant {motive : LiveState → Prop}
    (preserved : ∀ live : LiveState, ∀ result, motive live →
      motive { live with scheduler := (live.scheduler.applySimulationResult result).2 })
    (logged : ∀ before after : LiveState, Logs before after → motive before → motive after)
    (before : motive state.1) :
    motive (applySimulationResults chain outcome finishedUnixMs candidates state accepted).2.1 := by
  induction candidates generalizing state accepted with
  | nil => exact before
  | cons candidate rest ih =>
      have applied := preserved state.1 (simulationResultOf outcome candidate.spec) before
      have completed := logged _ _ (logs_tryAppend chain finishedUnixMs (.simCompleted
        (buildSimCompletedPayload candidate.opportunity.record outcome)) (_, state.2)) applied
      dsimp only [applySimulationResults]
      split
      · exact ih applied
      · split
        · exact completed
        · split
          · have submitted := logged _ _ (logs_tryAppend chain finishedUnixMs
              (buildBundleSubmittedPayload candidate.opportunity.record
                (buildSimCompletedPayload candidate.opportunity.record outcome)) _) completed
            split
            · exact submitted
            · exact ih submitted
          · exact ih completed

theorem applySimulationResults_scheduler {motive : SchedulerState → Prop}
    (preserved : ∀ scheduler result, motive scheduler →
      motive (scheduler.applySimulationResult result).2) (before : motive state.1.scheduler) :
    motive (applySimulationResults chain outcome finishedUnixMs candidates state
      accepted).2.1.scheduler := by
  refine applySimulationResults_invariant (motive := fun live => motive live.scheduler)
    (fun live result => preserved live.scheduler result) (fun _ _ logs held => ?_) before
  rw [logs.1]
  exact held

theorem applySimulationResults_queue :
    (applySimulationResults chain outcome finishedUnixMs candidates state
      accepted).2.1.simulationQueue = state.1.simulationQueue :=
  applySimulationResults_invariant
    (motive := fun live => live.simulationQueue = state.1.simulationQueue)
    (fun _ _ same => same) (fun _ _ logs same => logs.2.trans same) rfl

theorem pending_applySimulationResult (state : SchedulerState)
    (result : SchedulerSimulationResult) :
    (state.applySimulationResult result).2.pending = state.pending := by
  obtain ⟨registered, head, stale, same⟩ := state.sameAdmission_applySimulationResult result
  rw [same]

/-- The members of a task are pending, unless its generation is the last of the counter. -/
def MembersPending (scheduler : SchedulerState) (spec : SimulationTaskSpec) : Prop :=
  spec.generation = u64Max ∨
    ∀ member ∈ spec.memberTxHashes, scheduler.pending.contains member = true

theorem task_simulationResultOf {spec : SimulationTaskSpec} (named : spec.memberTxHashes ≠ []) :
    (simulationResultOf outcome spec).task = spec := by
  have normalized : normalizedMemberHashes spec.txHash spec.memberTxHashes = spec.memberTxHashes := by
    unfold normalizedMemberHashes
    rw [if_neg (by simpa using named)]
  dsimp only [SchedulerSimulationResult.task, simulationResultOf]
  rw [normalized]

/-- A candidate that is handed to the builder has its members pending. -/
theorem mem_applySimulationResults
    (settled : ∀ candidate ∈ candidates, Settled state.1.scheduler candidate.spec)
    (named : ∀ candidate ∈ candidates, candidate.spec.memberTxHashes ≠ [])
    {collected : ExtTreeSet CandidateId}
    (whole : (applySimulationResults chain outcome finishedUnixMs candidates state accepted).1 =
      some collected) {id : CandidateId} (member : id ∈ collected) :
    id ∈ accepted ∨ ∃ candidate ∈ candidates, candidate.spec.candidateId = id ∧
      MembersPending state.1.scheduler candidate.spec := by
  induction candidates generalizing state accepted with
  | nil =>
      cases whole
      exact .inl member
  | cons candidate rest ih =>
      let result := simulationResultOf outcome candidate.spec
      obtain ⟨first, others⟩ := List.forall_mem_cons.mp settled
      obtain ⟨nonempty, namedOthers⟩ := List.forall_mem_cons.mp named
      have onward : ∀ later : LiveState × QueueReplies,
          later.1.scheduler = (state.1.scheduler.applySimulationResult result).2 →
          ∀ taken, (applySimulationResults chain outcome finishedUnixMs rest later taken).1 =
            some collected →
          id ∈ taken ∨ ∃ other ∈ candidate :: rest, other.spec.candidateId = id ∧
            MembersPending state.1.scheduler other.spec := by
        intro later scheduler taken rests
        have kept : ∀ candidate ∈ rest, Settled later.1.scheduler candidate.spec := by
          intro other inRest
          rw [scheduler]
          exact (others other inRest).applySimulationResult result
        have found := ih kept namedOthers rests
        unfold MembersPending at found
        rw [scheduler, pending_applySimulationResult] at found
        refine found.imp_right ?_
        rintro ⟨other, inRest, holds⟩
        exact ⟨other, .tail _ inRest, holds⟩
      -- The set of ids after this candidate's result.
      have collects : id ∈ (if (state.1.scheduler.applySimulationResult
            result).1.builderHandoffs.isEmpty then accepted
          else accepted.insert candidate.spec.candidateId) →
          id ∈ accepted ∨ ∃ other ∈ candidate :: rest, other.spec.candidateId = id ∧
            MembersPending state.1.scheduler other.spec := by
        intro taken
        split at taken
        case isTrue => exact .inl taken
        case isFalse handed =>
          rcases ExtTreeSet.mem_insert.mp taken with same | before
          · refine .inr ⟨candidate, .head _, LawfulEqCmp.eq_of_compare same, ?_⟩
            exact first.of_handoff (task_simulationResultOf nonempty) (by simpa using handed)
          · exact .inl before
      dsimp only [applySimulationResults] at whole
      split at whole
      · exact onward _ rfl _ whole
      · split at whole
        · cases whole
        · split at whole
          · split at whole
            · cases whole
            · rcases onward _ ((logs_tryAppend _ _ _ _).1.trans (logs_tryAppend _ _ _ _).1) _ whole with
                taken | found
              · exact collects taken
              · exact .inr found
          · rcases onward _ (logs_tryAppend _ _ _ _).1 _ whole with taken | found
            · exact collects taken
            · exact .inr found

/-- An insert selects nothing but its candidate. -/
theorem mem_insert {engine : AssemblyEngine} {candidate selected : AssemblyCandidate}
    (member : selected ∈ (engine.insert candidate).2.candidates) :
    selected ∈ engine.candidates ∨ selected = candidate := by
  rcases engine.insert_cases candidate with ⟨reason, rejected⟩ | ⟨-, -, -, metrics, inserted⟩
  · rw [rejected, (AssemblyEngine.liveObjective_reject engine candidate.candidateId reason).1]
      at member
    exact .inl member
  · rw [inserted] at member
    rcases List.mem_append.mp member with kept | new
    · exact .inl (List.mem_of_mem_filter kept)
    · exact .inr (List.mem_singleton.mp new)

theorem txHashes_fromSimulatedOpportunity {opportunity : OpportunityCandidate}
    {encode : List UInt8 → String} {batch : SimulationBatchResult} {candidate : AssemblyCandidate}
    (built : fromSimulatedOpportunity encode opportunity batch = .ok candidate) :
    candidate.txHashes = opportunityHashes opportunity := by
  dsimp only [fromSimulatedOpportunity] at built
  cases joined : joinSimulationResults batch.txResults true 0 (opportunityHashes opportunity) with
  | error error =>
      rw [joined] at built
      cases built
  | ok totals =>
      rw [joined] at built
      cases built
      rfl

/-- What is selected after the insertions was selected before or is of an accepted candidate. -/
theorem mem_insertAccepted {batch : SimulationBatchResult} {engine : AssemblyEngine}
    {selected : AssemblyCandidate}
    (member : selected ∈ (insertAccepted batch accepted candidates engine).2.candidates) :
    selected ∈ engine.candidates ∨ ∃ candidate ∈ candidates,
      candidate.spec.candidateId ∈ accepted ∧
        selected.txHashes = opportunityHashes candidate.opportunity.candidate := by
  induction candidates generalizing engine with
  | nil => exact .inl member
  | cons candidate rest ih =>
      have onward : ∀ engine : AssemblyEngine,
          selected ∈ (insertAccepted batch accepted rest engine).2.candidates →
          selected ∈ engine.candidates ∨ ∃ other ∈ candidate :: rest,
            other.spec.candidateId ∈ accepted ∧
              selected.txHashes = opportunityHashes other.opportunity.candidate := by
        intro engine listed
        refine (ih listed).imp_right ?_
        rintro ⟨other, inRest, found⟩
        exact ⟨other, .tail _ inRest, found⟩
      dsimp only [insertAccepted] at member
      split at member
      case isFalse => exact onward engine member
      case isTrue taken =>
        split at member
        case h_2 => exact onward engine member
        case h_1 built _ =>
          rcases onward _ member with kept | found
          · refine (mem_insert kept).imp_right ?_
            rintro rfl
            exact ⟨candidate, .head _, taken, txHashes_fromSimulatedOpportunity ‹_›⟩
          · exact .inr found

end Outcomes

/-! ## Runs -/

/-- A transaction takes no slot of a selected transaction, and while it takes that of another one
the storage queue refuses nothing before the invalidation. A task is simulated with its members
pending when its generation is the last of the counter. -/
def LiveAssembly.Spares (config : SchedulerConfig) (state : LiveAssembly) : LiveStep → Prop
  | .processed arrival replies =>
    ∀ tx, arrival.fetchedTx = some tx → ∀ incumbentHash,
      Supplants config state.live.scheduler
        (validatedTransactionFromLiveTx arrival.chain arrival.observation tx) incumbentHash →
      (∀ candidate ∈ state.engine.candidates, incumbentHash ∉ candidate.txHashes) ∧
        replies.Takes writesBeforeInvalidation
  | .simulated number _ _ _ =>
    ∀ task, state.live.simulationQueue[number]? = some task →
      ∀ candidate ∈ task.candidates, candidate.spec.generation = u64Max →
        ∀ member ∈ candidate.spec.memberTxHashes,
          state.live.scheduler.pending.contains member = true

/-- Every step of the run spares what is selected before it. -/
def LiveAssembly.RunSpares (config : SchedulerConfig) : LiveAssembly → List LiveStep → Prop
  | _, [] => True
  | state, step :: rest => state.Spares config step ∧ RunSpares config (state.step config step) rest

section Runs

variable {config : SchedulerConfig} {state : LiveAssembly}

theorem LiveAssembly.Sound.start (config : SchedulerConfig) (nextSeqId : UInt64)
    (assembly : AssemblyConfig) : (LiveAssembly.start nextSeqId assembly).Sound config where
  invariant := RepresentationInvariant.empty config
  within := fun id entry stored => by simp [LiveAssembly.start] at stored
  tracked := fun _ queued => nomatch queued
  selected := fun _ listed => nomatch listed

theorem Tracked.of_settled {before after : SchedulerState} {task : SimulationTask}
    (tracked : Tracked before task)
    (settled : ∀ spec, Settled before spec → Settled after spec) : Tracked after task where
  hashes := tracked.hashes
  distinct := tracked.distinct
  settled := fun candidate listed => settled _ (tracked.settled candidate listed)

/-- The engine does not change when the live state is another one. -/
theorem LiveAssembly.Sound.of_live (sound : state.Sound config) {live : LiveState}
    (invariant : RepresentationInvariant config live.scheduler)
    (within : GenerationsWithin u64Max live.scheduler)
    (tracked : ∀ task ∈ live.simulationQueue, Tracked live.scheduler task)
    (pending : ∀ hash, state.live.scheduler.pending.contains hash = true →
      (∃ candidate ∈ state.engine.candidates, hash ∈ candidate.txHashes) →
        live.scheduler.pending.contains hash = true) :
    LiveAssembly.Sound config { state with live := live } where
  invariant := invariant
  within := within
  tracked := tracked
  selected := fun candidate listed hash named =>
    pending hash (sound.selected candidate listed hash named) ⟨candidate, listed, named⟩

/-- Registering candidates of pending transactions keeps everything. -/
theorem LiveAssembly.Sound.registered (sound : state.Sound config) {live : LiveState}
    {replies : QueueReplies} {seated : SchedulerState}
    (invariant : RepresentationInvariant config seated) (within : GenerationsWithin u64Max seated)
    (settled : ∀ spec, Settled state.live.scheduler spec → Settled seated spec)
    (pending : ∀ hash, state.live.scheduler.pending.contains hash = true →
      (∃ candidate ∈ state.engine.candidates, hash ∈ candidate.txHashes) →
        seated.pending.contains hash = true)
    (registered : Registered state.live seated (live, replies)) :
    LiveAssembly.Sound config { state with live := live } := by
  cases registered with
  | cut scheduler queue =>
      dsimp only at scheduler queue
      refine sound.of_live (scheduler ▸ invariant) (scheduler ▸ within) ?_ (scheduler ▸ pending)
      rw [scheduler, queue]
      exact fun task listed => (sound.tracked task listed).of_settled settled
  | registered chain nowUnixMs prepared registrable enqueued =>
      obtain ⟨scheduler, tasks, queue, part⟩ := enqueued
      dsimp only at scheduler queue
      have same := pending_registerCandidates seated (prepared.map (·.candidate))
      refine sound.of_live ?_ ?_ ?_ ?_
      · rw [scheduler]
        exact invariant.execute (.registerCandidates (prepared.map (·.candidate)))
      · rw [scheduler]
        exact GenerationsWithin.registerCandidates within _
      · rw [scheduler, queue]
        intro task listed
        rcases List.mem_append.mp listed with before | new
        · exact (sound.tracked task before).of_settled fun spec held =>
            (settled spec held).registerCandidates _
        · exact registrable.tracked within (part.subset new)
      · rw [scheduler, same]
        exact pending

theorem LiveAssembly.Sound.processed (sound : state.Sound config) {arrival : Arrival}
    {replies : QueueReplies} (spares : state.Spares config (.processed arrival replies)) :
    (state.step config (.processed arrival replies)).Sound config := by
  cases fetched : arrival.fetchedTx with
  | none =>
      have logs : Logs state.live ((processPendingHashWithFetchedTx arrival).run
          (serveReplying config) (state.live, replies)).2.1 :=
        run_processPendingHash_unfetched fetched
      exact sound.registered sound.invariant sound.within (fun _ settled => settled)
        (fun _ held _ => held) (Registered.of_logs rfl rfl replies logs)
  | some tx =>
      let validated := validatedTransactionFromLiveTx arrival.chain arrival.observation tx
      have clear : replies.Takes writesBeforeInvalidation ∨
          (SchedulerPersistenceDecision.fromAdmission
            (state.live.scheduler.admitTx validated config).1.admission).replacedHash = none := by
        cases decision : (state.live.scheduler.admitTx validated config).1.admission with
        | replaced replacedHash =>
            exact .inl (spares tx fetched replacedHash (supplants_of_replaced decision)).2
        | admitted | duplicate | underpricedReplacement | senderLimitReached => exact .inr rfl
      refine sound.registered (RepresentationInvariant.admitAndInvalidate sound.invariant validated)
        (GenerationsWithin.admitAndInvalidate sound.within validated)
        (fun spec settled => settled.admitAndInvalidate validated) ?_
        (run_processPendingHashWithFetchedTx sound.invariant fetched clear)
      rintro hash held ⟨candidate, selected, named⟩
      exact pending_admitAndInvalidate validated held fun supplants =>
        (spares tx fetched hash supplants).1 candidate selected named

/-- What the builder selects of the outcome of a tracked task has its transactions pending. -/
theorem pending_of_mem_applyBuilderAssemblyState {task : SimulationTask}
    {outcome : RemoteSimulationOutcome} {finishedUnixMs : Int64} {live : LiveState}
    {replies : QueueReplies} {engine : AssemblyEngine} {selected : AssemblyCandidate}
    (tracked : Tracked live.scheduler task)
    (last : ∀ candidate ∈ task.candidates, candidate.spec.generation = u64Max →
      ∀ member ∈ candidate.spec.memberTxHashes, live.scheduler.pending.contains member = true)
    {accepted : ExtTreeSet CandidateId}
    (whole : (applySimulationResults task.chain outcome finishedUnixMs task.candidates
      (live, replies) ∅).1 = some accepted)
    (member : selected ∈ (applyBuilderAssemblyState engine task outcome accepted).2.candidates) :
    selected ∈ engine.candidates ∨
      ∀ hash ∈ selected.txHashes, live.scheduler.pending.contains hash = true := by
  have named : ∀ candidate ∈ task.candidates, candidate.spec.memberTxHashes ≠ [] := by
    intro candidate listed
    rw [tracked.hashes candidate listed]
    exact opportunityHashes_ne_nil _
  unfold applyBuilderAssemblyState at member
  split at member
  case h_1 => exact .inl member
  case h_2 =>
    refine (mem_insertAccepted member).imp_right ?_
    rintro ⟨candidate, listed, taken, hashes⟩ hash inSelected
    rcases mem_applySimulationResults tracked.settled named whole taken with never | ⟨other, inTask,
      same, pending⟩
    · exact absurd never ExtTreeSet.not_mem_empty
    · have identical : other = candidate :=
        
        List.inj_on_of_nodup_map (List.pairwise_map.mpr tracked.distinct) inTask listed same
      subst identical
      rw [hashes, ← tracked.hashes _ listed] at inSelected
      rcases pending with exhausted | held
      · exact last _ listed exhausted hash inSelected
      · exact held hash inSelected

theorem LiveAssembly.Sound.simulated (sound : state.Sound config) {number : Nat}
    {outcome : RemoteSimulationOutcome} {finishedUnixMs : Int64} {replies : QueueReplies}
    (spares : state.Spares config (.simulated number outcome finishedUnixMs replies)) :
    (state.step config (.simulated number outcome finishedUnixMs replies)).Sound config := by
  dsimp only [LiveAssembly.step]
  split
  case h_1 => exact sound
  case h_2 task queued =>
    let applied := applySimulationResults task.chain outcome finishedUnixMs task.candidates
      (state.live, replies) ∅
    have tracked := sound.tracked task (List.mem_of_getElem? queued)
    have pending : applied.2.1.scheduler.pending = state.live.scheduler.pending :=
      applySimulationResults_scheduler
        (motive := fun scheduler => scheduler.pending = state.live.scheduler.pending)
        (fun scheduler result same =>
          (pending_applySimulationResult scheduler result).trans same) rfl
    -- What the results leave alone; the engine is not looked at.
    have before : ∀ live : LiveState, Logs applied.2.1 live →
        LiveAssembly.Sound config { state with live := live } := by
      intro live logs
      refine sound.of_live ?_ ?_ ?_ ?_
      · rw [logs.1]
        exact applySimulationResults_scheduler (motive := RepresentationInvariant config)
          (fun _ result held => held.execute (.applySimulationResult result)) sound.invariant
      · rw [logs.1]
        exact applySimulationResults_scheduler (motive := GenerationsWithin u64Max)
          (fun _ result held => GenerationsWithin.applySimulationResult held result) sound.within
      · rw [logs.1, logs.2, applySimulationResults_queue]
        intro other listed
        exact (sound.tracked other listed).of_settled fun spec settled =>
          applySimulationResults_scheduler (motive := (Settled · spec))
            (fun _ result held => held.applySimulationResult result) settled
      · rw [logs.1, pending]
        exact fun _ held _ => held
    dsimp only [applySimulationTaskOutcome]
    split
    case h_1 => exact before _ (.rfl _)
    case h_2 accepted whole =>
      split
      · exact before _ (.rfl _)
      · let decided := applyBuilderAssemblyState state.engine task outcome accepted
        have logs : Logs applied.2.1
            (appendDecisions task.chain finishedUnixMs decided.1 applied.2).1 :=
          logs_appendDecisions decided.1 applied.2
        have settled := before _ logs
        refine ⟨settled.invariant, settled.within, settled.tracked, fun selected member hash named => ?_⟩
        dsimp only
        rw [logs.1, pending]
        rcases pending_of_mem_applyBuilderAssemblyState tracked (spares task queued) whole member with
          kept | held
        · exact sound.selected selected kept hash named
        · exact held hash named

theorem LiveAssembly.Sound.step (sound : state.Sound config) {step : LiveStep}
    (spares : state.Spares config step) : (state.step config step).Sound config := by
  cases step with
  | processed arrival replies => exact sound.processed spares
  | simulated number outcome finishedUnixMs replies => exact sound.simulated spares

theorem LiveAssembly.Sound.run (sound : state.Sound config) {earlier later : List LiveStep}
    (spares : state.RunSpares config (earlier ++ later)) : (state.run config earlier).Sound config := by
  induction earlier generalizing state with
  | nil => exact sound
  | cons step rest ih => exact ih (sound.step spares.1) spares.2

/-- **In a run whose steps spare what is selected, every transaction of every selected candidate
is pending** after each step. -/
theorem selectedPending_of_run (config : SchedulerConfig) (nextSeqId : UInt64)
    (assembly : AssemblyConfig) (steps : List LiveStep)
    (spares : (LiveAssembly.start nextSeqId assembly).RunSpares config steps)
    (earlier later : List LiveStep) (whole : steps = earlier ++ later) :
    SelectedPending ((LiveAssembly.start nextSeqId assembly).run config earlier) := by
  subst whole
  exact ((LiveAssembly.Sound.start config nextSeqId assembly).run spares).selected

end Runs

/-- The outcome of a simulation in which the first swap succeeded. -/
def approvedSwap : RemoteSimulationOutcome where
  simId := "sim"
  status := .ok
  failCategory := none
  latencyMs := 7
  txCount := 1
  simulationBatch := some
    { chainContext := { blockNumber := 1 }
      txResults := [{ hash := 10, success := true, gasUsed := 21000 }]
      finalStateDiffHash := 5 }

/-- A swap arrives and its candidate is selected. -/
def selectSwap : List LiveStep :=
  [.processed (sampleArrival (sampleSwapLiveTx 10 1 0 100)) {},
    .simulated 0 approvedSwap 1700000000100 {}]

theorem selectedPending_of_run_swap :
    ((LiveAssembly.start 0 {}).run {} selectSwap).engine.candidates.map (·.txHashes) = [[10]] ∧
      SelectedPending ((LiveAssembly.start 0 {}).run {} selectSwap) := by
  refine ⟨by decide +kernel, selectedPending_of_run {} 0 {} selectSwap ⟨?_, ?_, trivial⟩ selectSwap []
    (List.append_nil _).symm⟩
  · rintro tx fetched incumbentHash ⟨-, taken, -⟩
    simp [LiveAssembly.start, SchedulerState.slot, SchedulerState.slotOf] at taken
  · have generations : ((LiveAssembly.start 0 {}).run {}
        (selectSwap.take 1)).live.simulationQueue.map
          (fun task => task.candidates.map (·.spec.generation)) = [[1]] := by decide +kernel
    intro task queued candidate listed last
    have first : task.candidates.map (·.spec.generation) = [1] :=
      List.mem_singleton.mp (generations ▸ List.mem_map_of_mem (List.mem_of_getElem? queued))
    have generation : candidate.spec.generation = 1 :=
      List.mem_singleton.mp (first ▸ List.mem_map_of_mem listed)
    rw [generation] at last
    exact absurd last (by decide)

/-- A swap that pays more takes the slot of the selected one, which stays selected. -/
theorem selectedSwap_replaced :
    let state := (LiveAssembly.start 0 {}).run {}
      (selectSwap ++ [.processed (sampleArrival (sampleSwapLiveTx 11 1 0 200)) {}])
    state.engine.candidates.map (·.txHashes) = [[10]] ∧
      state.live.scheduler.pending.contains 10 = false ∧
      state.live.scheduler.pending.contains 11 = true ∧ ¬ SelectedPending state := by
  intro state
  have selects : state.engine.candidates.map (·.txHashes) = [[10]] := by decide +kernel
  have gone : state.live.scheduler.pending.contains 10 = false := by decide +kernel
  refine ⟨selects, gone, by decide +kernel, fun pending => ?_⟩
  have member : [(10 : TxHash)] ∈ state.engine.candidates.map (·.txHashes) := by
    rw [selects]
    exact List.mem_singleton_self _
  obtain ⟨candidate, selected, hashes⟩ := List.mem_map.mp member
  have held := pending candidate selected 10 (by rw [hashes]; exact List.mem_singleton_self _)
  rw [gone] at held
  cases held

end Mempulse.LiveRpc
