import Mempulse.LiveRpc.Sequential
import Mempulse.Scheduler.Candidates

/-!
# Builder handoffs of a shared scheduler

Several workers share one scheduler while simulation results for the tasks it issued arrive. A
replacement is three commands of one worker: the admission that takes the old transaction out of
the pending set, the invalidation of its candidates, and the registration of the new ones. Other
commands can fall between them. A handoff has all its members pending as long as no candidate is
registered for a member that is gone, and no result arrives for a task with a member whose
invalidation is still due.
-/

set_option autoImplicit false

namespace Mempulse.LiveRpc

open Std EventLog Library Scheduler Storage Searcher

/-! ## The system -/

/-- What happens next: a worker makes its next call, the storage queue being full or not at the
time; the result of an issued task arrives; or the head advances. -/
inductive Turn where
  | worker (index : Nat) (storageFull : Bool)
  | simulated (number : Nat) (approved : Bool)
  | headAdvanced (blockNumber : UInt64)
  deriving DecidableEq

/-- The scheduler command an operation sends. -/
def commandOf : PipelineOp → Option SchedulerCommand
  | .admitOutcome tx => some (.admitTx tx)
  | .invalidateCandidateHash hash => some (.invalidateCandidateHash hash)
  | .registerCandidates candidates => some (.registerCandidates candidates)
  | _ => none

/-- The workers and what they share. `history` lists the steps of the scheduler so far; the tasks
it issued are read from there, and no worker reads it. -/
structure Floor where
  live : LiveState
  workers : List Pipeline
  history : List SchedulerStep := []

/-- The tasks a history issued, oldest first. -/
def issuedTasks (history : List SchedulerStep) : List SimulationTaskSpec :=
  history.filterMap fun
    | .issued _ task => some task
    | _ => none

/-- The result of a task. -/
def resultOf (task : SimulationTaskSpec) (approved : Bool) : SchedulerSimulationResult where
  candidateId := task.candidateId
  txHash := task.txHash
  memberTxHashes := task.memberTxHashes
  blockNumber := task.blockNumber
  generation := task.generation
  approved := approved

namespace Floor

/-- Every worker is about to process its own list of arrivals. -/
def start (nextSeqId : UInt64) (jobs : List (List Arrival)) : Floor where
  live := { nextSeqId := nextSeqId }
  workers := jobs.map processArrivals

/-- The scheduler executes a command. -/
def command (config : SchedulerConfig) (floor : Floor) (command : SchedulerCommand) : Floor :=
  { floor with
    live := { floor.live with scheduler := (floor.live.scheduler.execute config command).2 }
    history := floor.history ++ floor.live.scheduler.stepsOf config command }

/-- Serves a worker's call. -/
def serve (config : SchedulerConfig) (storageFull : Bool) (live : LiveState) :
    (op : PipelineOp) → PipelineReply op × LiveState
  | .tryEnqueue op =>
    if storageFull then (.error .queueFull, live) else LiveRpc.serve config live (.tryEnqueue op)
  | op => LiveRpc.serve config live op

/-- One turn: a call of a worker, or a message to the scheduler. -/
def turn (config : SchedulerConfig) (floor : Floor) : Turn → Floor
  | .worker index storageFull =>
    match floor.workers[index]? with
    | some (.call op next) =>
      let served := serve config storageFull floor.live op
      { live := served.2
        workers := floor.workers.set index (next served.1)
        history := floor.history ++
          (commandOf op).toList.flatMap (floor.live.scheduler.stepsOf config) }
    | _ => floor
  | .simulated number approved =>
    match (issuedTasks floor.history)[number]? with
    | some task => floor.command config (.applySimulationResult (resultOf task approved))
    | none => floor
  | .headAdvanced blockNumber => floor.command config (.advanceHead blockNumber)

/-- The floor after the turns. -/
def run (config : SchedulerConfig) (floor : Floor) (turns : List Turn) : Floor :=
  turns.foldl (turn config) floor

/-- What the scheduler hands to the builder when the result of a task arrives. -/
def handoffs (floor : Floor) (number : Nat) (approved : Bool) : List SchedulerBuilderHandoff :=
  match (issuedTasks floor.history)[number]? with
  | some task =>
    (floor.live.scheduler.applySimulationResult (resultOf task approved)).1.builderHandoffs
  | none => []

end Floor

/-! ## Orderly runs -/

/-- Whether an admission puts the transaction into the pending set. -/
def seats (admission : SchedulerAdmission) : Bool :=
  (SchedulerPersistenceDecision.fromAdmission admission).isAdmitted

/-- Whether the invalidation of a hash is due after a step, given whether it was before. -/
def dueAfter (hash : TxHash) (due : Bool) : SchedulerStep → Bool
  | .admitted tx outcome =>
    if outcome.admission = .replaced hash then true
    else if tx.hash = hash ∧ seats outcome.admission = true then false
    else due
  | .invalidated other => if other = hash then false else due
  | .issued _ _ | .applied _ _ | .headAdvanced _ => due

/-- A transaction has been replaced, its candidates have not been invalidated since, and it has
not been admitted again. -/
def invalidationDue (hash : TxHash) (history : List SchedulerStep) : Bool :=
  history.foldl (dueAfter hash) false

@[simp] theorem invalidationDue_concat (hash : TxHash) (history : List SchedulerStep)
    (step : SchedulerStep) :
    invalidationDue hash (history ++ [step]) = dueAfter hash (invalidationDue hash history) step := by
  rw [invalidationDue, List.foldl_append]
  rfl

namespace Floor

/-- The candidates a worker is about to register. -/
def registering (floor : Floor) (index : Nat) : List SchedulerCandidate :=
  match floor.workers[index]? with
  | some (.call (.registerCandidates candidates) _) => candidates
  | _ => []

/-- The members of an issued task. -/
def simulatedMembers (floor : Floor) (number : Nat) : List TxHash :=
  match (issuedTasks floor.history)[number]? with
  | some task => task.memberTxHashes
  | none => []

/-- No candidate is registered for a member that is not pending, no approval arrives for a task
with a member whose invalidation is due, and generations are not exhausted. -/
def Orderly (floor : Floor) : Turn → Prop
  | .worker index _ =>
    ∀ candidate ∈ floor.registering index,
      ∀ member ∈ normalizedMemberHashes candidate.txHash candidate.memberTxHashes,
        floor.live.scheduler.pending.contains member = true
  | .simulated number approved =>
    floor.history.length + 1 < 2 ^ 64 ∧
      (approved = true →
        ∀ member ∈ floor.simulatedMembers number, invalidationDue member floor.history = false)
  | .headAdvanced _ => True

instance (floor : Floor) : DecidablePred floor.Orderly
  | .worker index _ =>
    inferInstanceAs (Decidable (∀ candidate ∈ floor.registering index, ∀ member ∈ _, _))
  | .simulated _ _ =>
    inferInstanceAs (Decidable (_ ∧ (_ → ∀ member ∈ floor.simulatedMembers _, _)))
  | .headAdvanced _ => inferInstanceAs (Decidable True)

/-- Every turn of a run is orderly. -/
def RunsOrderly (config : SchedulerConfig) : Floor → List Turn → Prop
  | _, [] => True
  | floor, turn :: rest => floor.Orderly turn ∧ RunsOrderly config (floor.turn config turn) rest

instance decidableRunsOrderly (config : SchedulerConfig) :
    (floor : Floor) → (turns : List Turn) → Decidable (floor.RunsOrderly config turns)
  | _, [] => inferInstanceAs (Decidable True)
  | floor, turn :: rest =>
    have := decidableRunsOrderly config (floor.turn config turn) rest
    inferInstanceAs (Decidable (_ ∧ _))

end Floor

/-! ## What a step keeps -/

section Covers

variable {config : SchedulerConfig} {state next : SchedulerState} {history : List SchedulerStep}

/-- Every member of a task that nothing has superseded is pending, or its invalidation is due. -/
def Covers (history : List SchedulerStep) (state : SchedulerState) : Prop :=
  ∀ ⦃earlier between : List SchedulerStep⦄ ⦃candidate : SchedulerCandidate⦄
    ⦃task : SimulationTaskSpec⦄, history = earlier ++ .issued candidate task :: between →
      ¬ Superseded task between → ∀ member ∈ task.memberTxHashes,
        (∃ tx, state.pending[member]? = some tx) ∨ invalidationDue member history = true

/-- An admission seats its transaction, and unseats the one it replaces. -/
theorem pending_admitTx (state : SchedulerState) (tx : ValidatedTransaction)
    (config : SchedulerConfig) :
    (seats (state.admitTx tx config).1.admission = true →
      ∃ held, (state.admitTx tx config).2.pending[tx.hash]? = some held) ∧
    ∀ hash, (∃ held, state.pending[hash]? = some held) →
      (state.admitTx tx config).1.admission ≠ .replaced hash →
        ∃ held, (state.admitTx tx config).2.pending[hash]? = some held := by
  have seated : ∀ (pending : ExtTreeMap TxHash ValidatedTransaction) (hash : TxHash),
      (∃ held, pending[hash]? = some held) → ∃ held, (pending.insert tx.hash tx)[hash]? = some held := by
    rintro pending hash ⟨held, stored⟩
    rw [getElem?_insert_eq]
    split
    · exact ⟨tx, rfl⟩
    · exact ⟨held, stored⟩
  have here : ∀ pending : ExtTreeMap TxHash ValidatedTransaction,
      ∃ held, (pending.insert tx.hash tx)[tx.hash]? = some held :=
    fun pending => ⟨tx, by rw [getElem?_insert_eq, if_pos rfl]⟩
  refine SchedulerState.admit_cases (motive := fun admitted =>
    (seats admitted.1.admission = true → ∃ held, admitted.2.pending[tx.hash]? = some held) ∧
    ∀ hash, (∃ held, state.pending[hash]? = some held) →
      admitted.1.admission ≠ .replaced hash → ∃ held, admitted.2.pending[hash]? = some held)
    ?duplicate ?dangling ?replaced ?underpriced ?limited ?admitted
  case duplicate => exact fun _ => ⟨(fun seats => nomatch seats), fun _ stored _ => stored⟩
  case dangling => exact fun _ _ _ _ => ⟨fun _ => here _, fun hash stored _ => seated _ hash stored⟩
  case replaced =>
    rintro replacedHash incumbent - - - - after rfl
    refine ⟨fun _ => here _, fun hash stored other => seated _ hash ?_⟩
    obtain ⟨held, stored⟩ := stored
    refine ⟨held, ?_⟩
    rw [getElem?_erase_eq, if_neg]
    · exact stored
    · rintro rfl
      exact other rfl
  case underpriced =>
    exact fun _ _ _ _ _ _ => ⟨(fun seats => nomatch seats), fun _ stored _ => stored⟩
  case limited => exact fun _ _ _ => ⟨(fun seats => nomatch seats), fun _ stored _ => stored⟩
  case admitted => exact fun _ _ _ => ⟨fun _ => here _, fun hash stored _ => seated _ hash stored⟩

/-- What one step of the scheduler keeps. A task is issued only with all its members pending. -/
theorem Covers.step {step : SchedulerStep} (covers : Covers history state)
    (taken : state.Takes config step next)
    (issues : ∀ candidate task, step = .issued candidate task → ∀ member ∈ task.memberTxHashes,
      ∃ tx, state.pending[member]? = some tx) :
    Covers (history ++ [step]) next := by
  intro earlier between candidate task whole fresh member listed
  rw [invalidationDue_concat]
  rcases split_append_singleton whole with ⟨rfl, rfl, rfl⟩ | ⟨before, rfl, rfl⟩
  · -- The task has just been issued.
    left
    obtain ⟨tx, stored⟩ := issues candidate task rfl member listed
    cases taken
    exact ⟨tx, stored⟩
  · rw [superseded_append, superseded_singleton, not_or] at fresh
    have held := covers rfl fresh.1 member listed
    cases step with
    | admitted tx outcome =>
        have admitted := pending_admitTx state tx config
        rw [show state.admitTx tx config = (outcome, next) from taken] at admitted
        dsimp only [dueAfter]
        by_cases replaces : outcome.admission = .replaced member
        · right
          rw [if_pos replaces]
        · rw [if_neg replaces]
          by_cases seated : tx.hash = member ∧ seats outcome.admission = true
          · left
            rw [← seated.1]
            exact admitted.1 seated.2
          · rw [if_neg seated]
            exact held.imp_left fun stored => admitted.2 member stored replaces
    | issued other spec =>
        cases taken
        exact held
    | applied result outcome =>
        obtain ⟨candidates, head, stale, same⟩ := state.sameAdmission_applySimulationResult result
        rw [show state.applySimulationResult result = (outcome, next) from taken] at same
        cases same
        exact held
    | invalidated hash =>
        cases taken
        have other : hash ≠ member := by
          rintro rfl
          exact fresh.2 (Or.inr listed)
        exact held.imp_right fun due => by rw [dueAfter, if_neg other, due]
    | headAdvanced blockNumber =>
        cases taken
        exact held

/-- Registering candidates whose members are pending. -/
theorem Covers.registrations {candidates : List SchedulerCandidate}
    (pending : ∀ candidate ∈ candidates,
      ∀ member ∈ normalizedMemberHashes candidate.txHash candidate.memberTxHashes,
        ∃ tx, state.pending[member]? = some tx) (covers : Covers history state) :
    Covers (history ++ state.registrations candidates) (state.registerCandidates candidates).2 := by
  induction candidates generalizing state history with
  | nil =>
      rw [SchedulerState.registrations, List.append_nil]
      exact covers
  | cons candidate rest ih =>
      obtain ⟨first, others⟩ := List.forall_mem_cons.mp pending
      have registered : Covers (history ++ [.issued candidate (state.registerCandidate candidate).1])
          (state.registerCandidate candidate).2 := by
        refine @Covers.step {} _ _ _ _ covers rfl ?_
        rintro _ _ ⟨⟩
        exact first
      rw [SchedulerState.registrations, List.append_cons]
      exact ih others registered

end Covers

/-! ## Runs -/

/-- What a run keeps. -/
structure Floor.Sound (config : SchedulerConfig) (floor : Floor) : Prop where
  run : Run (SchedulerState.Takes config) {} floor.history floor.live.scheduler
  covers : Covers floor.history floor.live.scheduler

section Sound

variable {config : SchedulerConfig} {floor : Floor}

theorem Floor.Sound.start (config : SchedulerConfig) (nextSeqId : UInt64)
    (jobs : List (List Arrival)) : (Floor.start nextSeqId jobs).Sound config where
  run := .nil _
  covers := by
    intro earlier between candidate task whole
    cases earlier <;> cases whole

/-- The scheduler after a worker's call. -/
theorem Floor.scheduler_serve (config : SchedulerConfig) (storageFull : Bool) (live : LiveState)
    (op : PipelineOp) :
    (Floor.serve config storageFull live op).2.scheduler =
      match commandOf op with
      | some command => (live.scheduler.execute config command).2
      | none => live.scheduler := by
  cases op with
  | tryEnqueue op =>
      dsimp only [Floor.serve]
      split <;> rfl
  | _ => rfl

theorem Floor.Sound.execute {live : LiveState} {workers : List Pipeline}
    {command : SchedulerCommand} (sound : floor.Sound config)
    (scheduler : live.scheduler = (floor.live.scheduler.execute config command).2)
    (registers : ∀ candidates, command = .registerCandidates candidates →
      ∀ candidate ∈ candidates,
        ∀ member ∈ normalizedMemberHashes candidate.txHash candidate.memberTxHashes,
          ∃ tx, floor.live.scheduler.pending[member]? = some tx) :
    Floor.Sound config
      ⟨live, workers, floor.history ++ floor.live.scheduler.stepsOf config command⟩ := by
  refine ⟨?_, ?_⟩
  · dsimp only
    rw [scheduler]
    exact sound.run.append (floor.live.scheduler.run_stepsOf config command)
  · dsimp only
    rw [scheduler]
    cases command with
    | registerCandidates candidates => exact sound.covers.registrations (registers candidates rfl)
    | admitTx | applySimulationResult | invalidateCandidateHash | advanceHead =>
        exact @Covers.step config _ _ _ _ sound.covers rfl fun _ _ issued => nomatch issued

theorem Floor.Sound.turn (sound : floor.Sound config) {turn : Turn} (orderly : floor.Orderly turn) :
    (floor.turn config turn).Sound config := by
  cases turn with
  | worker index storageFull =>
      dsimp only [Floor.turn]
      split
      case h_1 op next found =>
        have served := Floor.scheduler_serve config storageFull floor.live op
        cases sends : commandOf op with
        | none =>
            rw [sends] at served
            refine ⟨?_, ?_⟩
            · rw [Option.toList_none, List.flatMap_nil, List.append_nil, served]
              exact sound.run
            · rw [Option.toList_none, List.flatMap_nil, List.append_nil, served]
              exact sound.covers
        | some command =>
            rw [sends] at served
            rw [Option.toList_some, List.flatMap_singleton]
            refine sound.execute served ?_
            rintro candidates rfl candidate listed member named
            cases op <;> cases sends
            simp only [Floor.Orderly, Floor.registering, found] at orderly
            exact contains_iff_exists.mp (orderly candidate listed member named)
      case h_2 => exact sound
  | simulated number approved =>
      dsimp only [Floor.turn]
      split
      · exact sound.execute rfl fun _ registers => nomatch registers
      · exact sound
  | headAdvanced blockNumber => exact sound.execute rfl fun _ registers => nomatch registers

theorem Floor.Sound.onward (sound : floor.Sound config) {turns : List Turn}
    (orderly : floor.RunsOrderly config turns) : (floor.run config turns).Sound config := by
  induction turns generalizing floor with
  | nil => exact sound
  | cons turn rest ih => exact ih (sound.turn orderly.1) orderly.2

theorem Floor.RunsOrderly.cons {turn : Turn} {later : List Turn} (now : floor.Orderly turn)
    (after : (floor.turn config turn).RunsOrderly config later) :
    floor.RunsOrderly config (turn :: later) :=
  ⟨now, after⟩

theorem Floor.RunsOrderly.append {earlier later : List Turn}
    (before : floor.RunsOrderly config earlier)
    (after : (floor.run config earlier).RunsOrderly config later) :
    floor.RunsOrderly config (earlier ++ later) := by
  induction earlier generalizing floor with
  | nil => exact after
  | cons turn rest ih => exact ⟨before.1, ih before.2 after⟩

theorem Floor.RunsOrderly.split {earlier : List Turn} {turn : Turn} {later : List Turn}
    (orderly : floor.RunsOrderly config (earlier ++ turn :: later)) :
    floor.RunsOrderly config earlier ∧ (floor.run config earlier).Orderly turn := by
  induction earlier generalizing floor with
  | nil => exact ⟨trivial, orderly.1⟩
  | cons first rest ih =>
      obtain ⟨before, now⟩ := ih orderly.2
      exact ⟨⟨orderly.1, before⟩, now⟩

/-! ## Handoffs -/

theorem exists_issued {history : List SchedulerStep} {number : Nat} {task : SimulationTaskSpec}
    (found : (issuedTasks history)[number]? = some task) :
    ∃ earlier candidate between, history = earlier ++ .issued candidate task :: between := by
  obtain ⟨step, member, isTask⟩ := List.mem_filterMap.mp (List.mem_of_getElem? found)
  cases step with
  | issued candidate spec =>
      cases isTask
      obtain ⟨earlier, between, whole⟩ := List.append_of_mem member
      exact ⟨earlier, candidate, between, whole⟩
  | admitted | applied | invalidated | headAdvanced => cases isTask

theorem task_resultOf {candidate : SchedulerCandidate} {task : SimulationTaskSpec}
    (issued : IssuedFor candidate task) (approved : Bool) : (resultOf task approved).task = task := by
  have members : normalizedMemberHashes task.txHash task.memberTxHashes = task.memberTxHashes := by
    unfold normalizedMemberHashes
    split
    case isTrue none =>
      rw [issued.memberTxHashes, normalizedMemberHashes] at none
      split at none
      case isTrue => cases none
      case isFalse some => exact absurd none some
    case isFalse => rfl
  rw [SchedulerSimulationResult.task, resultOf]
  dsimp only
  rw [members]

/-- What is handed off when an approval arrives in an orderly turn is pending. -/
theorem Floor.Sound.pending_of_handoff (sound : floor.Sound config) {number : Nat} {approved : Bool}
    (orderly : floor.Orderly (.simulated number approved)) {handoff : SchedulerBuilderHandoff}
    (emitted : handoff ∈ floor.handoffs number approved) {member : TxHash}
    (named : member ∈
      normalizedMemberHashes handoff.candidate.txHash handoff.candidate.memberTxHashes) :
    ∃ tx, floor.live.scheduler.pending[member]? = some tx := by
  obtain ⟨short, settled⟩ := orderly
  rw [Floor.simulatedMembers] at settled
  unfold Floor.handoffs at emitted
  split at emitted
  case h_2 => cases emitted
  case h_1 task found =>
    rw [found] at settled
    obtain ⟨earlier, candidate, between, whole⟩ := exists_issued found
    have run := sound.run
    rw [whole] at run
    have issued : IssuedFor candidate task := by
      obtain ⟨middle, -, rest⟩ := run.split
      cases rest with
      | cons head _ => exact head.issuedFor
    have arrives : floor.live.scheduler.Takes config
        (.applied (resultOf task approved)
          (floor.live.scheduler.applySimulationResult (resultOf task approved)).1)
        (floor.live.scheduler.applySimulationResult (resultOf task approved)).2 := rfl
    have applied := sound.run.append (.single arrives)
    rw [whole, List.append_assoc, List.cons_append] at applied
    have outcome := outcome_of_run applied rfl (by
      rw [whole] at short
      simp only [List.length_append, List.length_cons] at short ⊢
      exact short) (task_resultOf issued approved)
    rw [outcome] at emitted
    split at emitted
    case isFalse => cases emitted
    case isTrue fits =>
      dsimp only at emitted
      split at emitted
      case isFalse => cases emitted
      case isTrue accepted =>
        rw [List.mem_singleton.mp emitted, ← issued.memberTxHashes] at named
        refine (sound.covers whole fits.2 member named).resolve_right fun due => ?_
        have notDue := settled accepted member named
        rw [due] at notDue
        cases notDue

end Sound

/-- **No handoff of a replaced transaction in an orderly run.** Whatever the interleaving of the
workers' calls with arriving results, refused writes and advancing heads, every builder handoff
has all its members pending at that moment. -/
theorem handoffs_pending (config : SchedulerConfig) (nextSeqId : UInt64)
    (jobs : List (List Arrival)) (turns : List Turn)
    (orderly : (Floor.start nextSeqId jobs).RunsOrderly config turns)
    (earlier : List Turn) (number : Nat) (approved : Bool) (later : List Turn)
    (now : turns = earlier ++ .simulated number approved :: later) :
    let floor := (Floor.start nextSeqId jobs).run config earlier
    ∀ handoff ∈ floor.handoffs number approved,
      ∀ member ∈ normalizedMemberHashes handoff.candidate.txHash handoff.candidate.memberTxHashes,
        ∃ tx, floor.live.scheduler.pending[member]? = some tx := by
  intro floor handoff emitted member named
  subst now
  obtain ⟨before, here⟩ := orderly.split
  exact ((Floor.Sound.start config nextSeqId jobs).onward before).pending_of_handoff here emitted named

/-- A swap of the sample sender; the searcher makes one candidate of it. -/
def sampleSwapLiveTx (hash : TxHash) (sender : Address) (nonce : UInt64) (maxFeePerGasWei : U128) :
    LiveTx :=
  { sampleLiveTx hash sender nonce maxFeePerGasWei with input := [0x38, 0xed, 0x17, 0x39] }

/-- Two workers with a swap each; the second pays more for the same slot. -/
def competingSwaps : List (List Arrival) :=
  [[sampleArrival (sampleSwapLiveTx 10 1 0 100)], [sampleArrival (sampleSwapLiveTx 11 1 0 200)]]

/-- The candidate of the first swap. -/
def swapCandidate : SchedulerCandidate where
  candidateId := "ArbCandidate:0x000000000000000000000000000000000000000000000000000000000000000a"
  txHash := 10
  memberTxHashes := [10]
  score := 6045
  strategy := "ArbCandidate"
  detectedUnixMs := 1700000000001

/-- The first worker runs to its end, which takes 23 calls, and the approval of its task
arrives. -/
theorem handoffs_pending_approved :
    let floor := (Floor.start 0 competingSwaps).run {} (List.replicate 23 (.worker 0 false))
    floor.handoffs 0 true = [⟨swapCandidate, 0⟩] ∧
      ∀ handoff ∈ floor.handoffs 0 true,
        ∀ member ∈ normalizedMemberHashes handoff.candidate.txHash handoff.candidate.memberTxHashes,
          ∃ tx, floor.live.scheduler.pending[member]? = some tx := by
  have announced : (Floor.start 0 competingSwaps).RunsOrderly {}
      (List.replicate 17 (.worker 0 false)) := by decide +kernel
  -- The eighteenth call registers the candidate.
  have registers : ((Floor.start 0 competingSwaps).run {}
      (List.replicate 17 (.worker 0 false))).Orderly (.worker 0 false) := by
    have candidates : ((Floor.start 0 competingSwaps).run {}
        (List.replicate 17 (.worker 0 false))).registering 0 = [swapCandidate] := by decide +kernel
    intro candidate listed member named
    rw [candidates, List.mem_singleton] at listed
    subst listed
    cases List.mem_singleton.mp named
    decide +kernel
  have dispatches : ((Floor.start 0 competingSwaps).run {}
      (List.replicate 18 (.worker 0 false))).RunsOrderly {} (List.replicate 5 (.worker 0 false)) := by
    decide +kernel
  have arrives : ((Floor.start 0 competingSwaps).run {}
      (List.replicate 23 (.worker 0 false))).Orderly (.simulated 0 true) := by
    have members : ((Floor.start 0 competingSwaps).run {}
        (List.replicate 23 (.worker 0 false))).simulatedMembers 0 = [10] := by decide +kernel
    refine ⟨by decide +kernel, fun _ member named => ?_⟩
    rw [members, List.mem_singleton] at named
    subst named
    decide +kernel
  have last : ((Floor.start 0 competingSwaps).run {}
      (List.replicate 23 (.worker 0 false))).RunsOrderly {} [.simulated 0 true] := .cons arrives trivial
  refine ⟨by decide +kernel, ?_⟩
  exact handoffs_pending {} 0 competingSwaps
    (List.replicate 23 (.worker 0 false) ++ [.simulated 0 true])
    (announced.append (.cons registers (dispatches.append last)))
    (List.replicate 23 (.worker 0 false)) 0 true [] rfl

/-- The second worker's admission replaces the first swap, and the approval of the first swap's
task arrives before the second worker has invalidated anything. -/
theorem handoffs_pending_replaced :
    let floor := (Floor.start 0 competingSwaps).run {}
      (List.replicate 23 (.worker 0 false) ++ [.worker 1 false])
    floor.handoffs 0 true = [⟨swapCandidate, 0⟩] ∧
      floor.live.scheduler.pending[(10 : TxHash)]? = none ∧
      ¬ ∀ handoff ∈ floor.handoffs 0 true,
        ∀ member ∈ normalizedMemberHashes handoff.candidate.txHash handoff.candidate.memberTxHashes,
          ∃ tx, floor.live.scheduler.pending[member]? = some tx := by
  intro floor
  have emitted : floor.handoffs 0 true = [⟨swapCandidate, 0⟩] := by decide +kernel
  have gone : floor.live.scheduler.pending[(10 : TxHash)]? = none := by decide +kernel
  refine ⟨emitted, gone, fun pending => ?_⟩
  obtain ⟨tx, stored⟩ := pending ⟨swapCandidate, 0⟩ (by rw [emitted]; exact List.mem_singleton_self _)
    10 (by decide)
  rw [gone] at stored
  cases stored

end Mempulse.LiveRpc
