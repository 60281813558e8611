import Mempulse.Scheduler.Invariant
import Mempulse.Library.Runs

/-!
# Builder handoffs

A run of the actor is seen here one step at a time: an admission, the registration of one
candidate, one simulation result, one invalidation, one head. Registering a candidate issues a
task that carries the candidate's generation, and whatever later makes the task obsolete moves
the generation on. So a result is acted on exactly while nothing has superseded its task
(`history_builderHandoffs`).
-/

set_option autoImplicit false

namespace Mempulse.Scheduler

open Std Library

/-! ## Steps -/

/-- One step of the actor, with what it replied. -/
inductive SchedulerStep where
  | admitted (tx : ValidatedTransaction) (outcome : SchedulerAdmissionOutcome)
  | issued (candidate : SchedulerCandidate) (task : SimulationTaskSpec)
  | applied (result : SchedulerSimulationResult) (outcome : SchedulerSimulationApplyOutcome)
  | invalidated (hash : TxHash)
  | headAdvanced (blockNumber : UInt64)
  deriving DecidableEq

/-- What each step does to the state. -/
def SchedulerState.Takes (config : SchedulerConfig) (state : SchedulerState) :
    SchedulerStep → SchedulerState → Prop
  | .admitted tx outcome, next => state.admitTx tx config = (outcome, next)
  | .issued candidate task, next => state.registerCandidate candidate = (task, next)
  | .applied result outcome, next => state.applySimulationResult result = (outcome, next)
  | .invalidated hash, next => state.invalidateCandidateHash hash = next
  | .headAdvanced blockNumber, next => state.advanceHead blockNumber = next

/-- The steps of registering candidates in order. -/
def SchedulerState.registrations (state : SchedulerState) :
    List SchedulerCandidate → List SchedulerStep
  | [] => []
  | candidate :: rest =>
    let registered := state.registerCandidate candidate
    .issued candidate registered.1 :: registered.2.registrations rest

/-- The steps one command takes. -/
def SchedulerState.stepsOf (config : SchedulerConfig) (state : SchedulerState) :
    SchedulerCommand → List SchedulerStep
  | .admitTx tx => [.admitted tx (state.admitTx tx config).1]
  | .registerCandidates candidates => state.registrations candidates
  | .applySimulationResult result => [.applied result (state.applySimulationResult result).1]
  | .invalidateCandidateHash hash => [.invalidated hash]
  | .advanceHead blockNumber => [.headAdvanced blockNumber]

/-- The steps of a list of commands, oldest first. -/
def SchedulerState.history (config : SchedulerConfig) (state : SchedulerState) :
    List SchedulerCommand → List SchedulerStep
  | [] => []
  | command :: rest =>
    state.stepsOf config command ++ (state.execute config command).2.history config rest

theorem SchedulerState.run_registrations (config : SchedulerConfig) (state : SchedulerState)
    (candidates : List SchedulerCandidate) :
    Run (Takes config) state (state.registrations candidates)
      (state.registerCandidates candidates).2 := by
  induction candidates generalizing state with
  | nil => exact .nil state
  | cons candidate rest ih => exact .cons rfl (ih (state.registerCandidate candidate).2)

theorem SchedulerState.run_stepsOf (config : SchedulerConfig) (state : SchedulerState)
    (command : SchedulerCommand) :
    Run (Takes config) state (state.stepsOf config command) (state.execute config command).2 := by
  cases command with
  | admitTx tx => exact .single rfl
  | registerCandidates candidates => exact state.run_registrations config candidates
  | applySimulationResult result => exact .single rfl
  | invalidateCandidateHash hash => exact .single rfl
  | advanceHead blockNumber => exact .single rfl

/-- The history of a list of commands is the history of a run. -/
theorem SchedulerState.run_history (config : SchedulerConfig) (state : SchedulerState)
    (commands : List SchedulerCommand) :
    Run (Takes config) state (state.history config commands) (state.run config commands) := by
  induction commands generalizing state with
  | nil => exact .nil state
  | cons command rest ih => exact (state.run_stepsOf config command).append (ih _)

/-! ## Tasks -/

/-- The task whose fields a result carries; a result without members is one for its primary
hash alone. -/
def SchedulerSimulationResult.task (result : SchedulerSimulationResult) : SimulationTaskSpec where
  candidateId := result.candidateId
  txHash := result.txHash
  memberTxHashes := normalizedMemberHashes result.txHash result.memberTxHashes
  blockNumber := result.blockNumber
  generation := result.generation

/-- The step makes a task obsolete: its candidate id is registered again, its primary hash or
one of its members is invalidated, or a result for it is taken. -/
def SchedulerStep.Supersedes (task : SimulationTaskSpec) : SchedulerStep → Prop
  | .admitted _ _ => False
  | .issued candidate _ => candidate.candidateId = task.candidateId
  | .applied result outcome => result.task = task ∧ outcome.staleResultDropTotal = 0
  | .invalidated hash => hash = task.txHash ∨ hash ∈ task.memberTxHashes
  | .headAdvanced _ => False

instance (task : SimulationTaskSpec) : DecidablePred (SchedulerStep.Supersedes task) := fun step =>
  match step with
  | .admitted _ _ => inferInstanceAs (Decidable False)
  | .issued candidate _ => inferInstanceAs (Decidable (candidate.candidateId = task.candidateId))
  | .applied result outcome =>
    inferInstanceAs (Decidable (result.task = task ∧ outcome.staleResultDropTotal = 0))
  | .invalidated hash =>
    inferInstanceAs (Decidable (hash = task.txHash ∨ hash ∈ task.memberTxHashes))
  | .headAdvanced _ => inferInstanceAs (Decidable False)

/-- Some step of a history makes the task obsolete. -/
def Superseded (task : SimulationTaskSpec) (history : List SchedulerStep) : Prop :=
  ∃ step ∈ history, step.Supersedes task

instance (task : SimulationTaskSpec) : DecidablePred (Superseded task) := fun history =>
  inferInstanceAs (Decidable (∃ step ∈ history, step.Supersedes task))

@[simp] theorem superseded_nil (task : SimulationTaskSpec) : ¬ Superseded task [] := by
  simp [Superseded]

@[simp] theorem superseded_append (task : SimulationTaskSpec) (earlier later : List SchedulerStep) :
    Superseded task (earlier ++ later) ↔ Superseded task earlier ∨ Superseded task later := by
  simp only [Superseded, List.mem_append, or_and_right, exists_or]

@[simp] theorem superseded_singleton (task : SimulationTaskSpec) (step : SchedulerStep) :
    Superseded task [step] ↔ step.Supersedes task := by
  simp [Superseded]

/-- The head block after a history. -/
def headAfter (start : UInt64) (history : List SchedulerStep) : UInt64 :=
  history.foldl (fun head step =>
    match step with
    | .headAdvanced blockNumber => blockNumber
    | _ => head) start

@[simp] theorem headAfter_append (start : UInt64) (earlier : List SchedulerStep)
    (step : SchedulerStep) :
    headAfter start (earlier ++ [step]) =
      match step with
      | .headAdvanced blockNumber => blockNumber
      | _ => headAfter start earlier := by
  rw [headAfter, List.foldl_append]
  rfl

/-! ## Generations -/

theorem nextGeneration_le (generation : Nat) : nextGeneration generation ≤ generation + 1 := by
  unfold nextGeneration saturatingAdd
  omega

theorem lt_nextGeneration {generation : Nat} (below : generation < u64Max) :
    generation < nextGeneration generation := by
  unfold nextGeneration saturatingAdd
  omega

namespace SchedulerState

theorem candidates_admit (state : SchedulerState) (tx : ValidatedTransaction)
    (config : SchedulerConfig) :
    (state.admitTx tx config).2.candidates = state.candidates ∧
      (state.admitTx tx config).2.headBlockNumber = state.headBlockNumber := by
  refine admit_cases (motive := fun outcome => outcome.2.candidates = state.candidates ∧
    outcome.2.headBlockNumber = state.headBlockNumber) ?_ ?_ ?_ ?_ ?_ ?_
  · intro _
    exact ⟨rfl, rfl⟩
  · intro _ _ _ _
    exact ⟨rfl, rfl⟩
  · rintro _ _ _ _ _ _ _ rfl
    exact ⟨rfl, rfl⟩
  · intro _ _ _ _ _ _
    exact ⟨rfl, rfl⟩
  · intro _ _ _
    exact ⟨rfl, rfl⟩
  · intro _ _ _
    exact ⟨rfl, rfl⟩

/-- A result is taken when it carries the fields of the entry and the entry's block is the
head. -/
def Current (state : SchedulerState) (entry : CandidateEntry)
    (result : SchedulerSimulationResult) : Prop :=
  result.task =
    { candidateId := result.candidateId
      txHash := entry.candidate.txHash
      memberTxHashes :=
        normalizedMemberHashes entry.candidate.txHash entry.candidate.memberTxHashes
      blockNumber := entry.blockNumber
      generation := entry.generation } ∧
    result.blockNumber = state.headBlockNumber

/-- What applying a result does: it is dropped as stale, or taken once. -/
theorem applySimulationResult_cases (state : SchedulerState) (result : SchedulerSimulationResult)
    {motive : SchedulerSimulationApplyOutcome × SchedulerState → Prop}
    (unknown : state.candidates[result.candidateId]? = none →
      motive state.recordStaleSimulationResult)
    (stale : ∀ entry, state.candidates[result.candidateId]? = some entry →
      ¬ state.Current entry result → motive state.recordStaleSimulationResult)
    (taken : ∀ entry, state.candidates[result.candidateId]? = some entry →
      state.Current entry result →
      motive
        ({ builderHandoffs := if result.approved then [⟨entry.candidate, result.blockNumber⟩] else []
           staleResultDropTotal := 0 },
          { state with
            candidates := state.candidates.insert result.candidateId
              { entry with generation := nextGeneration entry.generation } })) :
    motive (state.applySimulationResult result) := by
  unfold applySimulationResult
  split
  case h_1 missing => exact unknown missing
  case h_2 entry stored =>
    have current : state.Current entry result ↔ ¬ (entry.candidate.txHash ≠ result.txHash ∨
        normalizedMemberHashes entry.candidate.txHash entry.candidate.memberTxHashes ≠
          normalizedMemberHashes result.txHash result.memberTxHashes ∨
        entry.blockNumber ≠ result.blockNumber ∨ entry.generation ≠ result.generation ∨
        result.blockNumber ≠ state.headBlockNumber) := by
      simp only [Current, SchedulerSimulationResult.task, SimulationTaskSpec.mk.injEq, true_and,
        not_or, ne_eq, not_not]
      constructor
      · rintro ⟨⟨tx, members, block, generation⟩, head⟩
        exact ⟨tx.symm, members.symm, block.symm, generation.symm, head⟩
      · rintro ⟨tx, members, block, generation, head⟩
        exact ⟨⟨tx.symm, members.symm, block.symm, generation.symm⟩, head⟩
    dsimp only
    split
    case isTrue mismatch => exact stale entry stored fun fits => current.mp fits mismatch
    case isFalse fits => exact taken entry stored (current.mpr fits)

end SchedulerState

/-- The task of an entry, under the id it is stored at. -/
def CandidateEntry.task (id : CandidateId) (entry : CandidateEntry) : SimulationTaskSpec where
  candidateId := id
  txHash := entry.candidate.txHash
  memberTxHashes := normalizedMemberHashes entry.candidate.txHash entry.candidate.memberTxHashes
  blockNumber := entry.blockNumber
  generation := entry.generation

theorem CandidateEntry.mentions_iff {id : CandidateId} {entry : CandidateEntry} {hash : TxHash} :
    entry.mentions hash = true ↔ (SchedulerStep.invalidated hash).Supersedes (entry.task id) := by
  rw [CandidateEntry.mentions, decide_eq_true_eq, SchedulerStep.Supersedes, eq_comm]
  rfl

/-- An entry after a step other than a registration. -/
def CandidateEntry.after (step : SchedulerStep) (id : CandidateId) (entry : CandidateEntry) :
    CandidateEntry :=
  if step.Supersedes (entry.task id) then
    { entry with generation := nextGeneration entry.generation }
  else entry

/-- **What one step does to the entry of an id.** The id is registered, or its entry stays the one
it is but for the generation, which moves on when the step supersedes the entry's task. -/
theorem SchedulerState.Takes.entry {config : SchedulerConfig} {state next : SchedulerState}
    {step : SchedulerStep} (taken : state.Takes config step next) (id : CandidateId) :
    (∃ candidate task, step = .issued candidate task ∧ candidate.candidateId = id ∧
        next.candidates[id]? = some ⟨candidate, state.headBlockNumber,
          ((state.candidates[id]?).map fun entry => nextGeneration entry.generation).getD 1⟩) ∨
      next.candidates[id]? = (state.candidates[id]?).map (CandidateEntry.after step id) := by
  -- A step that supersedes no task leaves the candidates as they are.
  have stays : ∀ {step : SchedulerStep}, (∀ task : SimulationTaskSpec, ¬ step.Supersedes task) →
      state.candidates[id]? = (state.candidates[id]?).map (CandidateEntry.after step id) := by
    intro step idle
    cases state.candidates[id]? with
    | none => rfl
    | some entry => exact congrArg some (if_neg (idle (entry.task id))).symm
  cases step with
  | admitted tx outcome =>
      have frame := (state.candidates_admit tx config).1
      rw [show state.admitTx tx config = (outcome, next) from taken] at frame
      right
      rw [frame]
      exact stays fun _ => not_false
  | issued candidate task =>
      cases taken
      by_cases own : candidate.candidateId = id
      · left
        subst own
        exact ⟨candidate, _, rfl, rfl, (getElem?_insert_eq _ _ _ _).trans (if_pos rfl)⟩
      · right
        rw [getElem?_insert_eq, if_neg own]
        cases state.candidates[id]? with
        | none => rfl
        | some entry => exact congrArg some (if_neg own).symm
  | applied result outcome =>
      right
      have dropped : state.candidates[id]? = (state.candidates[id]?).map (CandidateEntry.after
          (.applied result state.recordStaleSimulationResult.1) id) :=
        stays fun _ supersedes => Nat.one_ne_zero supersedes.2
      have applied := SchedulerState.applySimulationResult_cases state result
        (motive := fun applied => applied.2.candidates[id]? =
          (state.candidates[id]?).map (CandidateEntry.after (.applied result applied.1) id))
        (fun _ => dropped) (fun _ _ _ => dropped)
        (by
          intro entry stored current
          rw [getElem?_insert_eq]
          by_cases own : result.candidateId = id
          · subst own
            rw [if_pos rfl, stored]
            exact congrArg some (if_pos ⟨current.1, rfl⟩).symm
          · rw [if_neg own]
            cases state.candidates[id]? with
            | none => rfl
            | some other =>
                refine congrArg some (if_neg ?_).symm
                exact fun supersedes => own (congrArg SimulationTaskSpec.candidateId supersedes.1))
      rw [show state.applySimulationResult result = (outcome, next) from taken] at applied
      exact applied
  | invalidated hash =>
      cases taken
      right
      rw [SchedulerState.invalidateCandidateHash, ExtTreeMap.getElem?_map]
      refine congrArg (Option.map · _) (funext fun entry => ?_)
      have mentions : entry.mentions hash = true ↔
          (SchedulerStep.invalidated hash).Supersedes (entry.task id) := entry.mentions_iff
      simp only [CandidateEntry.after, mentions]
  | headAdvanced blockNumber =>
      cases taken
      exact .inr (stays fun _ => not_false)

/-- No candidate has been moved on more often than steps were taken. -/
def GenerationsWithin (bound : Nat) (state : SchedulerState) : Prop :=
  ∀ (id : CandidateId) (entry : CandidateEntry), state.candidates[id]? = some entry →
    entry.generation ≤ bound

/-- A step moves each generation on at most once, and starts new ones at `1`. -/
theorem GenerationsWithin.of_step {config : SchedulerConfig} {bound later : Nat}
    {state next : SchedulerState} {step : SchedulerStep} (within : GenerationsWithin bound state)
    (first : 1 ≤ later) (stays : bound ≤ later)
    (moves : ∀ generation ≤ bound, nextGeneration generation ≤ later)
    (taken : state.Takes config step next) : GenerationsWithin later next := by
  intro id entry stored
  rcases taken.entry id with ⟨candidate, task, -, -, registered⟩ | kept
  · cases registered.symm.trans stored
    cases before : state.candidates[id]? with
    | none => exact first
    | some old => exact moves _ (within id old before)
  · rw [kept] at stored
    obtain ⟨old, before, rfl⟩ := Option.map_eq_some_iff.mp stored
    have bounded := within id old before
    unfold CandidateEntry.after
    split
    · exact moves _ bounded
    · exact bounded.trans stays

theorem GenerationsWithin.step {config : SchedulerConfig} {bound : Nat}
    {state next : SchedulerState} {step : SchedulerStep} (within : GenerationsWithin bound state)
    (taken : state.Takes config step next) : GenerationsWithin (bound + 1) next := by
  refine within.of_step (Nat.le_add_left 1 bound) (Nat.le_succ bound) (fun generation bounded => ?_)
    taken
  exact (nextGeneration_le generation).trans (Nat.succ_le_succ bounded)

/-! ## Following one task -/

/-- The task is the one a registration of the candidate issues. -/
structure IssuedFor (candidate : SchedulerCandidate) (task : SimulationTaskSpec) : Prop where
  candidateId : task.candidateId = candidate.candidateId
  txHash : task.txHash = candidate.txHash
  memberTxHashes :
    task.memberTxHashes = normalizedMemberHashes candidate.txHash candidate.memberTxHashes

theorem IssuedFor.fields_eq {candidate : SchedulerCandidate} {task : SimulationTaskSpec}
    (issued : IssuedFor candidate task) {id : CandidateId} (same : id = task.candidateId) :
    (⟨id, candidate.txHash, normalizedMemberHashes candidate.txHash candidate.memberTxHashes,
      task.blockNumber, task.generation⟩ : SimulationTaskSpec) = task := by
  rw [same, ← issued.memberTxHashes, ← issued.txHash]

theorem IssuedFor.task_eq {candidate : SchedulerCandidate} {task : SimulationTaskSpec}
    (issued : IssuedFor candidate task) :
    CandidateEntry.task task.candidateId ⟨candidate, task.blockNumber, task.generation⟩ = task :=
  issued.fields_eq rfl

theorem SchedulerState.Takes.issuedFor {config : SchedulerConfig} {state next : SchedulerState}
    {candidate : SchedulerCandidate} {task : SimulationTaskSpec}
    (taken : state.Takes config (.issued candidate task) next) : IssuedFor candidate task := by
  cases taken
  exact ⟨rfl, rfl, rfl⟩

/-- Since a task was issued, its candidate's entry is the one the registration left, until
something supersedes the task; from then on the entry's generation is past the task's. -/
def Tracks (candidate : SchedulerCandidate) (task : SimulationTaskSpec)
    (since : List SchedulerStep) (state : SchedulerState) : Prop :=
  ∃ entry, state.candidates[task.candidateId]? = some entry ∧
    (Superseded task since → task.generation < entry.generation) ∧
    (¬ Superseded task since → entry = ⟨candidate, task.blockNumber, task.generation⟩)

theorem Tracks.of_issued {config : SchedulerConfig} {state next : SchedulerState}
    {candidate : SchedulerCandidate} {task : SimulationTaskSpec}
    (taken : state.Takes config (.issued candidate task) next) : Tracks candidate task [] next := by
  cases taken
  exact ⟨⟨candidate, _, _⟩, (getElem?_insert_eq _ _ _ _).trans (if_pos rfl), by simp, fun _ => rfl⟩

section Tracks

variable {candidate : SchedulerCandidate} {task : SimulationTaskSpec}
  {since : List SchedulerStep} {state : SchedulerState}

theorem Tracks.generation_le {entry : CandidateEntry} (tracks : Tracks candidate task since state)
    (stored : state.candidates[task.candidateId]? = some entry) :
    task.generation ≤ entry.generation := by
  obtain ⟨other, found, past, fresh⟩ := tracks
  cases found.symm.trans stored
  by_cases superseded : Superseded task since
  · exact (past superseded).le
  · rw [fresh superseded]

/-- A step that neither supersedes the task nor touches its entry. -/
theorem Tracks.keep {next : SchedulerState} {step : SchedulerStep}
    (tracks : Tracks candidate task since state) (idle : ¬ step.Supersedes task)
    (same : next.candidates[task.candidateId]? = state.candidates[task.candidateId]?) :
    Tracks candidate task (since ++ [step]) next := by
  obtain ⟨entry, stored, past, fresh⟩ := tracks
  refine ⟨entry, same.trans stored, ?_, ?_⟩
  · simpa [idle] using past
  · simpa [idle] using fresh

/-- A step after which the task is superseded and the entry's generation past it. -/
theorem Tracks.advance {next : SchedulerState} {step : SchedulerStep} (entry : CandidateEntry)
    (stored : next.candidates[task.candidateId]? = some entry)
    (past : task.generation < entry.generation)
    (superseded : Superseded task since ∨ step.Supersedes task) :
    Tracks candidate task (since ++ [step]) next := by
  refine ⟨entry, stored, fun _ => past, fun fresh => ?_⟩
  rw [superseded_append, superseded_singleton] at fresh
  exact absurd superseded fresh

/-- A result for a task that nothing has superseded is taken when its block is the head, and a
result for a superseded task never is. -/
theorem Tracks.current_iff (tracks : Tracks candidate task since state)
    (issued : IssuedFor candidate task) {result : SchedulerSimulationResult}
    (carries : result.task = task) {entry : CandidateEntry}
    (stored : state.candidates[result.candidateId]? = some entry) :
    state.Current entry result ↔
      state.headBlockNumber = task.blockNumber ∧ ¬ Superseded task since := by
  have sameId : result.candidateId = task.candidateId := by rw [← carries]; rfl
  have sameBlock : result.blockNumber = task.blockNumber := by rw [← carries]; rfl
  obtain ⟨other, found, past, fresh⟩ := tracks
  rw [sameId] at stored
  cases found.symm.trans stored
  rw [SchedulerState.Current, carries, sameBlock]
  by_cases superseded : Superseded task since
  · have moved := past superseded
    constructor
    · rintro ⟨fields, -⟩
      rw [fields] at moved
      exact absurd moved (Nat.lt_irrefl _)
    · rintro ⟨-, not⟩
      exact absurd superseded not
  · rw [fresh superseded]
    exact ⟨fun both => ⟨both.2.symm, superseded⟩,
      fun both => ⟨(issued.fields_eq sameId).symm, both.1.symm⟩⟩

end Tracks

/-- **What one step does to a task that was issued.** -/
theorem Tracks.step {config : SchedulerConfig} {candidate : SchedulerCandidate}
    {task : SimulationTaskSpec} {since : List SchedulerStep} {state next : SchedulerState}
    {step : SchedulerStep} (tracks : Tracks candidate task since state)
    (issued : IssuedFor candidate task) {bound : Nat} (within : GenerationsWithin bound state)
    (below : bound < u64Max) (taken : state.Takes config step next) :
    Tracks candidate task (since ++ [step]) next := by
  obtain ⟨entry, stored, past, fresh⟩ := id tracks
  have least := tracks.generation_le stored
  have moves : entry.generation < nextGeneration entry.generation :=
    lt_nextGeneration ((within _ entry stored).trans_lt below)
  rcases taken.entry task.candidateId with ⟨other, task', rfl, again, registered⟩ | kept
  · rw [stored] at registered
    exact Tracks.advance _ registered (least.trans_lt moves) (Or.inr again)
  · rw [stored, Option.map_some, CandidateEntry.after] at kept
    by_cases supersedes : step.Supersedes (entry.task task.candidateId)
    · rw [if_pos supersedes] at kept
      refine Tracks.advance _ kept (least.trans_lt moves) (or_iff_not_imp_left.mpr fun before => ?_)
      rwa [fresh before, issued.task_eq] at supersedes
    · rw [if_neg supersedes] at kept
      by_cases before : Superseded task since
      · exact Tracks.advance entry kept (past before) (Or.inl before)
      · rw [fresh before, issued.task_eq] at supersedes
        exact tracks.keep supersedes (kept.trans stored.symm)

/-! ## Runs -/

/-- How many steps a command takes. -/
def SchedulerCommand.stepCount : SchedulerCommand → Nat
  | .registerCandidates candidates => candidates.length
  | _ => 1

/-- How many steps a list of commands takes, each registration being one. -/
def stepCount (commands : List SchedulerCommand) : Nat :=
  (commands.map SchedulerCommand.stepCount).sum

theorem SchedulerState.length_registrations (state : SchedulerState)
    (candidates : List SchedulerCandidate) :
    (state.registrations candidates).length = candidates.length := by
  induction candidates generalizing state with
  | nil => rfl
  | cons candidate rest ih => rw [registrations, List.length_cons, ih, List.length_cons]

theorem SchedulerState.length_history (config : SchedulerConfig) (state : SchedulerState)
    (commands : List SchedulerCommand) :
    (state.history config commands).length = stepCount commands := by
  induction commands generalizing state with
  | nil => rfl
  | cons command rest ih =>
      have first : (state.stepsOf config command).length = command.stepCount := by
        cases command with
        | registerCandidates candidates => exact state.length_registrations candidates
        | _ => rfl
      rw [history, List.length_append, ih, first, stepCount, stepCount, List.map_cons,
        List.sum_cons]

section Runs

variable {config : SchedulerConfig} {start last : SchedulerState} {past : List SchedulerStep}

theorem GenerationsWithin.run (run : Run (SchedulerState.Takes config) start past last)
    {bound : Nat} (within : GenerationsWithin bound start) :
    GenerationsWithin (bound + past.length) last := by
  refine run.invariant (motive := fun past state => GenerationsWithin (bound + past.length) state)
    within ?_
  intro past state next step _ within taken
  rw [List.length_append]
  exact within.step taken

theorem headBlockNumber_run (run : Run (SchedulerState.Takes config) start past last) :
    last.headBlockNumber = headAfter start.headBlockNumber past := by
  refine run.invariant (motive := fun past state =>
    state.headBlockNumber = headAfter start.headBlockNumber past) rfl ?_
  intro past state next step _ before taken
  rw [headAfter_append]
  cases step with
  | admitted tx outcome =>
      have frame := (state.candidates_admit tx config).2
      rw [show state.admitTx tx config = (outcome, next) from taken] at frame
      exact frame.trans before
  | issued candidate task =>
      cases taken
      exact before
  | applied result outcome =>
      have frame := SchedulerState.applySimulationResult_cases state result
        (motive := fun applied => applied.2.headBlockNumber = state.headBlockNumber)
        (fun _ => rfl) (fun _ _ _ => rfl) (fun _ _ _ => rfl)
      rw [show state.applySimulationResult result = (outcome, next) from taken] at frame
      exact frame.trans before
  | invalidated hash =>
      cases taken
      exact before
  | headAdvanced blockNumber =>
      cases taken
      rfl

theorem Tracks.run {candidate : SchedulerCandidate} {task : SimulationTaskSpec} {bound : Nat}
    (run : Run (SchedulerState.Takes config) start past last)
    (issued : IssuedFor candidate task) (tracks : Tracks candidate task [] start)
    (within : GenerationsWithin bound start) (short : bound + past.length ≤ u64Max) :
    Tracks candidate task past last := by
  have both := run.invariant (motive := fun past state =>
    GenerationsWithin (bound + past.length) state ∧ Tracks candidate task past state)
    ⟨within, tracks⟩ (by
      intro earlier state next step shorter held taken
      refine ⟨?_, held.2.step issued held.1 (by omega) taken⟩
      rw [List.length_append]
      exact held.1.step taken)
  exact both.2

/-- The states of a run around a task and the result for it. -/
theorem answered_of_run {earlier between later : List SchedulerStep}
    {candidate : SchedulerCandidate} {task : SimulationTaskSpec}
    {result : SchedulerSimulationResult} {outcome : SchedulerSimulationApplyOutcome}
    (run : Run (SchedulerState.Takes config) start
      (earlier ++ .issued candidate task :: (between ++ .applied result outcome :: later)) last) :
    ∃ before registered arrived, Run (SchedulerState.Takes config) start earlier before ∧
      before.Takes config (.issued candidate task) registered ∧
      Run (SchedulerState.Takes config) registered between arrived ∧
      (arrived.applySimulationResult result).1 = outcome ∧
      arrived.headBlockNumber =
        headAfter start.headBlockNumber (earlier ++ .issued candidate task :: between) := by
  obtain ⟨before, front, rest⟩ := run.split
  cases rest with
  | @cons _ registered _ _ _ issue rest =>
      obtain ⟨arrived, middle, rest⟩ := rest.split
      cases rest with
      | @cons _ next _ _ _ apply_ _ =>
          have applied : arrived.applySimulationResult result = (outcome, next) := apply_
          exact ⟨before, registered, arrived, front, issue, middle, congrArg Prod.fst applied,
            headBlockNumber_run (front.append (.cons issue middle))⟩

/-- What the actor replies to a result that carries the fields of a task issued earlier. -/
theorem outcome_of_run {earlier between later : List SchedulerStep}
    {candidate : SchedulerCandidate} {task : SimulationTaskSpec}
    {result : SchedulerSimulationResult} {outcome : SchedulerSimulationApplyOutcome}
    (run : Run (SchedulerState.Takes config) start
      (earlier ++ .issued candidate task :: (between ++ .applied result outcome :: later)) last)
    (unregistered : start.candidates = ∅)
    (short : (earlier ++ .issued candidate task ::
      (between ++ .applied result outcome :: later)).length < 2 ^ 64)
    (carries : result.task = task) :
    outcome =
      if headAfter start.headBlockNumber (earlier ++ .issued candidate task :: between) =
          task.blockNumber ∧ ¬ Superseded task between then
        ⟨if result.approved then [⟨candidate, task.blockNumber⟩] else [], 0⟩
      else ⟨[], 1⟩ := by
  simp only [List.length_append, List.length_cons] at short
  obtain ⟨before, registered, arrived, front, issue, middle, applied, head⟩ := answered_of_run run
  have issued := issue.issuedFor
  have initially : GenerationsWithin 0 start := by
    intro id entry stored
    rw [unregistered] at stored
    simp at stored
  have within := (initially.run front).step issue
  have tracks := Tracks.run middle issued (.of_issued issue) within (by
    rw [u64Max]
    omega)
  have sameBlock : result.blockNumber = task.blockNumber := by rw [← carries]; rfl
  have sameId : result.candidateId = task.candidateId := by rw [← carries]; rfl
  rw [← head, ← applied]
  refine SchedulerState.applySimulationResult_cases arrived result
    (motive := fun applied => applied.1 =
      if arrived.headBlockNumber = task.blockNumber ∧ ¬ Superseded task between then
        ⟨if result.approved then [⟨candidate, task.blockNumber⟩] else [], 0⟩
      else ⟨[], 1⟩) ?_ ?_ ?_
  · intro missing
    obtain ⟨entry, stored, -⟩ := tracks
    rw [sameId, stored] at missing
    cases missing
  · intro entry stored stale
    rw [tracks.current_iff issued carries stored] at stale
    rw [if_neg stale]
    rfl
  · intro entry stored current
    rw [tracks.current_iff issued carries stored] at current
    obtain ⟨other, found, -, fresh⟩ := tracks
    rw [sameId] at stored
    cases stored.symm.trans found
    rw [if_pos current, fresh current.2, sameBlock]

end Runs

/-- The step hands off the candidate of a task. -/
def SchedulerStep.HandsOff (task : SimulationTaskSpec) : SchedulerStep → Prop
  | .applied result outcome => result.task = task ∧ outcome.builderHandoffs ≠ []
  | _ => False

instance (task : SimulationTaskSpec) : DecidablePred (SchedulerStep.HandsOff task) := fun step =>
  match step with
  | .applied result outcome =>
    inferInstanceAs (Decidable (result.task = task ∧ outcome.builderHandoffs ≠ []))
  | .admitted _ _ | .issued _ _ | .invalidated _ | .headAdvanced _ =>
    inferInstanceAs (Decidable False)

/-- **Builder handoff safety.** In every run from a state without candidates, a result for a task
issued earlier hands off the candidate registered with the task exactly when it is approved, the
head is the task's block and nothing has superseded the task; and every issued task is handed off
at most once. -/
theorem history_builderHandoffs (config : SchedulerConfig) (start : SchedulerState)
    (unregistered : start.candidates = ∅) (commands : List SchedulerCommand)
    (short : stepCount commands < 2 ^ 64) :
    (∀ earlier between later candidate task result outcome,
      start.history config commands =
        earlier ++ .issued candidate task :: (between ++ .applied result outcome :: later) →
      result.task = task →
      outcome.builderHandoffs =
        if result.approved = true ∧
            headAfter start.headBlockNumber (earlier ++ .issued candidate task :: between) =
              task.blockNumber ∧ ¬ Superseded task between then
          [⟨candidate, task.blockNumber⟩]
        else []) ∧
    (∀ earlier later candidate task,
      start.history config commands = earlier ++ .issued candidate task :: later →
      (later.filter fun step => step.HandsOff task).length ≤ 1) := by
  have run := start.run_history config commands
  have length := start.length_history config commands
  constructor
  · intro earlier between later candidate task result outcome whole carries
    rw [whole] at run length
    rw [outcome_of_run run unregistered (by omega) carries]
    by_cases approved : result.approved = true
    · simp only [approved, if_true, true_and]
      split <;> rfl
    · simp only [approved]
      split <;> rfl
  · intro earlier later candidate task whole
    by_contra! twice
    -- Of two handoffs the earlier one supersedes the task for the later one.
    obtain ⟨before, first, amid, second, after, split, handsOff, again⟩ :=
      exists_split_of_one_lt_length_filter twice
    cases first with
    | applied result outcome =>
        cases second with
        | applied result' outcome' =>
            have regrouped : later =
                (before ++ .applied result outcome :: amid) ++ .applied result' outcome' :: after := by
              rw [split, List.append_assoc, List.cons_append]
            have firstOutcome := outcome_of_run (split ▸ whole ▸ run) unregistered
              (split ▸ whole ▸ length ▸ short) handsOff.1
            have taken : outcome.staleResultDropTotal = 0 := by
              have produced := handsOff.2
              rw [firstOutcome] at produced ⊢
              split at produced
              case isTrue fits => rw [if_pos fits]
              case isFalse => exact absurd rfl produced
            have superseded : Superseded task (before ++ .applied result outcome :: amid) :=
              ⟨_, List.mem_append_right _ List.mem_cons_self, handsOff.1, taken⟩
            have secondOutcome := outcome_of_run (regrouped ▸ whole ▸ run) unregistered
              (regrouped ▸ whole ▸ length ▸ short) again.1
            rw [if_neg fun fits => fits.2 superseded] at secondOutcome
            exact again.2 (by rw [secondOutcome])
        | _ => exact again.elim
    | _ => exact handsOff.elim

/-- The candidate of a single transaction. -/
def sampleCandidate (candidateId : CandidateId) (txHash : TxHash) : SchedulerCandidate where
  candidateId := candidateId
  txHash := txHash
  memberTxHashes := []
  score := 9000
  strategy := "SandwichCandidate"
  detectedUnixMs := 1700000000000

/-- Registering a candidate and approving its task hands the candidate off once. -/
theorem history_builderHandoffs_approved :
    (SchedulerState.applySimulationResult
        (SchedulerState.registerCandidate {} (sampleCandidate "cand-a" 10)).2
        ⟨"cand-a", 10, [10], 0, 1, true⟩).1.builderHandoffs = [⟨sampleCandidate "cand-a" 10, 0⟩] :=
  (history_builderHandoffs {} {} rfl
    [.registerCandidates [sampleCandidate "cand-a" 10],
      .applySimulationResult ⟨"cand-a", 10, [10], 0, 1, true⟩] (by decide)).1
    [] [] [] (sampleCandidate "cand-a" 10) ⟨"cand-a", 10, [10], 0, 1⟩
    ⟨"cand-a", 10, [10], 0, 1, true⟩ _ (by decide +kernel) rfl

end Mempulse.Scheduler
