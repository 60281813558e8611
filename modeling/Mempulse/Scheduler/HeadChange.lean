import Mempulse.Scheduler.Candidates

/-!
# Head changes

`advance_head` is documented to drop stale candidate generations. It sets the head and leaves the
candidates alone, and a result is judged by the head at the time it arrives. So a task whose
block the head has left counts again once the head comes back to the block, as it does in a
reorganisation.
-/

set_option autoImplicit false

namespace Mempulse.Scheduler

open Std Library

/-! ## What happens to a task -/

/-- The head has been moved to another block than the task's. -/
def HeadLeft (task : SimulationTaskSpec) (between : List SchedulerStep) : Prop :=
  ∃ blockNumber, .headAdvanced blockNumber ∈ between ∧ blockNumber ≠ task.blockNumber

/-- The candidate id has been registered again. -/
def Reregistered (candidate : SchedulerCandidate) (between : List SchedulerStep) : Prop :=
  ∃ other task, .issued other task ∈ between ∧ other.candidateId = candidate.candidateId

/-- The task has been superseded, and its generation could be moved on. -/
def Retired (task : SimulationTaskSpec) (between : List SchedulerStep) : Prop :=
  task.generation < u64Max ∧ Superseded task between

instance (task : SimulationTaskSpec) : DecidablePred (Retired task) := fun _ =>
  inferInstanceAs (Decidable (_ ∧ _))

/-- **A head change invalidates outstanding tasks.** No result for a task hands off its candidate
once the head has left the task's block, however the head moves afterwards, unless the candidate
is registered again. -/
def HeadChangeInvalidates (config : SchedulerConfig) (start : SchedulerState)
    (commands : List SchedulerCommand) : Prop :=
  ∀ earlier between later candidate task result outcome,
    start.history config commands =
      earlier ++ .issued candidate task :: (between ++ .applied result outcome :: later) →
    result.task = task → HeadLeft task between → ¬ Reregistered candidate between →
      outcome.builderHandoffs = []

/-- When an approved result arrives for a task whose block the head has left, the head is not back
at the block, or the task is retired. -/
def HeadStaysAway (config : SchedulerConfig) (start : SchedulerState)
    (commands : List SchedulerCommand) : Prop :=
  ∀ earlier between later candidate task result outcome,
    start.history config commands =
      earlier ++ .issued candidate task :: (between ++ .applied result outcome :: later) →
    result.task = task → HeadLeft task between → ¬ Reregistered candidate between →
      result.approved = true →
        headAfter start.headBlockNumber (earlier ++ .issued candidate task :: between) ≠
            task.blockNumber ∨ Retired task between

/-! ## The entry of a task -/

theorem le_nextGeneration {generation : Nat} (fits : generation ≤ u64Max) :
    generation ≤ nextGeneration generation ∧ nextGeneration generation ≤ u64Max := by
  unfold nextGeneration saturatingAdd u64Max at *
  omega

/-- Since a task was issued and while its candidate is not registered again, the entry is the one
the registration left, but for its generation. That is the task's until the task is retired. -/
def Holds (candidate : SchedulerCandidate) (task : SimulationTaskSpec)
    (since : List SchedulerStep) (state : SchedulerState) : Prop :=
  ∃ generation, state.candidates[task.candidateId]? =
      some ⟨candidate, task.blockNumber, generation⟩ ∧
    task.generation ≤ generation ∧ generation ≤ u64Max ∧
    (generation = task.generation ↔ ¬ Retired task since)

theorem retired_append (task : SimulationTaskSpec) (since : List SchedulerStep)
    (step : SchedulerStep) : Retired task (since ++ [step]) ↔
      task.generation < u64Max ∧ (Superseded task since ∨ step.Supersedes task) := by
  rw [Retired, superseded_append, superseded_singleton]

theorem Holds.of_issued {config : SchedulerConfig} {state next : SchedulerState}
    {candidate : SchedulerCandidate} {task : SimulationTaskSpec}
    (within : GenerationsWithin u64Max state)
    (taken : state.Takes config (.issued candidate task) next) : Holds candidate task [] next := by
  cases taken
  refine ⟨_, (getElem?_insert_eq _ _ _ _).trans (if_pos rfl), le_rfl, ?_, ?_⟩
  · cases before : state.candidates[candidate.candidateId]? with
    | none => decide
    | some entry => exact (le_nextGeneration (within _ entry before)).2
  · simp [Retired]

section Holds

variable {candidate : SchedulerCandidate} {task : SimulationTaskSpec}
  {since : List SchedulerStep} {state next : SchedulerState} {step : SchedulerStep}

/-- A step that leaves the entry as it is, and does not supersede the task if it was current. -/
theorem Holds.keep {generation : Nat} (fresh : generation = task.generation ↔ ¬ Retired task since)
    (least : task.generation ≤ generation) (fits : generation ≤ u64Max)
    (idle : generation = task.generation → ¬ step.Supersedes task)
    (stored : next.candidates[task.candidateId]? =
      some ⟨candidate, task.blockNumber, generation⟩) :
    Holds candidate task (since ++ [step]) next := by
  refine ⟨generation, stored, least, fits, ?_⟩
  rw [retired_append]
  constructor
  · rintro same ⟨below, superseded | supersedes⟩
    · exact fresh.mp same ⟨below, superseded⟩
    · exact idle same supersedes
  · exact fun remains => fresh.mpr fun retired => remains ⟨retired.1, .inl retired.2⟩

/-- A step that moves the entry's generation on, and supersedes the task if it was current. -/
theorem Holds.move {generation : Nat} (fresh : generation = task.generation ↔ ¬ Retired task since)
    (least : task.generation ≤ generation) (fits : generation ≤ u64Max)
    (current : generation = task.generation → step.Supersedes task)
    (stored : next.candidates[task.candidateId]? =
      some ⟨candidate, task.blockNumber, nextGeneration generation⟩) :
    Holds candidate task (since ++ [step]) next := by
  obtain ⟨grows, within⟩ := le_nextGeneration fits
  refine ⟨_, stored, least.trans grows, within, ?_⟩
  rw [retired_append]
  constructor
  · rintro stays ⟨below, -⟩
    have moves := lt_nextGeneration (show generation < u64Max by omega)
    omega
  · intro remains
    by_cases same : generation = task.generation
    · -- The task was current, so its generation is the last one.
      have last : ¬ task.generation < u64Max := fun below => remains ⟨below, .inr (current same)⟩
      omega
    · have retired : Retired task since := not_not.mp fun not => same (fresh.mpr not)
      exact absurd ⟨retired.1, .inl retired.2⟩ remains

end Holds

/-- **What one step does to a task whose candidate it does not register again.** -/
theorem Holds.step {config : SchedulerConfig} {candidate : SchedulerCandidate}
    {task : SimulationTaskSpec} {since : List SchedulerStep} {state next : SchedulerState}
    {step : SchedulerStep} (holds : Holds candidate task since state)
    (issued : IssuedFor candidate task) (taken : state.Takes config step next)
    (other : ¬ Reregistered candidate [step]) : Holds candidate task (since ++ [step]) next := by
  obtain ⟨generation, stored, least, fits, fresh⟩ := holds
  rcases taken.entry task.candidateId with ⟨registered, task', rfl, same, -⟩ | kept
  · exact absurd ⟨registered, task', List.mem_cons_self, same.trans issued.candidateId⟩ other
  · rw [stored, Option.map_some, CandidateEntry.after] at kept
    by_cases supersedes : step.Supersedes
        (CandidateEntry.task task.candidateId ⟨candidate, task.blockNumber, generation⟩)
    · rw [if_pos supersedes] at kept
      refine Holds.move fresh least fits (fun current => ?_) kept
      rwa [current, issued.task_eq] at supersedes
    · rw [if_neg supersedes] at kept
      refine Holds.keep fresh least fits (fun current => ?_) kept
      rwa [current, issued.task_eq] at supersedes

/-! ## Runs -/

/-- No generation of the scheduler is above `u64::MAX`. -/
theorem GenerationsWithin.fits {config : SchedulerConfig} {state next : SchedulerState}
    {step : SchedulerStep} (within : GenerationsWithin u64Max state)
    (taken : state.Takes config step next) : GenerationsWithin u64Max next :=
  within.of_step (by decide) le_rfl (fun _ fits => (le_nextGeneration fits).2) taken

theorem reregistered_append {candidate : SchedulerCandidate} {earlier later : List SchedulerStep} :
    Reregistered candidate (earlier ++ later) ↔
      Reregistered candidate earlier ∨ Reregistered candidate later := by
  simp only [Reregistered, List.mem_append, or_and_right, exists_or]

section Runs

variable {config : SchedulerConfig} {start last : SchedulerState} {past : List SchedulerStep}

theorem GenerationsWithin.fits_run (run : Run (SchedulerState.Takes config) start past last)
    (within : GenerationsWithin u64Max start) : GenerationsWithin u64Max last :=
  run.invariant (motive := fun _ state => GenerationsWithin u64Max state) within
    fun _ within taken => within.fits taken

theorem Holds.run {candidate : SchedulerCandidate} {task : SimulationTaskSpec}
    (run : Run (SchedulerState.Takes config) start past last) (issued : IssuedFor candidate task)
    (holds : Holds candidate task [] start) (other : ¬ Reregistered candidate past) :
    Holds candidate task past last := by
  refine run.invariant (motive := fun past state =>
    ¬ Reregistered candidate past → Holds candidate task past state) (fun _ => holds) ?_ other
  intro past state next step _ before taken other
  rw [reregistered_append, not_or] at other
  exact (before other.1).step issued taken other.2

/-- A result that carries the fields of an unretired task is taken when its block is the head, and
one for a retired task never is. -/
theorem Holds.current_iff {candidate : SchedulerCandidate} {task : SimulationTaskSpec}
    {since : List SchedulerStep} {state : SchedulerState} (holds : Holds candidate task since state)
    (issued : IssuedFor candidate task) {result : SchedulerSimulationResult}
    (carries : result.task = task) {entry : CandidateEntry}
    (stored : state.candidates[result.candidateId]? = some entry) :
    entry.candidate = candidate ∧ (state.Current entry result ↔
      state.headBlockNumber = task.blockNumber ∧ ¬ Retired task since) := by
  have sameId : result.candidateId = task.candidateId := by rw [← carries]; rfl
  have sameBlock : result.blockNumber = task.blockNumber := by rw [← carries]; rfl
  obtain ⟨generation, found, -, -, fresh⟩ := holds
  rw [sameId] at stored
  cases found.symm.trans stored
  refine ⟨rfl, ?_⟩
  rw [SchedulerState.Current, carries, sameBlock, ← fresh]
  constructor
  · rintro ⟨fields, head⟩
    exact ⟨head.symm, (congrArg SimulationTaskSpec.generation fields).symm⟩
  · rintro ⟨head, rfl⟩
    exact ⟨(issued.fields_eq sameId).symm, head.symm⟩

/-- What a result hands off that carries the fields of a task issued earlier. -/
theorem builderHandoffs_of_run {earlier between later : List SchedulerStep}
    {candidate : SchedulerCandidate} {task : SimulationTaskSpec}
    {result : SchedulerSimulationResult} {outcome : SchedulerSimulationApplyOutcome}
    (run : Run (SchedulerState.Takes config) start
      (earlier ++ .issued candidate task :: (between ++ .applied result outcome :: later)) last)
    (within : GenerationsWithin u64Max start) (carries : result.task = task)
    (other : ¬ Reregistered candidate between) :
    outcome.builderHandoffs =
      if result.approved = true ∧
          headAfter start.headBlockNumber (earlier ++ .issued candidate task :: between) =
            task.blockNumber ∧ ¬ Retired task between then
        [⟨candidate, task.blockNumber⟩]
      else [] := by
  obtain ⟨before, registered, arrived, front, issue, middle, applied, head⟩ := answered_of_run run
  have issued := issue.issuedFor
  have holds := Holds.run middle issued (.of_issued (within.fits_run front) issue) other
  have sameBlock : result.blockNumber = task.blockNumber := by rw [← carries]; rfl
  have sameId : result.candidateId = task.candidateId := by rw [← carries]; rfl
  rw [← head, ← applied]
  refine SchedulerState.applySimulationResult_cases arrived result
    (motive := fun applied => applied.1.builderHandoffs =
      if result.approved = true ∧ arrived.headBlockNumber = task.blockNumber ∧
          ¬ Retired task between then
        [⟨candidate, task.blockNumber⟩]
      else []) ?_ ?_ ?_
  · intro missing
    obtain ⟨generation, stored, -⟩ := holds
    rw [sameId, stored] at missing
    cases missing
  · intro entry stored stale
    rw [(holds.current_iff issued carries stored).2] at stale
    rw [if_neg fun fits => stale fits.2]
    rfl
  · intro entry stored current
    obtain ⟨rfl, taken⟩ := holds.current_iff issued carries stored
    have fits := taken.mp current
    rw [← sameBlock]
    by_cases approved : result.approved = true
    · rw [if_pos approved, if_pos ⟨approved, fits.1.trans sameBlock.symm, fits.2⟩]
    · rw [if_neg approved, if_neg fun all => approved all.1]

end Runs

/-- **When a head change invalidates outstanding tasks.** In every run from the empty state, it does
exactly when the head stays away: an approved result for a task whose block the head has left finds
the head elsewhere, or the task retired. -/
theorem headChangeInvalidates_iff (config : SchedulerConfig) (commands : List SchedulerCommand) :
    HeadChangeInvalidates config {} commands ↔ HeadStaysAway config {} commands := by
  have run := SchedulerState.run_history config {} commands
  have within : GenerationsWithin u64Max {} := by
    intro id entry stored
    simp at stored
  constructor
  · intro invalidates earlier between later candidate task result outcome whole carries left other
      approved
    have handed := invalidates earlier between later candidate task result outcome whole carries left
      other
    rw [builderHandoffs_of_run (whole ▸ run) within carries other] at handed
    by_contra! back
    rw [if_pos ⟨approved, back.1, back.2⟩] at handed
    cases handed
  · intro away earlier between later candidate task result outcome whole carries left other
    rw [builderHandoffs_of_run (whole ▸ run) within carries other, if_neg]
    rintro ⟨approved, back, unretired⟩
    rcases away earlier between later candidate task result outcome whole carries left other approved
      with elsewhere | retired
    · exact elsewhere back
    · exact unretired retired

/-- The head leaves the block of a task and comes back to it before the result arrives. -/
def headLeavesAndReturns : List SchedulerCommand :=
  [.registerCandidates [sampleCandidate "cand-1" 10], .advanceHead 43, .advanceHead 0,
    .applySimulationResult ⟨"cand-1", 10, [10], 0, 1, true⟩]

theorem headLeavesAndReturns_handsOff : ¬ HeadChangeInvalidates {} {} headLeavesAndReturns := by
  intro invalidates
  have none := invalidates [] [.headAdvanced 43, .headAdvanced 0] [] (sampleCandidate "cand-1" 10)
    ⟨"cand-1", 10, [10], 0, 1⟩ ⟨"cand-1", 10, [10], 0, 1, true⟩
    ⟨[⟨sampleCandidate "cand-1" 10, 0⟩], 0⟩ (by decide +kernel) rfl
    ⟨43, List.mem_cons_self, by decide⟩
    (by rintro ⟨other, task, member, -⟩; simp at member)
  cases none

end Mempulse.Scheduler
