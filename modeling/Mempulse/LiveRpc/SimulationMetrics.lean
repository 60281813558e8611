import Mempulse.LiveRpc.SimulationWorkers

/-!
# Simulation metrics

The counters that the chain workers and the simulation workers share, and what each observation
changes. The counters of the outcomes partition: every completed simulation is counted under one
status, and every one that did not succeed under one category.
-/

set_option autoImplicit false

namespace Mempulse.LiveRpc

/-! ## Metrics -/

/-- Queueing, execution, and failure counters for remote simulation work. -/
structure LiveRpcSimulationMetricsSnapshot where
  enqueuedTotal : Nat := 0
  completedTotal : Nat := 0
  okTotal : Nat := 0
  failedTotal : Nat := 0
  stateErrorTotal : Nat := 0
  timeoutTotal : Nat := 0
  queueFullDropTotal : Nat := 0
  staleDropTotal : Nat := 0
  queueDepth : Nat := 0
  queueCapacity : Nat := 0
  inflightCurrent : Nat := 0
  workerTotal : Nat := 0
  cacheHitTotal : Nat := 0
  cacheMissTotal : Nat := 0
  txTotal : Nat := 0
  lastLatencyMs : Nat := 0
  maxLatencyMs : Nat := 0
  totalLatencyMs : Nat := 0
  revertFailTotal : Nat := 0
  outOfGasFailTotal : Nat := 0
  nonceMismatchFailTotal : Nat := 0
  stateMismatchFailTotal : Nat := 0
  unknownFailTotal : Nat := 0
  stateRpcFailTotal : Nat := 0
  stateTimeoutFailTotal : Nat := 0
  deriving DecidableEq

namespace LiveRpcSimulationMetricsSnapshot

/-- Sets the two sizes of the service. -/
def configureSimulationQueue (metrics : LiveRpcSimulationMetricsSnapshot)
    (queueCapacity workerTotal : Nat) : LiveRpcSimulationMetricsSnapshot :=
  { metrics with queueCapacity := queueCapacity, workerTotal := workerTotal }

/-- A task was taken by the queue. -/
def observeSimulationEnqueue (metrics : LiveRpcSimulationMetricsSnapshot) :
    LiveRpcSimulationMetricsSnapshot :=
  { metrics with
    enqueuedTotal := saturatingAdd u64Max metrics.enqueuedTotal 1
    queueDepth := saturatingAdd u64Max metrics.queueDepth 1 }

/-- A worker has taken a task. -/
def observeSimulationDequeue (metrics : LiveRpcSimulationMetricsSnapshot) :
    LiveRpcSimulationMetricsSnapshot :=
  { metrics with
    queueDepth := metrics.queueDepth - 1
    inflightCurrent := saturatingAdd u64Max metrics.inflightCurrent 1 }

/-- A worker has finished its task. -/
def observeSimulationFinish (metrics : LiveRpcSimulationMetricsSnapshot) :
    LiveRpcSimulationMetricsSnapshot :=
  { metrics with inflightCurrent := metrics.inflightCurrent - 1 }

/-- A full queue refused a task. -/
def observeSimulationQueueFullDrop (metrics : LiveRpcSimulationMetricsSnapshot) :
    LiveRpcSimulationMetricsSnapshot :=
  { metrics with queueFullDropTotal := saturatingAdd u64Max metrics.queueFullDropTotal 1 }

/-- The counter of a status. -/
def observeStatus (metrics : LiveRpcSimulationMetricsSnapshot) :
    String → LiveRpcSimulationMetricsSnapshot
  | "ok" => { metrics with okTotal := saturatingAdd u64Max metrics.okTotal 1 }
  | "failed" => { metrics with failedTotal := saturatingAdd u64Max metrics.failedTotal 1 }
  | "state_error" =>
    { metrics with stateErrorTotal := saturatingAdd u64Max metrics.stateErrorTotal 1 }
  | "timeout" => { metrics with timeoutTotal := saturatingAdd u64Max metrics.timeoutTotal 1 }
  | _ => metrics

/-- The counter of a failure category. -/
def observeFailCategory (metrics : LiveRpcSimulationMetricsSnapshot) :
    String → LiveRpcSimulationMetricsSnapshot
  | "revert" => { metrics with revertFailTotal := saturatingAdd u64Max metrics.revertFailTotal 1 }
  | "out_of_gas" =>
    { metrics with outOfGasFailTotal := saturatingAdd u64Max metrics.outOfGasFailTotal 1 }
  | "nonce_mismatch" =>
    { metrics with nonceMismatchFailTotal := saturatingAdd u64Max metrics.nonceMismatchFailTotal 1 }
  | "state_mismatch" =>
    { metrics with stateMismatchFailTotal := saturatingAdd u64Max metrics.stateMismatchFailTotal 1 }
  | "state_rpc" =>
    { metrics with stateRpcFailTotal := saturatingAdd u64Max metrics.stateRpcFailTotal 1 }
  | "state_timeout" =>
    { metrics with stateTimeoutFailTotal := saturatingAdd u64Max metrics.stateTimeoutFailTotal 1 }
  | _ => { metrics with unknownFailTotal := saturatingAdd u64Max metrics.unknownFailTotal 1 }

/-- Counts a result by its status, and the category of a failure. -/
def observeSimulationResult (metrics : LiveRpcSimulationMetricsSnapshot) (status : String)
    (latencyMs txCount : Nat) (failCategory : Option String) : LiveRpcSimulationMetricsSnapshot :=
  let completed :=
    { metrics with
      completedTotal := saturatingAdd u64Max metrics.completedTotal 1
      txTotal := saturatingAdd u64Max metrics.txTotal txCount
      lastLatencyMs := latencyMs
      maxLatencyMs := max metrics.maxLatencyMs latencyMs
      totalLatencyMs := saturatingAdd u64Max metrics.totalLatencyMs latencyMs }
  let counted := completed.observeStatus status
  match failCategory with
  | none => counted
  | some category => counted.observeFailCategory category

end LiveRpcSimulationMetricsSnapshot

/-! ## The outcome counters -/

/-- The counters of the statuses partition the completed simulations, and those of the categories
partition the ones that did not succeed. -/
abbrev LiveRpcSimulationMetricsSnapshot.Partitioned (metrics : LiveRpcSimulationMetricsSnapshot) :
    Prop :=
  metrics.completedTotal =
      metrics.okTotal + metrics.failedTotal + metrics.stateErrorTotal + metrics.timeoutTotal ∧
    metrics.failedTotal =
      metrics.revertFailTotal + metrics.outOfGasFailTotal + metrics.nonceMismatchFailTotal +
        metrics.stateMismatchFailTotal + metrics.unknownFailTotal ∧
    metrics.stateErrorTotal = metrics.stateRpcFailTotal ∧
    metrics.timeoutTotal = metrics.stateTimeoutFailTotal

section Outcomes

variable {metrics : LiveRpcSimulationMetricsSnapshot}

theorem saturatingAdd_succ {total completed : Nat} (within : total ≤ completed)
    (room : completed < u64Max) : saturatingAdd u64Max total 1 = total + 1 :=
  saturatingAdd_of_le (Nat.lt_of_le_of_lt within room)

/-- The four ways a simulation can end, with the categories they report. -/
theorem simulateRemoteRequest_kinds (request : RemoteSimulationRequest) (simulated : Simulated)
    (latencyMs : UInt64) :
    let outcome := simulateRemoteRequest request simulated latencyMs
    (outcome.status = .ok ∧ outcome.failCategory = none) ∨
      (∃ category, outcome.status = .failed ∧
        outcome.failCategory = some (simulationFailCategoryLabel category)) ∨
      (outcome.status = .stateError ∧ outcome.failCategory = some "state_rpc") ∨
      (outcome.status = .timeout ∧ outcome.failCategory = some "state_timeout") := by
  cases simulated with
  | batch batch failCategory =>
      dsimp only [simulateRemoteRequest, summarizeSimulationBatch]
      by_cases failed : (batch.txResults.any fun result => !result.success) = true
      · rw [if_pos failed]
        refine .inr (.inl ⟨failCategory.getD .unknown, rfl, ?_⟩)
        cases failCategory <;> rfl
      · rw [if_neg failed]
        exact .inl ⟨rfl, rfl⟩
  | stateError => exact .inr (.inr (.inl ⟨rfl, rfl⟩))
  | timedOut => exact .inr (.inr (.inr ⟨rfl, rfl⟩))

/-- The failures of executed transactions, over all their categories. -/
def LiveRpcSimulationMetricsSnapshot.executionFailTotal
    (metrics : LiveRpcSimulationMetricsSnapshot) : Nat :=
  metrics.revertFailTotal + metrics.outOfGasFailTotal + metrics.nonceMismatchFailTotal +
    metrics.stateMismatchFailTotal + metrics.unknownFailTotal

theorem observeFailCategory_label (category : SimulationFailCategory) :
    metrics.observeFailCategory (simulationFailCategoryLabel category) =
      match category with
      | .revert =>
        { metrics with revertFailTotal := saturatingAdd u64Max metrics.revertFailTotal 1 }
      | .outOfGas =>
        { metrics with outOfGasFailTotal := saturatingAdd u64Max metrics.outOfGasFailTotal 1 }
      | .nonceMismatch =>
        { metrics with
          nonceMismatchFailTotal := saturatingAdd u64Max metrics.nonceMismatchFailTotal 1 }
      | .stateMismatch =>
        { metrics with
          stateMismatchFailTotal := saturatingAdd u64Max metrics.stateMismatchFailTotal 1 }
      | .unknown =>
        { metrics with unknownFailTotal := saturatingAdd u64Max metrics.unknownFailTotal 1 } := by
  cases category <;> rfl

/-- A category of execution raises one of the five counters. -/
theorem LiveRpcSimulationMetricsSnapshot.executionFailTotal_observe
    (metrics : LiveRpcSimulationMetricsSnapshot) (category : SimulationFailCategory)
    (room : metrics.executionFailTotal < u64Max) :
    (metrics.observeFailCategory (simulationFailCategoryLabel category)).executionFailTotal =
      metrics.executionFailTotal + 1 := by
  unfold LiveRpcSimulationMetricsSnapshot.executionFailTotal at room ⊢
  rw [observeFailCategory_label]
  cases category
  all_goals
    dsimp only
    rw [saturatingAdd_of_le (by omega)]
    omega

/-- A category of execution touches none of the other counters. -/
theorem LiveRpcSimulationMetricsSnapshot.observeFailCategory_frame
    (metrics : LiveRpcSimulationMetricsSnapshot) (category : SimulationFailCategory) :
    let observed := metrics.observeFailCategory (simulationFailCategoryLabel category)
    observed.completedTotal = metrics.completedTotal ∧ observed.okTotal = metrics.okTotal ∧
      observed.failedTotal = metrics.failedTotal ∧
      observed.stateErrorTotal = metrics.stateErrorTotal ∧
      observed.timeoutTotal = metrics.timeoutTotal ∧
      observed.stateRpcFailTotal = metrics.stateRpcFailTotal ∧
      observed.stateTimeoutFailTotal = metrics.stateTimeoutFailTotal := by
  cases category <;> exact ⟨rfl, rfl, rfl, rfl, rfl, rfl, rfl⟩

/-- An observed outcome keeps the partition, and completes one simulation. -/
theorem LiveRpcSimulationMetricsSnapshot.Partitioned.observe (partitioned : metrics.Partitioned)
    (room : metrics.completedTotal < u64Max) (status : RemoteSimulationStatus)
    (failCategory : Option String) (latencyMs txCount : Nat)
    (kinds : (status = .ok ∧ failCategory = none) ∨
      (∃ category, status = .failed ∧
        failCategory = some (simulationFailCategoryLabel category)) ∨
      (status = .stateError ∧ failCategory = some "state_rpc") ∨
      (status = .timeout ∧ failCategory = some "state_timeout")) :
    (metrics.observeSimulationResult (simulationStatusLabel status) latencyMs txCount
        failCategory).Partitioned ∧
      (metrics.observeSimulationResult (simulationStatusLabel status) latencyMs txCount
        failCategory).completedTotal = metrics.completedTotal + 1 := by
  obtain ⟨statuses, failures, stateErrors, timeouts⟩ := partitioned
  have counted : ∀ {total : Nat}, total ≤ metrics.completedTotal →
      saturatingAdd u64Max total 1 = total + 1 := fun within => saturatingAdd_succ within room
  have completed := counted le_rfl
  have succeeded := counted (show metrics.okTotal ≤ _ by omega)
  have failed := counted (show metrics.failedTotal ≤ _ by omega)
  have unread := counted (show metrics.stateErrorTotal ≤ _ by omega)
  have late := counted (show metrics.timeoutTotal ≤ _ by omega)
  rcases kinds with ⟨rfl, rfl⟩ | ⟨category, rfl, rfl⟩ | ⟨rfl, rfl⟩ | ⟨rfl, rfl⟩
  · refine ⟨⟨?_, failures, stateErrors, timeouts⟩, completed⟩
    change saturatingAdd u64Max metrics.completedTotal 1 =
      saturatingAdd u64Max metrics.okTotal 1 + metrics.failedTotal + metrics.stateErrorTotal +
        metrics.timeoutTotal
    omega
  · obtain ⟨done, ok, fails, unreads, lates, rpc, timed⟩ :=
      (metrics.observeSimulationResult "failed" latencyMs txCount none).observeFailCategory_frame
        category
    have failing : metrics.executionFailTotal = metrics.failedTotal := failures.symm
    have raised := (metrics.observeSimulationResult "failed" latencyMs txCount
      none).executionFailTotal_observe category (show metrics.executionFailTotal < u64Max by omega)
    have split : metrics.observeSimulationResult (simulationStatusLabel .failed) latencyMs txCount
        (some (simulationFailCategoryLabel category)) =
          (metrics.observeSimulationResult "failed" latencyMs txCount none).observeFailCategory
            (simulationFailCategoryLabel category) := rfl
    rw [split]
    refine ⟨⟨?_, ?_, ?_, ?_⟩, done.trans completed⟩
    · rw [done, ok, fails, unreads, lates]
      change saturatingAdd u64Max metrics.completedTotal 1 =
        metrics.okTotal + saturatingAdd u64Max metrics.failedTotal 1 + metrics.stateErrorTotal +
          metrics.timeoutTotal
      omega
    · refine fails.trans (Eq.trans ?_ raised.symm)
      change saturatingAdd u64Max metrics.failedTotal 1 = metrics.executionFailTotal + 1
      omega
    · exact unreads.trans (stateErrors.trans rpc.symm)
    · exact lates.trans (timeouts.trans timed.symm)
  · refine ⟨⟨?_, failures, ?_, timeouts⟩, completed⟩
    · change saturatingAdd u64Max metrics.completedTotal 1 =
        metrics.okTotal + metrics.failedTotal + saturatingAdd u64Max metrics.stateErrorTotal 1 +
          metrics.timeoutTotal
      omega
    · exact congrArg (fun total => saturatingAdd u64Max total 1) stateErrors
  · refine ⟨⟨?_, failures, stateErrors, ?_⟩, completed⟩
    · change saturatingAdd u64Max metrics.completedTotal 1 =
        metrics.okTotal + metrics.failedTotal + metrics.stateErrorTotal +
          saturatingAdd u64Max metrics.timeoutTotal 1
      omega
    · exact congrArg (fun total => saturatingAdd u64Max total 1) timeouts

/-- What the status and the category of an outcome may change: their own counters. -/
def LiveRpcSimulationMetricsSnapshot.Recounted (metrics other : LiveRpcSimulationMetricsSnapshot) :
    Prop :=
  ∃ ok failed stateError timeout revert outOfGas nonceMismatch stateMismatch unknown stateRpc
      stateTimeout, other =
    { metrics with
      okTotal := ok
      failedTotal := failed
      stateErrorTotal := stateError
      timeoutTotal := timeout
      revertFailTotal := revert
      outOfGasFailTotal := outOfGas
      nonceMismatchFailTotal := nonceMismatch
      stateMismatchFailTotal := stateMismatch
      unknownFailTotal := unknown
      stateRpcFailTotal := stateRpc
      stateTimeoutFailTotal := stateTimeout }

theorem recounted_observeStatus (status : String) :
    metrics.Recounted (metrics.observeStatus status) := by
  unfold LiveRpcSimulationMetricsSnapshot.observeStatus
  split <;> exact ⟨_, _, _, _, _, _, _, _, _, _, _, rfl⟩

theorem recounted_observeFailCategory (category : String) :
    metrics.Recounted (metrics.observeFailCategory category) := by
  unfold LiveRpcSimulationMetricsSnapshot.observeFailCategory
  split <;> exact ⟨_, _, _, _, _, _, _, _, _, _, _, rfl⟩

theorem LiveRpcSimulationMetricsSnapshot.Recounted.trans
    {first second third : LiveRpcSimulationMetricsSnapshot} (one : first.Recounted second)
    (two : second.Recounted third) : first.Recounted third := by
  obtain ⟨_, _, _, _, _, _, _, _, _, _, _, rfl⟩ := one
  obtain ⟨_, _, _, _, _, _, _, _, _, _, _, rfl⟩ := two
  exact ⟨_, _, _, _, _, _, _, _, _, _, _, rfl⟩

/-- What an observed outcome changes besides its own counters. -/
theorem LiveRpcSimulationMetricsSnapshot.recounted_observeSimulationResult
    (metrics : LiveRpcSimulationMetricsSnapshot) (status : String) (latencyMs txCount : Nat)
    (failCategory : Option String) :
    LiveRpcSimulationMetricsSnapshot.Recounted
      { metrics with
        completedTotal := saturatingAdd u64Max metrics.completedTotal 1
        txTotal := saturatingAdd u64Max metrics.txTotal txCount
        lastLatencyMs := latencyMs
        maxLatencyMs := max metrics.maxLatencyMs latencyMs
        totalLatencyMs := saturatingAdd u64Max metrics.totalLatencyMs latencyMs }
      (metrics.observeSimulationResult status latencyMs txCount failCategory) := by
  unfold LiveRpcSimulationMetricsSnapshot.observeSimulationResult
  cases failCategory with
  | none => exact recounted_observeStatus status
  | some category => exact (recounted_observeStatus status).trans (recounted_observeFailCategory _)

end Outcomes

end Mempulse.LiveRpc
