import Mempulse.LiveRpc.SimulationMetrics
import Mempulse.Library.Gauges
import Mempulse.Library.Tasks
import Mempulse.Library.TreeMaps

/-!
# The simulation pool

Chain workers put simulation tasks on a bounded channel and then, in separate steps, count them; the
workers of the pool take tasks out and count what they take, what comes out, and what they are busy
with. A task can be taken and counted out before it is counted in, and the depth gauge, which stops
at zero, then stays too high for good. A worker that panics at its task or is dropped with its runtime
takes no further step. The channel closes with its last worker and loses its queue, and the next call
that finds it closed opens another with workers of its own.

In every interleaving each accepted task leaves its queue once and in order, the number of tasks in
flight is exact, and the depth gauge is the length of the queue up to the counts still to be made, the
tasks lost with a channel and the deficit it has lost (`run_simulationPool`). The counters of the
outcomes partition the simulations (`run_simulationOutcomes`).
-/

set_option autoImplicit false

namespace Mempulse.LiveRpc

open Library

/-! ## The pool -/

/-- The limits of the pool. -/
structure LiveRpcSimulationService where
  queueCapacity : Nat
  workerTotal : Nat
  deriving DecidableEq

/-- How far a call of `enqueue` has come. -/
inductive EnqueueStage where
  | choosing
  /-- `runtime` has found the channel closed. -/
  | reopening
  /-- `runtime` has returned the channel of a generation. -/
  | chosen (generation : Nat)
  /-- `try_send` returned, with its answer. -/
  | sent (accepted : Bool)
  /-- The limits are written and the outcome not yet counted. -/
  | configured (accepted : Bool)
  | returned (accepted : Bool)
  /-- The channel was closed, which is an error. -/
  | failed
  deriving DecidableEq

/-- Where a worker is in its loop, or was when it died. -/
inductive PoolWorkerStage where
  | spawned
  | idle
  | received (task : SimulationTask)
  | simulating (task : SimulationTask)
  | applying (task : SimulationTask) (outcome : RemoteSimulationOutcome)
  | deadIdle
  | deadSimulating (task : SimulationTask)
  | deadApplying (task : SimulationTask) (outcome : RemoteSimulationOutcome)
  deriving DecidableEq

/-- A worker can die where it waits and where it panics, but not between two counts. -/
def PoolWorkerStage.death : PoolWorkerStage → Option PoolWorkerStage
  | .idle => some .deadIdle
  | .simulating task => some (.deadSimulating task)
  | .applying task outcome => some (.deadApplying task outcome)
  | .spawned | .received _ | .deadIdle | .deadSimulating _ | .deadApplying _ _ => none

/-- A call of `enqueue`, or a worker of the pool. -/
inductive PoolAgent where
  | enqueuer (task : SimulationTask) (stage : EnqueueStage)
  | worker (stage : PoolWorkerStage)
  deriving DecidableEq

/-- The channel and the metrics. The channel is the one of the last generation; it is closed when no
worker has its receiver. The last four fields are bookkeeping that no step reads: the tasks that a
queue took, those that left one, each with whether a worker took it, the raisings and lowerings of the
depth gauge, and the outcomes. -/
structure SimulationPool where
  generation : Nat := 0
  queue : List SimulationTask := []
  /-- The workers of the channel that live, started or not. -/
  receivers : Nat
  /-- Those of them that have not started. -/
  spawned : Nat
  metrics : LiveRpcSimulationMetricsSnapshot := {}
  accepted : List SimulationTask := []
  departed : List (SimulationTask × Bool) := []
  depthMoves : List Bool := []
  outcomes : List (RemoteSimulationOutcome × Nat) := []
  deriving DecidableEq

namespace SimulationPool

/-- `LiveRpcSimulationService::new`: the first channel with its workers. -/
def start (service : LiveRpcSimulationService) : SimulationPool where
  receivers := service.workerTotal
  spawned := service.workerTotal

/-- `spawn_live_rpc_simulation_runtime`, in the place of a closed channel. -/
def reopen (pool : SimulationPool) (service : LiveRpcSimulationService) : SimulationPool :=
  { pool with
    generation := pool.generation + 1
    queue := []
    receivers := service.workerTotal
    spawned := service.workerTotal }

/-- A worker of the channel dies, and with the last one the queue is lost. -/
def loseWorker (pool : SimulationPool) : SimulationPool :=
  { pool with
    receivers := pool.receivers - 1
    queue := if pool.receivers ≤ 1 then [] else pool.queue
    departed :=
      if pool.receivers ≤ 1 then pool.departed ++ pool.queue.map fun task => (task, false)
      else pool.departed }

/-- The tasks that workers took. -/
def taken (pool : SimulationPool) : List SimulationTask :=
  (pool.departed.filter fun departure => departure.2).map Prod.fst

/-- The tasks that were lost with a channel. -/
def lost (pool : SimulationPool) : List SimulationTask :=
  (pool.departed.filter fun departure => !departure.2).map Prod.fst

theorem loseWorker_last (pool : SimulationPool) (last : pool.receivers ≤ 1) :
    pool.loseWorker =
      { pool with
        receivers := 0
        queue := []
        departed := pool.departed ++ pool.queue.map fun task => (task, false) } := by
  rw [loseWorker, if_pos last, if_pos last, Nat.sub_eq_zero_of_le last]

theorem loseWorker_of_lt (pool : SimulationPool) (others : 1 < pool.receivers) :
    pool.loseWorker = { pool with receivers := pool.receivers - 1 } := by
  rw [loseWorker, if_neg (Nat.not_le_of_lt others), if_neg (Nat.not_le_of_lt others)]

theorem taken_take {pool : SimulationPool} {rest : List SimulationTask} {task : SimulationTask} :
    ({ pool with queue := rest, departed := pool.departed ++ [(task, true)] } : SimulationPool).taken =
      pool.taken ++ [task] := by
  rw [taken, taken, List.filter_append, List.map_append]
  rfl

theorem lost_take {pool : SimulationPool} {rest : List SimulationTask} {task : SimulationTask} :
    ({ pool with queue := rest, departed := pool.departed ++ [(task, true)] } : SimulationPool).lost =
      pool.lost := by
  rw [lost, lost, List.filter_append, List.map_append, List.filter_cons_of_neg (by simp)]
  exact List.append_nil _

/-- What is lost was not taken. -/
theorem taken_loseWorker (pool : SimulationPool) : pool.loseWorker.taken = pool.taken := by
  by_cases last : pool.receivers ≤ 1
  · have nothing : ((pool.queue.map fun task => (task, false)).filter fun departure => departure.2) =
        [] := by
      refine List.filter_eq_nil_iff.mpr fun departure member => ?_
      obtain ⟨task, -, rfl⟩ := List.mem_map.mp member
      exact Bool.false_ne_true
    rw [pool.loseWorker_last last, taken, taken, List.filter_append, nothing, List.append_nil]
  · rw [pool.loseWorker_of_lt (Nat.lt_of_not_le last)]
    rfl

/-- A task that left a queue was taken or lost. -/
theorem length_departed (pool : SimulationPool) :
    pool.departed.length = pool.taken.length + pool.lost.length := by
  rw [taken, lost, List.length_map, List.length_map, ← List.length_append]
  exact (List.filter_append_perm (fun departure => departure.2) pool.departed).length_eq.symm

end SimulationPool

/-- A simulation ends somehow, a worker dies; every other step is the agent's next one. -/
inductive PoolEvent where
  | next
  | simulate (simulated : Simulated) (latencyMs : UInt64)
  | die
  deriving DecidableEq

/-- One step of `enqueue`. -/
def enqueueStep (service : LiveRpcSimulationService) (pool : SimulationPool)
    (task : SimulationTask) : EnqueueStage → Option (SimulationPool × EnqueueStage)
  | .choosing =>
    if pool.receivers = 0 then some (pool, .reopening) else some (pool, .chosen pool.generation)
  -- Another call may have opened a channel in between.
  | .reopening =>
    if pool.receivers = 0 then some (pool.reopen service, .chosen (pool.generation + 1))
    else some (pool, .chosen pool.generation)
  | .chosen generation =>
    if generation ≠ pool.generation ∨ pool.receivers = 0 then some (pool, .failed)
    else if pool.queue.length < service.queueCapacity then
      some ({ pool with queue := pool.queue ++ [task], accepted := pool.accepted ++ [task] },
        .sent true)
    else some (pool, .sent false)
  | .sent accepted =>
    some
      ({ pool with
          metrics :=
            pool.metrics.configureSimulationQueue service.queueCapacity service.workerTotal },
        .configured accepted)
  | .configured true =>
    some
      ({ pool with
          metrics := pool.metrics.observeSimulationEnqueue
          depthMoves := pool.depthMoves ++ [true] },
        .returned true)
  | .configured false =>
    some ({ pool with metrics := pool.metrics.observeSimulationQueueFullDrop }, .returned false)
  | .returned _ | .failed => none

/-- One step of `run_simulation_worker`. -/
def workerStep (pool : SimulationPool) :
    PoolWorkerStage → PoolEvent → Option (SimulationPool × PoolWorkerStage)
  | .spawned, .next =>
    if pool.spawned = 0 then none else some ({ pool with spawned := pool.spawned - 1 }, .idle)
  | .idle, .next =>
    match pool.queue with
    | [] => none
    | task :: rest =>
      some ({ pool with queue := rest, departed := pool.departed ++ [(task, true)] }, .received task)
  | .received task, .next =>
    some
      ({ pool with
          metrics := pool.metrics.observeSimulationDequeue
          depthMoves := pool.depthMoves ++ [false] },
        .simulating task)
  | .simulating task, .simulate simulated latencyMs =>
    let outcome := simulateRemoteRequest task.request simulated latencyMs
    some
      ({ pool with
          metrics := pool.metrics.observeSimulationResult (simulationStatusLabel outcome.status)
            latencyMs.toNat task.request.txs.length outcome.failCategory
          outcomes := pool.outcomes ++ [(outcome, task.request.txs.length)] },
        .applying task outcome)
  | .applying _ _, .next =>
    some ({ pool with metrics := pool.metrics.observeSimulationFinish }, .idle)
  | stage, .die => stage.death.map fun dead => (pool.loseWorker, dead)
  | _, _ => none

/-- One step of an agent: of an enqueuer, or of a worker. -/
def poolStep (service : LiveRpcSimulationService) (pool : SimulationPool) :
    PoolAgent → PoolEvent → Option (SimulationPool × PoolAgent)
  | .enqueuer task stage, .next =>
    (enqueueStep service pool task stage).map fun after => (after.1, .enqueuer task after.2)
  | .worker stage, event =>
    (workerStep pool stage event).map fun after => (after.1, .worker after.2)
  | _, _ => none

/-- A call to enqueue a task begins, or one of the spawned workers is about to start. -/
def enterPool : Option SimulationTask → PoolAgent
  | some task => .enqueuer task .choosing
  | none => .worker .spawned

/-- The steps of the chain workers' calls and of the pool's workers, in any order. -/
def PoolTakes (service : LiveRpcSimulationService) :
    Team SimulationPool PoolAgent → TeamTurn (Option SimulationTask) PoolEvent →
      Team SimulationPool PoolAgent → Prop :=
  Team.Takes enterPool (poolStep service)

/-! ## What a step can do -/

/-- The stages of a call in which it has nothing to count. -/
def EnqueueStage.silent : EnqueueStage → Bool
  | .choosing | .reopening | .chosen _ | .sent false | .failed => true
  | .sent true | .configured _ | .returned _ => false

section Steps

variable {service : LiveRpcSimulationService} {pool : SimulationPool} {agent : PoolAgent}
  {event : PoolEvent} {after : SimulationPool × PoolAgent}

/-- **What an agent can do**: one case for each way from a stage to the next that changes something,
and one for the others. -/
theorem poolStep_cases {motive : SimulationPool × PoolAgent → Prop}
    (stepped : poolStep service pool agent event = some after)
    (walks : ∀ task stage onward, agent = .enqueuer task stage → stage.silent = true →
      onward.silent = true → motive (pool, .enqueuer task onward))
    (reopens : ∀ task, agent = .enqueuer task .reopening → pool.receivers = 0 →
      motive (pool.reopen service, .enqueuer task (.chosen (pool.generation + 1))))
    (accepts : ∀ task generation, agent = .enqueuer task (.chosen generation) →
      pool.receivers ≠ 0 → pool.queue.length < service.queueCapacity →
        motive ({ pool with queue := pool.queue ++ [task], accepted := pool.accepted ++ [task] },
          .enqueuer task (.sent true)))
    (configures : ∀ task accepted, agent = .enqueuer task (.sent accepted) →
      motive
        ({ pool with
            metrics :=
              pool.metrics.configureSimulationQueue service.queueCapacity service.workerTotal },
          .enqueuer task (.configured accepted)))
    (counts : ∀ task, agent = .enqueuer task (.configured true) →
      motive
        ({ pool with
            metrics := pool.metrics.observeSimulationEnqueue
            depthMoves := pool.depthMoves ++ [true] },
          .enqueuer task (.returned true)))
    (drops : ∀ task, agent = .enqueuer task (.configured false) →
      motive ({ pool with metrics := pool.metrics.observeSimulationQueueFullDrop },
        .enqueuer task (.returned false)))
    (starts : agent = .worker .spawned → pool.spawned ≠ 0 →
      motive ({ pool with spawned := pool.spawned - 1 }, .worker .idle))
    (receives : ∀ task rest, agent = .worker .idle → pool.queue = task :: rest →
      motive ({ pool with queue := rest, departed := pool.departed ++ [(task, true)] },
        .worker (.received task)))
    (dequeues : ∀ task, agent = .worker (.received task) →
      motive
        ({ pool with
            metrics := pool.metrics.observeSimulationDequeue
            depthMoves := pool.depthMoves ++ [false] },
          .worker (.simulating task)))
    (simulates : ∀ task simulated latencyMs, agent = .worker (.simulating task) →
      ∀ outcome, outcome = simulateRemoteRequest task.request simulated latencyMs →
        motive
          ({ pool with
              metrics := pool.metrics.observeSimulationResult
                (simulationStatusLabel outcome.status) latencyMs.toNat task.request.txs.length
                outcome.failCategory
              outcomes := pool.outcomes ++ [(outcome, task.request.txs.length)] },
            .worker (.applying task outcome)))
    (finishes : ∀ task outcome, agent = .worker (.applying task outcome) →
      motive ({ pool with metrics := pool.metrics.observeSimulationFinish }, .worker .idle))
    (dies : ∀ stage dead, agent = .worker stage → stage.death = some dead →
      motive (pool.loseWorker, .worker dead)) :
    motive after := by
  cases agent with
  | enqueuer task stage =>
      cases event with
      | simulate | die => cases stepped
      | next =>
          obtain ⟨result, taken, rfl⟩ := Option.map_eq_some_iff.mp stepped
          cases stage with
          | choosing =>
              simp only [enqueueStep] at taken
              split at taken <;> cases taken
              · exact walks task .choosing .reopening rfl rfl rfl
              · exact walks task .choosing (.chosen _) rfl rfl rfl
          | reopening =>
              simp only [enqueueStep] at taken
              split at taken
              case isTrue closed =>
                cases taken
                exact reopens task rfl closed
              case isFalse =>
                cases taken
                exact walks task .reopening (.chosen _) rfl rfl rfl
          | chosen generation =>
              simp only [enqueueStep] at taken
              split at taken
              case isTrue =>
                cases taken
                exact walks task (.chosen generation) .failed rfl rfl rfl
              case isFalse openly =>
                split at taken
                case isTrue room =>
                  cases taken
                  exact accepts task generation rfl (fun none => openly (.inr none)) room
                case isFalse =>
                  cases taken
                  exact walks task (.chosen generation) (.sent false) rfl rfl rfl
          | sent accepted =>
              cases taken
              exact configures task accepted rfl
          | configured accepted =>
              cases accepted with
              | true =>
                  cases taken
                  exact counts task rfl
              | false =>
                  cases taken
                  exact drops task rfl
          | returned | failed => cases taken
  | worker stage =>
      obtain ⟨result, taken, rfl⟩ := Option.map_eq_some_iff.mp stepped
      cases event with
      | die =>
          have died : (stage.death.map fun dead => (pool.loseWorker, dead)) = some result := by
            cases stage <;> exact taken
          obtain ⟨dead, death, rfl⟩ := Option.map_eq_some_iff.mp died
          exact dies stage dead rfl death
      | next =>
          cases stage with
          | spawned =>
              simp only [workerStep] at taken
              split at taken
              case isTrue => cases taken
              case isFalse left =>
                cases taken
                exact starts rfl left
          | idle =>
              simp only [workerStep] at taken
              split at taken
              case h_1 => cases taken
              case h_2 task rest queue =>
                cases taken
                exact receives task rest rfl queue
          | received task =>
              cases taken
              exact dequeues task rfl
          | applying task outcome =>
              cases taken
              exact finishes task outcome rfl
          | simulating | deadIdle | deadSimulating | deadApplying => cases taken
      | simulate simulated latencyMs =>
          cases stage with
          | simulating task =>
              cases taken
              exact simulates task simulated latencyMs rfl _ rfl
          | spawned | idle | received | applying | deadIdle | deadSimulating | deadApplying =>
              cases taken

end Steps

/-! ## The invariant of the pool -/

/-- The totals and the latencies are those of the outcomes. -/
abbrev SimulationPool.Totals (pool : SimulationPool) : Prop :=
  pool.metrics.txTotal = min (pool.outcomes.map Prod.snd).sum u64Max ∧
    pool.metrics.totalLatencyMs =
      min (pool.outcomes.map fun outcome => outcome.1.latencyMs.toNat).sum u64Max ∧
    pool.metrics.maxLatencyMs =
      (pool.outcomes.map fun outcome => outcome.1.latencyMs.toNat).foldl max 0 ∧
    pool.metrics.lastLatencyMs =
      ((pool.outcomes.getLast?).map fun outcome => outcome.1.latencyMs.toNat).getD 0

/-- What holds of the queue and the metrics after so many turns. -/
structure PoolInvariant (service : LiveRpcSimulationService) (time : Nat) (pool : SimulationPool) :
    Prop where
  order : pool.accepted = pool.departed.map Prod.fst ++ pool.queue
  bounded : pool.queue.length ≤ service.queueCapacity
  kept : pool.generation = 0 → 0 < pool.receivers → pool.lost = []
  closed : pool.receivers = 0 → pool.queue = []
  moves : pool.depthMoves.length ≤ time
  completed : pool.metrics.completedTotal ≤ time
  depth : time ≤ u64Max → pool.metrics.queueDepth = Gauge.reading pool.depthMoves
  enqueued : pool.metrics.enqueuedTotal = min (Gauge.rises pool.depthMoves) u64Max
  partitioned : time ≤ u64Max → pool.metrics.Partitioned
  outcomes : time ≤ u64Max → pool.metrics.completedTotal = pool.outcomes.length
  totals : pool.Totals

section Invariant

variable {service : LiveRpcSimulationService} {pool : SimulationPool} {time : Nat}

theorem PoolInvariant.start (service : LiveRpcSimulationService) :
    PoolInvariant service 0 (.start service) where
  order := rfl
  bounded := Nat.zero_le _
  kept _ _ := rfl
  closed _ := rfl
  moves := le_rfl
  completed := le_rfl
  depth _ := rfl
  enqueued := rfl
  partitioned _ := ⟨rfl, rfl, rfl, rfl⟩
  outcomes _ := rfl
  totals := ⟨rfl, rfl, rfl, rfl⟩

theorem PoolInvariant.idle (invariant : PoolInvariant service time pool) :
    PoolInvariant service (time + 1) pool where
  order := invariant.order
  bounded := invariant.bounded
  kept := invariant.kept
  closed := invariant.closed
  moves := Nat.le_succ_of_le invariant.moves
  completed := Nat.le_succ_of_le invariant.completed
  depth few := invariant.depth (Nat.le_of_succ_le few)
  enqueued := invariant.enqueued
  partitioned few := invariant.partitioned (Nat.le_of_succ_le few)
  outcomes few := invariant.outcomes (Nat.le_of_succ_le few)
  totals := invariant.totals

theorem reading_le_length (moves : List Bool) : Gauge.reading moves ≤ moves.length := by
  induction moves using List.reverseRecOn with
  | nil => exact le_rfl
  | append_singleton moves raised ih =>
      rw [Gauge.reading_concat, List.length_append, List.length_singleton]
      cases raised with
      | true => exact Nat.succ_le_succ ih
      | false => exact (Nat.sub_le _ _).trans (Nat.le_succ_of_le ih)

theorem saturatingAdd_min (bound total amount : Nat) :
    saturatingAdd bound (min total bound) amount = min (total + amount) bound := by
  unfold saturatingAdd
  omega

/-- An outcome that is observed and recorded. -/
theorem PoolInvariant.simulates (later : PoolInvariant service (time + 1) pool)
    (invariant : PoolInvariant service time pool) (task : SimulationTask) (simulated : Simulated)
    (latencyMs : UInt64) :
    let outcome := simulateRemoteRequest task.request simulated latencyMs
    PoolInvariant service (time + 1)
      { pool with
        metrics := pool.metrics.observeSimulationResult (simulationStatusLabel outcome.status)
          latencyMs.toNat task.request.txs.length outcome.failCategory
        outcomes := pool.outcomes ++ [(outcome, task.request.txs.length)] } := by
  intro outcome
  have kinds := simulateRemoteRequest_kinds task.request simulated latencyMs
  have observed : time + 1 ≤ u64Max → _ := fun few =>
    LiveRpcSimulationMetricsSnapshot.Partitioned.observe
      (invariant.partitioned (Nat.le_of_succ_le few))
      (Nat.lt_of_le_of_lt invariant.completed few) outcome.status outcome.failCategory
      latencyMs.toNat task.request.txs.length kinds
  obtain ⟨txs, latencies, largest, latest⟩ := invariant.totals
  have completed := invariant.completed
  have exact_completed := invariant.outcomes
  obtain ⟨_, _, _, _, _, _, _, _, _, _, _, recounted⟩ :=
    pool.metrics.recounted_observeSimulationResult (simulationStatusLabel outcome.status)
      latencyMs.toNat task.request.txs.length outcome.failCategory
  rw [recounted] at observed ⊢
  refine { later with completed := ?_, partitioned := ?_, outcomes := ?_, totals := ?_ }
  · exact (Nat.min_le_left _ _).trans (Nat.succ_le_succ completed)
  · exact fun few => (observed few).1
  · intro few
    have counted := (observed few).2
    have before := exact_completed (Nat.le_of_succ_le few)
    dsimp only at counted ⊢
    rw [counted, List.length_append, before]
    rfl
  · refine ⟨?_, ?_, ?_, ?_⟩
    · rw [List.map_append, List.sum_append, List.map_singleton, List.sum_singleton]
      dsimp only
      rw [txs]
      exact saturatingAdd_min _ _ _
    · rw [List.map_append, List.sum_append, List.map_singleton, List.sum_singleton]
      dsimp only
      rw [latencies]
      exact saturatingAdd_min _ _ _
    · rw [List.map_append, List.foldl_append]
      dsimp only
      rw [largest]
      rfl
    · rw [List.getLast?_concat]
      rfl

theorem PoolInvariant.step {agent : PoolAgent} {event : PoolEvent}
    {after : SimulationPool × PoolAgent} (invariant : PoolInvariant service time pool)
    (stepped : poolStep service pool agent event = some after) :
    PoolInvariant service (time + 1) after.1 := by
  have later := invariant.idle
  refine poolStep_cases (motive := fun after => PoolInvariant service (time + 1) after.1) stepped
    ?walks ?reopens ?accepts ?configures ?counts ?drops ?starts ?receives ?dequeues ?simulates
    ?finishes ?dies
  case walks => exact fun _ _ _ _ _ _ => later
  case reopens =>
    intro task _ closed
    refine { later with order := ?_, bounded := Nat.zero_le _, kept := ?_, closed := fun _ => rfl }
    · change pool.accepted = pool.departed.map Prod.fst ++ []
      rw [invariant.order, invariant.closed closed]
    · intro first
      cases first
  case accepts =>
    intro task generation _ living room
    refine { later with order := ?_, bounded := ?_, closed := fun none => absurd none living }
    · dsimp only
      rw [invariant.order, List.append_assoc]
    · dsimp only
      rw [List.length_append]
      exact room
  case configures => exact fun _ _ _ => { later with }
  case counts =>
    intro task _
    have moves := invariant.moves
    refine { later with moves := ?_, depth := ?_, enqueued := ?_ }
    · dsimp only
      rw [List.length_append]
      exact Nat.succ_le_succ moves
    · intro few
      have shown := reading_le_length pool.depthMoves
      dsimp only [LiveRpcSimulationMetricsSnapshot.observeSimulationEnqueue]
      rw [Gauge.reading_concat, invariant.depth (Nat.le_of_succ_le few), if_pos rfl]
      exact saturatingAdd_of_le (by omega)
    · have counted := invariant.enqueued
      dsimp only [LiveRpcSimulationMetricsSnapshot.observeSimulationEnqueue]
      rw [Gauge.rises_concat, counted, saturatingAdd, Bool.toNat_true]
      omega
  case drops => exact fun _ _ => { later with }
  case starts => exact fun _ _ => { later with }
  case receives =>
    intro task rest _ queue
    have bounded := invariant.bounded
    have kept := invariant.kept
    have closed := invariant.closed
    rw [queue] at bounded closed
    refine { later with order := ?_, bounded := Nat.le_of_succ_le bounded, kept := ?_, closed := ?_ }
    · dsimp only
      rw [invariant.order, queue, List.map_append, List.append_assoc]
      rfl
    · intro first living
      rw [SimulationPool.lost_take]
      exact kept first living
    · exact fun none => by cases closed none
  case dequeues =>
    intro task _
    refine { later with moves := ?_, depth := ?_, enqueued := ?_ }
    · dsimp only
      rw [List.length_append]
      exact Nat.succ_le_succ invariant.moves
    · intro few
      dsimp only [LiveRpcSimulationMetricsSnapshot.observeSimulationDequeue]
      rw [Gauge.reading_concat, invariant.depth (Nat.le_of_succ_le few), if_neg Bool.false_ne_true]
    · dsimp only [LiveRpcSimulationMetricsSnapshot.observeSimulationDequeue]
      rw [Gauge.rises_concat, invariant.enqueued]
      rfl
  case simulates =>
    rintro task simulated latencyMs - outcome rfl
    exact later.simulates invariant task simulated latencyMs
  case finishes => exact fun _ _ _ => { later with }
  case dies =>
    intro stage dead _ _
    by_cases last : pool.receivers ≤ 1
    · rw [pool.loseWorker_last last]
      refine { later with order := ?_, bounded := Nat.zero_le _, kept := ?_, closed := fun _ => rfl }
      · dsimp only
        rw [invariant.order, List.map_append, List.map_map, List.append_nil]
        congr 1
        exact (List.map_id _).symm
      · exact fun _ living => absurd living (Nat.lt_irrefl 0)
    · rw [pool.loseWorker_of_lt (Nat.lt_of_not_le last)]
      refine { later with kept := fun first _ => ?_, closed := fun none => ?_ }
      · exact invariant.kept first (by omega)
      · dsimp only at none
        omega

end Invariant

/-! ## What the agents still owe -/

namespace PoolAgent

/-- A task of this call is on the queue, or was, and is not counted in. -/
def owesEnqueue : PoolAgent → Bool
  | .enqueuer _ (.sent true) | .enqueuer _ (.configured true) => true
  | _ => false

/-- This worker took a task and has not counted it out. -/
def owesDequeue : PoolAgent → Bool
  | .worker (.received _) => true
  | _ => false

/-- This worker holds a task that is not simulated, or died with it. -/
def unsimulated : PoolAgent → Bool
  | .worker (.received _) | .worker (.simulating _) | .worker (.deadSimulating _) => true
  | _ => false

/-- This worker counts as busy. One that dies at its task is never counted out. -/
def inflight : PoolAgent → Bool
  | .worker (.simulating _) | .worker (.applying _ _) | .worker (.deadSimulating _)
  | .worker (.deadApplying _ _) => true
  | _ => false

/-- This worker has started and lives. -/
def living : PoolAgent → Bool
  | .worker .idle | .worker (.received _) | .worker (.simulating _) | .worker (.applying _ _) => true
  | _ => false

/-- This worker has died. -/
def dead : PoolAgent → Bool
  | .worker .deadIdle | .worker (.deadSimulating _) | .worker (.deadApplying _ _) => true
  | _ => false

/-- This call was refused and is counted as dropped. -/
def dropped : PoolAgent → Bool
  | .enqueuer _ (.returned false) => true
  | _ => false

end PoolAgent

section Totals

variable {service : LiveRpcSimulationService} {crew : Team SimulationPool PoolAgent}
  {history : List (TeamTurn (Option SimulationTask) PoolEvent)}

/-- An agent has nothing to count when it joins. -/
theorem enterPool_owes (seed : Option SimulationTask) :
    (enterPool seed).owesEnqueue = false ∧ (enterPool seed).owesDequeue = false ∧
      (enterPool seed).unsimulated = false ∧ (enterPool seed).inflight = false ∧
      (enterPool seed).dropped = false ∧ (enterPool seed).living = false ∧
      (enterPool seed).dead = false := by
  cases seed <;> exact ⟨rfl, rfl, rfl, rfl, rfl, rfl, rfl⟩

/-- The agents of a kind are what separates two counts, when every step changes the counts by what it
changes its agent. -/
theorem total_eq_countP (kind : PoolAgent → Bool) (base total : SimulationPool → Nat)
    (run : Run (PoolTakes service) { shared := .start service } history crew)
    (start : total (.start service) = base (.start service))
    (joined : ∀ seed, kind (enterPool seed) = false)
    (acted : ∀ {past : List (TeamTurn (Option SimulationTask) PoolEvent)}
      {crew : Team SimulationPool PoolAgent} {agent event after},
      Run (PoolTakes service) { shared := .start service } past crew →
      past.length < history.length → agent ∈ crew.tasks →
      total crew.shared = base crew.shared + crew.tasks.countP kind →
      poolStep service crew.shared agent event = some after →
        total after.1 + base crew.shared + (kind agent).toNat =
          total crew.shared + base after.1 + (kind after.2).toNat) :
    total crew.shared = base crew.shared + crew.tasks.countP kind := by
  have counts : ∀ agents : List PoolAgent,
      (agents.map fun agent => (kind agent).toNat).sum = agents.countP kind := fun agents =>
    sum_map_eq_countP _ _ _ fun agent => by cases kind agent <;> rfl
  rw [← counts]
  refine Team.total_eq (fun agent => (kind agent).toNat) base total run start
    (fun seed => by rw [joined]; rfl) fun front few member held stepped => ?_
  exact acted front few member (held.trans (by rw [counts])) stepped

/-- What separates the counts of the pool changes with what the agent owes. -/
structure Ledger (service : LiveRpcSimulationService) (pool : SimulationPool) (agent : PoolAgent)
    (after : SimulationPool × PoolAgent) : Prop where
  enqueues : after.1.accepted.length + Gauge.rises pool.depthMoves + agent.owesEnqueue.toNat =
    pool.accepted.length + Gauge.rises after.1.depthMoves + after.2.owesEnqueue.toNat
  dequeues : after.1.taken.length + Gauge.falls pool.depthMoves + agent.owesDequeue.toNat =
    pool.taken.length + Gauge.falls after.1.depthMoves + after.2.owesDequeue.toNat
  simulations : after.1.taken.length + pool.outcomes.length + agent.unsimulated.toNat =
    pool.taken.length + after.1.outcomes.length + after.2.unsimulated.toNat
  inflight : pool.metrics.inflightCurrent < u64Max →
    agent.inflight.toNat ≤ pool.metrics.inflightCurrent →
      after.1.metrics.inflightCurrent + agent.inflight.toNat =
        pool.metrics.inflightCurrent + after.2.inflight.toNat
  drops : pool.metrics.queueFullDropTotal < u64Max →
    after.1.metrics.queueFullDropTotal + agent.dropped.toNat =
      pool.metrics.queueFullDropTotal + after.2.dropped.toNat
  receivers : pool.spawned + agent.living.toNat ≤ pool.receivers →
    after.1.receivers + pool.spawned + agent.living.toNat =
      pool.receivers + after.1.spawned + after.2.living.toNat
  deaths : agent.living.toNat ≤ pool.receivers →
    service.workerTotal * (after.1.generation + 1) + pool.receivers + agent.dead.toNat =
      service.workerTotal * (pool.generation + 1) + after.1.receivers + after.2.dead.toNat

/-- A call in a silent stage owes nothing. -/
theorem owes_of_silent {stage : EnqueueStage} (silent : stage.silent = true) (task : SimulationTask) :
    (PoolAgent.enqueuer task stage).owesEnqueue = false ∧
      (PoolAgent.enqueuer task stage).dropped = false := by
  cases stage with
  | choosing | reopening | chosen | failed => exact ⟨rfl, rfl⟩
  | sent accepted =>
      cases accepted with
      | false => exact ⟨rfl, rfl⟩
      | true => cases silent
  | configured | returned => cases silent

/-- From one silent stage to another nothing changes. -/
theorem Ledger.of_silent {pool : SimulationPool} {stage onward : EnqueueStage}
    (silent : stage.silent = true) (stays : onward.silent = true) (task : SimulationTask) :
    Ledger service pool (.enqueuer task stage) (pool, .enqueuer task onward) := by
  obtain ⟨owed, dropped⟩ := owes_of_silent silent task
  obtain ⟨stillOwed, stillDropped⟩ := owes_of_silent stays task
  refine ⟨?_, rfl, rfl, fun _ _ => rfl, fun _ => ?_, fun _ => rfl, fun _ => rfl⟩
  · rw [owed, stillOwed]
  · rw [dropped, stillDropped]

theorem poolStep_ledger {pool : SimulationPool} {agent : PoolAgent} {event : PoolEvent}
    {after : SimulationPool × PoolAgent} (stepped : poolStep service pool agent event = some after) :
    Ledger service pool agent after := by
  refine poolStep_cases (motive := Ledger service pool agent) stepped ?walks ?reopens ?accepts
    ?configures ?counts ?drops ?starts ?receives ?dequeues ?simulates ?finishes ?dies
  case walks =>
    rintro task stage onward rfl silent stays
    exact .of_silent silent stays task
  case reopens =>
    rintro task rfl closed
    refine ⟨rfl, rfl, rfl, fun _ _ => rfl, fun _ => rfl, fun started => ?_, fun _ => ?_⟩
    · change pool.spawned + 0 ≤ pool.receivers at started
      change service.workerTotal + pool.spawned + 0 = pool.receivers + service.workerTotal + 0
      omega
    · change service.workerTotal * (pool.generation + 1 + 1) + pool.receivers + 0 =
        service.workerTotal * (pool.generation + 1) + service.workerTotal + 0
      rw [closed, Nat.mul_succ]
  case accepts =>
    rintro task generation rfl - room
    refine ⟨?_, rfl, rfl, fun _ _ => rfl, fun _ => rfl, fun _ => rfl, fun _ => rfl⟩
    simp only [PoolAgent.owesEnqueue, Bool.toNat_true, Bool.toNat_false, List.length_append,
      List.length_singleton]
    omega
  case configures =>
    rintro task accepted rfl
    cases accepted <;> exact
      ⟨rfl, rfl, rfl, fun _ _ => rfl, fun _ => rfl, fun _ => rfl, fun _ => rfl⟩
  case counts =>
    rintro task rfl
    refine ⟨?_, ?_, rfl, fun _ _ => rfl, fun _ => rfl, fun _ => rfl, fun _ => rfl⟩
    · simp only [PoolAgent.owesEnqueue, Gauge.rises_concat, Bool.toNat_true, Bool.toNat_false]
      omega
    · simp only [PoolAgent.owesDequeue, Gauge.falls_concat, Bool.not_true, Bool.toNat_false,
        Nat.add_zero]
      rfl
  case drops =>
    rintro task rfl
    refine ⟨rfl, rfl, rfl, fun _ _ => rfl, fun room => ?_, fun _ => rfl, fun _ => rfl⟩
    exact congrArg (· + 0) (saturatingAdd_of_le room)
  case starts =>
    rintro rfl left
    refine ⟨rfl, rfl, rfl, fun _ _ => rfl, fun _ => rfl, fun _ => ?_, fun _ => rfl⟩
    simp only [PoolAgent.living, Bool.toNat_true, Bool.toNat_false]
    omega
  case receives =>
    rintro task rest rfl queue
    refine ⟨rfl, ?_, ?_, fun _ _ => rfl, fun _ => rfl, fun _ => rfl, fun _ => rfl⟩
    · rw [SimulationPool.taken_take]
      simp only [PoolAgent.owesDequeue, Bool.toNat_true, Bool.toNat_false, List.length_append,
        List.length_singleton]
      omega
    · rw [SimulationPool.taken_take]
      simp only [PoolAgent.unsimulated, Bool.toNat_true, Bool.toNat_false, List.length_append,
        List.length_singleton]
      omega
  case dequeues =>
    rintro task rfl
    refine ⟨?_, ?_, rfl, fun room _ => ?_, fun _ => rfl, fun _ => rfl, fun _ => rfl⟩
    · simp only [PoolAgent.owesEnqueue, Gauge.rises_concat, Bool.toNat_false, Nat.add_zero]
    · change pool.taken.length + _ + _ = _
      simp only [PoolAgent.owesDequeue, Gauge.falls_concat, Bool.not_false, Bool.toNat_true,
        Bool.toNat_false]
      omega
    · exact congrArg (· + 0) (saturatingAdd_of_le room)
  case simulates =>
    rintro task simulated latencyMs rfl outcome rfl
    obtain ⟨_, _, _, _, _, _, _, _, _, _, _, recounted⟩ :=
      pool.metrics.recounted_observeSimulationResult
        (simulationStatusLabel (simulateRemoteRequest task.request simulated latencyMs).status)
        latencyMs.toNat task.request.txs.length
        (simulateRemoteRequest task.request simulated latencyMs).failCategory
    rw [recounted]
    refine ⟨rfl, rfl, ?_, fun _ _ => rfl, fun _ => rfl, fun _ => rfl, fun _ => rfl⟩
    change pool.taken.length + _ + _ = _
    simp only [PoolAgent.unsimulated, Bool.toNat_true, Bool.toNat_false, List.length_append,
      List.length_singleton]
    omega
  case finishes =>
    rintro task outcome rfl
    refine ⟨rfl, rfl, rfl, fun _ busy => ?_, fun _ => rfl, fun _ => rfl, fun _ => rfl⟩
    exact Nat.sub_add_cancel busy
  case dies =>
    rintro stage dead rfl death
    have lowered : pool.loseWorker.receivers = pool.receivers - 1 := rfl
    have same : pool.loseWorker.spawned = pool.spawned ∧
      pool.loseWorker.generation = pool.generation := ⟨rfl, rfl⟩
    -- A worker that lives is one of the receivers.
    have fewer : pool.spawned + 1 ≤ pool.receivers →
        pool.loseWorker.receivers + pool.spawned + 1 = pool.receivers + pool.loseWorker.spawned + 0 := by
      omega
    have deaths : 1 ≤ pool.receivers →
        service.workerTotal * (pool.loseWorker.generation + 1) + pool.receivers + 0 =
          service.workerTotal * (pool.generation + 1) + pool.loseWorker.receivers + 1 := by
      rw [same.2]
      omega
    cases stage with
    | idle | simulating | applying =>
        cases death
        refine ⟨rfl, ?_, ?_, fun _ _ => rfl, fun _ => rfl, fewer, deaths⟩ <;>
          rw [SimulationPool.taken_loseWorker] <;> rfl
    | spawned | received | deadIdle | deadSimulating | deadApplying => cases death

/-- What separates the counts of the pool is what its agents owe. -/
theorem run_ledger (run : Run (PoolTakes service) { shared := .start service } history crew) :
    crew.shared.accepted.length =
        Gauge.rises crew.shared.depthMoves + crew.tasks.countP PoolAgent.owesEnqueue ∧
      crew.shared.taken.length =
        Gauge.falls crew.shared.depthMoves + crew.tasks.countP PoolAgent.owesDequeue ∧
      crew.shared.taken.length =
        crew.shared.outcomes.length + crew.tasks.countP PoolAgent.unsimulated :=
  ⟨total_eq_countP _ (fun pool => Gauge.rises pool.depthMoves) (fun pool => pool.accepted.length)
      run rfl (fun seed => (enterPool_owes seed).1) fun _ _ _ _ stepped =>
        (poolStep_ledger stepped).enqueues,
    total_eq_countP _ (fun pool => Gauge.falls pool.depthMoves) (fun pool => pool.taken.length)
      run rfl (fun seed => (enterPool_owes seed).2.1) fun _ _ _ _ stepped =>
        (poolStep_ledger stepped).dequeues,
    total_eq_countP _ (fun pool => pool.outcomes.length) (fun pool => pool.taken.length)
      run rfl (fun seed => (enterPool_owes seed).2.2.1) fun _ _ _ _ stepped =>
        (poolStep_ledger stepped).simulations⟩

/-- An agent of a kind is one of those that are counted. -/
theorem toNat_le_countP {kind : PoolAgent → Bool} {agents : List PoolAgent} {agent : PoolAgent}
    (member : agent ∈ agents) : (kind agent).toNat ≤ agents.countP kind := by
  cases own : kind agent with
  | false => exact Nat.zero_le _
  | true => exact List.countP_pos_iff.mpr ⟨agent, member, own⟩

/-- The receivers of the channel are the workers that live or have yet to start. -/
theorem run_receivers (run : Run (PoolTakes service) { shared := .start service } history crew) :
    crew.shared.receivers = crew.shared.spawned + crew.tasks.countP PoolAgent.living := by
  refine total_eq_countP PoolAgent.living SimulationPool.spawned SimulationPool.receivers run rfl
    (fun seed => (enterPool_owes seed).2.2.2.2.2.1) fun _ _ member held stepped => ?_
  refine (poolStep_ledger stepped).receivers ?_
  rw [held]
  exact Nat.add_le_add_left (toNat_le_countP member) _

/-- A channel is opened only after every worker of the last one has died. -/
theorem run_deaths (run : Run (PoolTakes service) { shared := .start service } history crew) :
    service.workerTotal * (crew.shared.generation + 1) =
      crew.shared.receivers + crew.tasks.countP PoolAgent.dead := by
  refine total_eq_countP PoolAgent.dead SimulationPool.receivers
    (fun pool => service.workerTotal * (pool.generation + 1)) run (Nat.mul_one _)
    (fun seed => (enterPool_owes seed).2.2.2.2.2.2) fun front _ member _ stepped => ?_
  refine (poolStep_ledger stepped).deaths ?_
  rw [run_receivers front]
  exact (toNat_le_countP member).trans (Nat.le_add_left _ _)

/-- The busy workers and the dropped tasks are counted exactly. -/
theorem run_counted (run : Run (PoolTakes service) { shared := .start service } history crew)
    (short : history.length ≤ u64Max) :
    crew.shared.metrics.inflightCurrent = crew.tasks.countP PoolAgent.inflight ∧
      crew.shared.metrics.queueFullDropTotal = crew.tasks.countP PoolAgent.dropped := by
  constructor
  · refine (total_eq_countP PoolAgent.inflight (fun _ => 0)
      (fun pool => pool.metrics.inflightCurrent) run rfl
      (fun seed => (enterPool_owes seed).2.2.2.1) ?_).trans (Nat.zero_add _)
    intro past before agent event after front few member held stepped
    have joined := Team.length_tasks_le front
    have within := @List.countP_le_length _ PoolAgent.inflight before.tasks
    refine (poolStep_ledger stepped).inflight (by omega) ?_
    rw [held, Nat.zero_add]
    exact toNat_le_countP member
  · refine (total_eq_countP PoolAgent.dropped (fun _ => 0)
      (fun pool => pool.metrics.queueFullDropTotal) run rfl
      (fun seed => (enterPool_owes seed).2.2.2.2.1) ?_).trans (Nat.zero_add _)
    intro past before agent event after front few member held stepped
    have joined := Team.length_tasks_le front
    have within := @List.countP_le_length _ PoolAgent.dropped before.tasks
    exact (poolStep_ledger stepped).drops (by omega)

theorem run_poolInvariant (run : Run (PoolTakes service) { shared := .start service } history crew) :
    PoolInvariant service history.length crew.shared :=
  (Team.timed_invariant (PoolInvariant service) (fun _ _ => True) run (.start service)
    (fun _ _ invariant => invariant.idle) (fun _ _ _ _ => trivial)
    fun invariant _ stepped => ⟨invariant.step stepped, trivial, fun _ _ => trivial⟩).1

end Totals

/-! ## The laws of the pool -/

section Laws

variable {service : LiveRpcSimulationService} {crew : Team SimulationPool PoolAgent}
  {history : List (TeamTurn (Option SimulationTask) PoolEvent)}

/-- **The channel and its gauges.** In every interleaving of fewer than 2^64 turns, each accepted task
leaves its queue once and in order, to a worker or with a channel that closed; a channel is opened when
every worker of the last one has died, and as long as a worker of the first one lives nothing is lost;
the queue stays within its capacity; the busy workers and the dropped tasks are counted exactly, where
a worker that died at its task stays busy; and the depth gauge is the length of the queue, up to the
counts that are still owed, the tasks that were lost and the deficit that the gauge has lost. -/
theorem run_simulationPool
    (run : Run (PoolTakes service) { shared := .start service } history crew)
    (short : history.length ≤ u64Max) :
    crew.shared.accepted = crew.shared.departed.map Prod.fst ++ crew.shared.queue ∧
      (crew.shared.generation = 0 → 0 < crew.shared.receivers → crew.shared.lost = []) ∧
      service.workerTotal * (crew.shared.generation + 1) =
        crew.shared.receivers + crew.tasks.countP PoolAgent.dead ∧
      crew.shared.queue.length ≤ service.queueCapacity ∧
      crew.shared.metrics.inflightCurrent = crew.tasks.countP PoolAgent.inflight ∧
      crew.shared.metrics.queueFullDropTotal = crew.tasks.countP PoolAgent.dropped ∧
      crew.shared.metrics.enqueuedTotal + crew.tasks.countP PoolAgent.owesEnqueue =
        crew.shared.accepted.length ∧
      crew.shared.metrics.queueDepth + crew.tasks.countP PoolAgent.owesEnqueue =
        crew.shared.queue.length + crew.tasks.countP PoolAgent.owesDequeue +
          crew.shared.lost.length + Gauge.deficit crew.shared.depthMoves := by
  have invariant := run_poolInvariant run
  obtain ⟨accepted, taken, -⟩ := run_ledger run
  obtain ⟨inflight, dropped⟩ := run_counted run short
  have lengths := congrArg List.length invariant.order
  rw [List.length_append, List.length_map, SimulationPool.length_departed] at lengths
  refine ⟨invariant.order, invariant.kept, run_deaths run, invariant.bounded, inflight, dropped,
    ?_, ?_⟩
  · have few : Gauge.rises crew.shared.depthMoves ≤ u64Max :=
      (List.count_le_length.trans invariant.moves).trans short
    rw [invariant.enqueued, min_eq_left few, accepted]
  · have shown := Gauge.reading_add_falls crew.shared.depthMoves
    rw [← invariant.depth short] at shown
    omega

/-- **The outcome counters partition the simulations.** In every interleaving of fewer than 2^64
turns, every accepted task is queued, lost with its channel, held by a worker or dead with it, or
completed; each completed one is counted under one status, each one that did not succeed under one
category; and the totals and latencies are those of the outcomes. -/
theorem run_simulationOutcomes
    (run : Run (PoolTakes service) { shared := .start service } history crew)
    (short : history.length ≤ u64Max) :
    crew.shared.accepted.length =
        crew.shared.queue.length + crew.shared.lost.length +
          crew.tasks.countP PoolAgent.unsimulated + crew.shared.metrics.completedTotal ∧
      crew.shared.metrics.completedTotal = crew.shared.outcomes.length ∧
      crew.shared.metrics.Partitioned ∧ crew.shared.Totals := by
  have invariant := run_poolInvariant run
  obtain ⟨-, -, taken⟩ := run_ledger run
  have lengths := congrArg List.length invariant.order
  rw [List.length_append, List.length_map, SimulationPool.length_departed] at lengths
  have completed := invariant.outcomes short
  exact ⟨by omega, completed, invariant.partitioned short, invariant.totals⟩

end Laws

/-- A task without candidates. -/
def bareTask : SimulationTask where
  chain := sampleChain
  request := { txHash := 1, memberTxHashes := [1], txs := [], detectedUnixMs := 0 }
  candidates := []
  enqueuedUnixMs := 0

/-- The team after some turns, from the start. -/
def poolAfter (service : LiveRpcSimulationService)
    (turns : List (TeamTurn (Option SimulationTask) PoolEvent)) : Team SimulationPool PoolAgent :=
  (turns.foldlM (Team.next enterPool (poolStep service)) { shared := .start service }).getD
    { shared := .start service }

/-- A worker takes a task and counts it out before the call that queued it counts it in. -/
def countedOutFirst : List (TeamTurn (Option SimulationTask) PoolEvent) :=
  [.join none, .act 0 .next, .join (some bareTask), .act 1 .next, .act 1 .next, .act 0 .next,
    .act 0 .next, .act 1 .next, .act 1 .next, .act 0 (.simulate .timedOut 9), .act 0 .next]

theorem run_countedOutFirst :
    Run (PoolTakes ⟨4, 1⟩) { shared := .start ⟨4, 1⟩ } countedOutFirst
      (poolAfter ⟨4, 1⟩ countedOutFirst) :=
  Run.of_foldlM (by decide +kernel)

/-- The gauge shows a task where the queue is empty. -/
theorem countedOutFirst_depth :
    (poolAfter ⟨4, 1⟩ countedOutFirst).shared.metrics.queueDepth = 1 ∧
      (poolAfter ⟨4, 1⟩ countedOutFirst).shared.queue = [] := by
  obtain ⟨-, -, -, -, -, -, -, depth⟩ := run_simulationPool run_countedOutFirst (by decide)
  have empty : (poolAfter ⟨4, 1⟩ countedOutFirst).shared.queue = [] := by decide +kernel
  have owed : (poolAfter ⟨4, 1⟩ countedOutFirst).tasks.countP PoolAgent.owesEnqueue = 0 ∧
      (poolAfter ⟨4, 1⟩ countedOutFirst).tasks.countP PoolAgent.owesDequeue = 0 ∧
      (poolAfter ⟨4, 1⟩ countedOutFirst).shared.lost = [] ∧
      Gauge.deficit (poolAfter ⟨4, 1⟩ countedOutFirst).shared.depthMoves = 1 := by decide +kernel
  rw [owed.1, owed.2.1, owed.2.2.1, owed.2.2.2, empty] at depth
  exact ⟨depth, empty⟩

/-- Two tasks are queued, and the only worker dies at the first; a third call opens a channel. -/
def diedAtWork : List (TeamTurn (Option SimulationTask) PoolEvent) :=
  [.join none, .act 0 .next, .join (some bareTask), .act 1 .next, .act 1 .next,
    .join (some bareTask), .act 2 .next, .act 2 .next, .act 0 .next, .act 0 .next, .act 0 .die,
    .join (some bareTask), .act 3 .next, .act 3 .next, .act 3 .next]

theorem run_diedAtWork :
    Run (PoolTakes ⟨4, 1⟩) { shared := .start ⟨4, 1⟩ } diedAtWork (poolAfter ⟨4, 1⟩ diedAtWork) :=
  Run.of_foldlM (by decide +kernel)

/-- The second task is lost, and the first is never completed. -/
theorem diedAtWork_outcomes :
    (poolAfter ⟨4, 1⟩ diedAtWork).shared.accepted.length = 1 + 1 + 1 + 0 ∧
      (poolAfter ⟨4, 1⟩ diedAtWork).shared.metrics.Partitioned := by
  obtain ⟨accounted, -, partitioned, -⟩ := run_simulationOutcomes run_diedAtWork (by decide)
  have counts : (poolAfter ⟨4, 1⟩ diedAtWork).shared.queue.length = 1 ∧
      (poolAfter ⟨4, 1⟩ diedAtWork).shared.lost.length = 1 ∧
      (poolAfter ⟨4, 1⟩ diedAtWork).tasks.countP PoolAgent.unsimulated = 1 ∧
      (poolAfter ⟨4, 1⟩ diedAtWork).shared.metrics.completedTotal = 0 := by decide +kernel
  rw [counts.1, counts.2.1, counts.2.2.1, counts.2.2.2] at accounted
  exact ⟨accounted, partitioned⟩

end Mempulse.LiveRpc
