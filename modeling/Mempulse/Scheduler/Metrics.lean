import Mempulse.Scheduler.Actor

/-!
# What the scheduler's metrics say

The actor counts its decisions under the lock, and the handles count refused calls and raise the
peak depth on their own, one atomic step after another. In every interleaving the counters account
for every call: an admission that was asked for is in one of the four decision counters, was
refused, or still waits (`run_accounts`).
-/

set_option autoImplicit false

namespace Mempulse.Scheduler

open Std Library

namespace SchedulerActor

/-! ## The metrics -/

/-- Live scheduler metrics including ingress queue depth. -/
structure SchedulerMetrics where
  admittedTotal : Nat
  duplicateTotal : Nat
  replacementTotal : Nat
  underpricedReplacementTotal : Nat
  senderLimitDropTotal : Nat
  queueFullDropTotal : Nat
  pendingTotal : Nat
  readyTotal : Nat
  blockedTotal : Nat
  senderTotal : Nat
  staleSimulationDropTotal : Nat
  queueDepth : Nat
  queueDepthPeak : Nat
  handoffQueueCapacity : Nat
  deriving DecidableEq

/-- `SchedulerHandle::metrics`. -/
def metrics (config : SchedulerConfig) (actor : SchedulerActor) : SchedulerMetrics where
  admittedTotal := actor.ingress.state.admittedTotal
  duplicateTotal := actor.ingress.state.duplicateTotal
  replacementTotal := actor.ingress.state.replacementTotal
  underpricedReplacementTotal := actor.ingress.state.underpricedReplacementTotal
  senderLimitDropTotal := actor.ingress.state.senderLimitDropTotal
  queueFullDropTotal := actor.queueFullDropTotal
  pendingTotal := actor.ingress.state.pending.size
  readyTotal := actor.ingress.state.readyTotal
  blockedTotal := actor.ingress.state.blockedTotal
  senderTotal := actor.ingress.state.senderQueues.size
  staleSimulationDropTotal := actor.ingress.state.staleSimulationDropTotal
  queueDepth := actor.queueDepth config
  queueDepthPeak := actor.queueDepthPeak
  handoffQueueCapacity := config.handoffQueueCapacity

end SchedulerActor

/-! ## Decisions -/

/-- Whether a command is an admission. -/
def SchedulerCommand.isAdmit : SchedulerCommand → Bool
  | .admitTx _ => true
  | _ => false

/-- The admissions decided so far: the four counters an admission can raise. -/
def SchedulerState.decisions (state : SchedulerState) : Nat :=
  state.admittedTotal + state.duplicateTotal + state.underpricedReplacementTotal +
    state.senderLimitDropTotal

section Decisions

variable {config : SchedulerConfig} {state : SchedulerState}

theorem decisions_seat (pending : ExtTreeMap TxHash ValidatedTransaction)
    (tx : ValidatedTransaction) (room : state.decisions < u64Max) :
    (state.seat pending tx).decisions = state.decisions + 1 := by
  change saturatingAdd u64Max state.admittedTotal 1 + state.duplicateTotal +
    state.underpricedReplacementTotal + state.senderLimitDropTotal = state.decisions + 1
  unfold SchedulerState.decisions saturatingAdd at *
  omega

/-- An admission raises exactly one of the four counters. -/
theorem decisions_admitTx (tx : ValidatedTransaction) (room : state.decisions < u64Max) :
    (state.admitTx tx config).2.decisions = state.decisions + 1 := by
  refine SchedulerState.admit_cases (motive := fun outcome =>
    outcome.2.decisions = state.decisions + 1) ?duplicate ?dangling ?replaced ?underpriced ?limited
    ?admitted
  case duplicate =>
    intro _
    unfold SchedulerState.decisions saturatingAdd at *
    dsimp only
    omega
  case dangling => exact fun _ _ _ _ => decisions_seat state.pending tx room
  case replaced =>
    rintro hash incumbent - - - - next rfl
    exact decisions_seat _ tx room
  case underpriced =>
    intro _ _ _ _ _ _
    unfold SchedulerState.decisions saturatingAdd at *
    dsimp only
    omega
  case limited =>
    intro _ _ _
    unfold SchedulerState.decisions saturatingAdd at *
    dsimp only
    omega
  case admitted => exact fun _ _ _ => decisions_seat state.pending tx room

theorem decisions_execute (command : SchedulerCommand) (room : state.decisions < u64Max) :
    (state.execute config command).2.decisions = state.decisions + command.isAdmit.toNat := by
  by_cases admission : ∃ tx, command = .admitTx tx
  · obtain ⟨tx, rfl⟩ := admission
    exact decisions_admitTx tx room
  · obtain ⟨candidates, head, stale, same⟩ :=
      state.sameAdmission_execute config fun tx is => admission ⟨tx, is⟩
    have silent : command.isAdmit = false := by
      cases command with
      | admitTx tx => exact absurd ⟨tx, rfl⟩ admission
      | _ => rfl
    rw [same, silent]
    rfl

/-- The counters of a run add up to its admissions. -/
theorem decisions_run (commands : List SchedulerCommand)
    (room : state.decisions + commands.length ≤ u64Max) :
    (state.run config commands).decisions =
      state.decisions + commands.countP SchedulerCommand.isAdmit := by
  induction commands generalizing state with
  | nil => rfl
  | cons command rest ih =>
      rw [List.length_cons] at room
      have head : (state.execute config command).2.decisions = state.decisions + command.isAdmit.toNat :=
        decisions_execute command (by omega)
      have within : command.isAdmit.toNat ≤ 1 := Bool.toNat_le _
      have later := ih (show (state.execute config command).2.decisions + rest.length ≤ u64Max by omega)
      rw [head] at later
      rw [List.countP_cons]
      refine later.trans ?_
      cases command.isAdmit with
      | true => exact Nat.add_right_comm _ _ _
      | false => rfl

end Decisions

/-! ## Refusals and the peak -/

namespace SchedulerActor

/-- How many of the calls were counted as refused. -/
def countedRefusals (calls : List HandleCall) : Nat :=
  calls.countP fun call => call.outcome = .full ∧ call.stage ≠ .refused

/-- What the shared counters say of the calls, after so many steps. -/
structure Counted (config : SchedulerConfig) (steps : Nat) (actor : SchedulerActor) : Prop where
  refusals : steps ≤ u64Max → actor.queueFullDropTotal = countedRefusals actor.calls
  fewer : countedRefusals actor.calls + actor.ingress.served.length ≤ steps
  peak : actor.queueDepthPeak ≤ config.handoffQueueCapacity
  measured : ∀ call ∈ actor.calls, ∀ currentDepth, call.stage = .measured currentDepth →
    currentDepth ≤ config.handoffQueueCapacity
  raised : ∀ call ∈ actor.calls, call.stage = .returned (.error .queueFull) →
    actor.queueDepthPeak = config.handoffQueueCapacity

section Counting

variable {config : SchedulerConfig} {initial : SchedulerState} {actor after : SchedulerActor}
  {steps number : Nat} {current : HandleCall}

theorem Counted.start (config : SchedulerConfig) (initial : SchedulerState) :
    Counted config 0 (.start initial) where
  refusals _ := rfl
  fewer := le_rfl
  peak := Nat.zero_le _
  measured _ held := nomatch held
  raised _ held := nomatch held

theorem countedRefusals_setStage (held : actor.calls[number]? = some current) {stage : CallStage}
    (before : current.stage ≠ .refused) (now : stage ≠ .refused) :
    countedRefusals (actor.calls.set number { current with stage := stage }) =
      countedRefusals actor.calls := by
  have same := map_setStage held stage
    (fun call => decide (call.outcome = .full ∧ call.stage ≠ .refused)) (by simp [before, now])
  have counts := congrArg (List.countP id) same
  rwa [List.countP_map, List.countP_map] at counts

theorem countedRefusals_count (held : actor.calls[number]? = some current)
    (full : current.outcome = .full) (before : current.stage = .refused) :
    countedRefusals (actor.calls.set number { current with stage := .counted }) =
      countedRefusals actor.calls + 1 := by
  obtain ⟨within, value⟩ := List.getElem?_eq_some_iff.mp held
  rw [countedRefusals, List.countP_set within, value]
  simp [full, before, countedRefusals]

/-- The largest peak that a step of a call can leave. -/
theorem Counted.peak_advances {stage : CallStage} {dropTotal peak : Nat}
    (counted : Counted config steps actor) (member : current ∈ actor.calls)
    (advances : Advances config actor number current.awaitsReply current.stage stage dropTotal peak) :
    actor.queueDepthPeak ≤ peak ∧ peak ≤ config.handoffQueueCapacity ∧
      (∀ currentDepth, stage = .measured currentDepth → currentDepth ≤ config.handoffQueueCapacity) ∧
      (stage = .returned (.error .queueFull) → peak = config.handoffQueueCapacity) := by
  have bound := counted.peak
  generalize reached : current.stage = before at advances
  cases advances with
  | measured =>
      refine ⟨le_rfl, bound, ?_, nofun⟩
      rintro _ ⟨⟩
      exact Nat.sub_le _ _
  | recorded currentDepth =>
      refine ⟨le_max_left _ _, max_le bound (counted.measured current member _ reached), ?_, ?_⟩
      · cases current.awaitsReply <;> exact nofun
      · cases current.awaitsReply <;> exact nofun
  | replied sent => exact ⟨le_rfl, bound, nofun, nofun⟩
  | dropped unanswered closed => exact ⟨le_rfl, bound, nofun, nofun⟩
  | counted => exact ⟨le_rfl, bound, nofun, nofun⟩
  | failed =>
      exact ⟨le_max_left _ _, max_le bound le_rfl, nofun, fun _ => max_eq_right bound⟩

theorem Counted.proceed (counted : Counted config steps actor)
    (consistent : Consistent config initial actor)
    (taken : actor.proceed config number = some after) : Counted config (steps + 1) after := by
  obtain ⟨call, stage, dropTotal, peak, held, advances, rfl⟩ := proceed_cases taken
  obtain ⟨higher, bound, measured, raised⟩ :=
    counted.peak_advances (List.mem_of_getElem? held) advances
  have refusals : (steps + 1 ≤ u64Max → dropTotal =
        countedRefusals (actor.calls.set number { call with stage := stage })) ∧
      countedRefusals (actor.calls.set number { call with stage := stage }) ≤
        countedRefusals actor.calls + 1 := by
    have fits := consistent.fits number call held
    have fewer := counted.fewer
    by_cases counts : call.stage = .refused
    · rw [Fits, counts] at fits
      rw [counts] at advances
      cases advances
      rw [countedRefusals_count held fits counts]
      refine ⟨fun within => ?_, le_rfl⟩
      rw [counted.refusals (by omega)]
      exact Nat.mod_eq_of_lt (by omega)
    · have silent : stage ≠ .refused ∧ dropTotal = actor.queueFullDropTotal := by
        generalize call.stage = before at advances counts
        cases advances with
        | recorded => cases call.awaitsReply <;> exact ⟨fun same => (by cases same), rfl⟩
        | counted => exact absurd rfl counts
        | _ => exact ⟨fun same => (by cases same), rfl⟩
      rw [countedRefusals_setStage held counts silent.1, silent.2]
      exact ⟨fun within => counted.refusals (by omega), Nat.le_succ _⟩
  refine ⟨refusals.1, ?_, bound, ?_, ?_⟩
  · have fewer := counted.fewer
    have more := refusals.2
    dsimp only
    omega
  · intro now member currentDepth reached
    rcases List.mem_or_eq_of_mem_set member with other | rfl
    · exact counted.measured now other currentDepth reached
    · exact measured currentDepth reached
  · intro now member reached
    rcases List.mem_or_eq_of_mem_set member with other | rfl
    · exact Nat.le_antisymm bound ((counted.raised now other reached) ▸ higher)
    · exact raised reached

theorem Counted.call (counted : Counted config steps actor) (command : SchedulerCommand)
    (awaitsReply : Bool) : Counted config (steps + 1) (actor.call config command awaitsReply) := by
  have served : (actor.call config command awaitsReply).ingress.served = actor.ingress.served := by
    by_cases accepted : actor.ingress.postOutcome config.handoffQueueCapacity = .accepted
    · rw [SchedulerActor.call, Mailbox.post_of_accepted accepted]
    · rw [SchedulerActor.call, Mailbox.post_of_not_accepted accepted]
  have refusals : countedRefusals (actor.call config command awaitsReply).calls =
      countedRefusals actor.calls := by
    rw [SchedulerActor.call, countedRefusals, List.countP_append]
    cases actor.ingress.postOutcome config.handoffQueueCapacity <;> rfl
  have fewer := counted.fewer
  refine ⟨fun within => ?_, ?_, counted.peak, ?_, ?_⟩
  · rw [refusals]
    exact counted.refusals (by omega)
  · rw [refusals, served]
    omega
  · intro now member currentDepth reached
    rcases List.mem_append.mp member with other | new
    · exact counted.measured now other currentDepth reached
    · rw [List.mem_singleton.mp new] at reached
      generalize actor.ingress.postOutcome config.handoffQueueCapacity = outcome at reached
      cases outcome <;> cases reached
  · intro now member reached
    rcases List.mem_append.mp member with other | new
    · exact counted.raised now other reached
    · rw [List.mem_singleton.mp new] at reached
      generalize actor.ingress.postOutcome config.handoffQueueCapacity = outcome at reached
      cases outcome <;> cases reached

theorem Counted.step {step : Step} (counted : Counted config steps actor)
    (consistent : Consistent config initial actor) (taken : actor.Takes config step after) :
    Counted config (steps + 1) after := by
  rcases next_cases taken with ⟨command, awaitsReply, -, rfl⟩ | ⟨number, -, advanced⟩ |
    ⟨label, ingress, notPost, moved, rfl⟩
  · exact counted.call command awaitsReply
  · exact counted.proceed consistent advanced
  · have fewer := counted.fewer
    have more := Mailbox.length_served_move moved
    refine { counted with refusals := fun within => counted.refusals (by omega), fewer := ?_ }
    dsimp only
    omega

theorem Counted.run {history : List Step} (run : Run (Takes config) (.start initial) history actor) :
    Counted config history.length actor :=
  (run.invariant (motive := fun past state =>
      Counted config past.length state ∧ Consistent config initial state)
    ⟨.start config initial, .start config initial⟩ fun _ held taken =>
      ⟨by rw [List.length_append]; exact held.1.step held.2 taken, held.2.step taken⟩).1

end Counting

/-! ## The accounts -/

/-- The commands that the actor has not executed: in hand, waiting, or dropped when it shut down. -/
def unexecuted (actor : SchedulerActor) : List SchedulerCommand :=
  (actor.ingress.inHand.toList ++ actor.ingress.waiting ++ actor.ingress.dropped).map (·.message)

theorem Consistent.countP_calls {config : SchedulerConfig} {initial : SchedulerState}
    {actor : SchedulerActor} (consistent : Consistent config initial actor)
    (kind : SchedulerCommand → Bool) :
    (actor.calls.countP fun call => kind call.command) =
      (actor.ingress.served.map (·.message)).countP kind + actor.unexecuted.countP kind +
        actor.calls.countP fun call => kind call.command ∧ call.outcome ≠ .accepted := by
  have accepted : ((actor.calls.filter fun call => call.outcome = .accepted).countP fun call =>
      kind call.command) =
      (actor.ingress.served.map (·.message)).countP kind + actor.unexecuted.countP kind := by
    have commands := congrArg (List.countP kind) (map_message_acceptedCalls actor.calls)
    rw [← consistent.accepted, consistent.sequential.order, List.append_assoc, List.append_assoc,
      List.map_append, List.countP_append, List.map_map] at commands
    rw [unexecuted, List.append_assoc]
    refine Eq.trans ?_ commands.symm
    rw [List.countP_map]
    rfl
  have refused : ((actor.calls.filter fun call => !decide (call.outcome = .accepted)).countP
      fun call => kind call.command) =
      actor.calls.countP fun call => kind call.command ∧ call.outcome ≠ .accepted := by
    rw [List.countP_filter]
    exact List.countP_congr fun call _ => by simp
  rw [List.countP_eq_countP_filter_add _ _ fun call => decide (call.outcome = .accepted), accepted,
    refused]

/-- **The metrics account for every call.** At any moment of any run with fewer than 2^64 steps. -/
theorem run_accounts {config : SchedulerConfig} {actor : SchedulerActor} {history : List Step}
    (run : Run (Takes config) (.start {}) history actor) (short : history.length ≤ u64Max) :
    let metrics := actor.metrics config
    (actor.calls.countP fun call => call.command.isAdmit) =
        metrics.admittedTotal + metrics.duplicateTotal + metrics.underpricedReplacementTotal +
          metrics.senderLimitDropTotal + actor.unexecuted.countP SchedulerCommand.isAdmit +
          (actor.calls.countP fun call => call.command.isAdmit ∧ call.outcome ≠ .accepted) ∧
      metrics.queueFullDropTotal = countedRefusals actor.calls ∧
      metrics.queueDepth ≤ metrics.handoffQueueCapacity ∧
      metrics.queueDepthPeak ≤ metrics.handoffQueueCapacity ∧
      ((∃ call ∈ actor.calls, call.stage = .returned (.error .queueFull)) →
        metrics.queueDepthPeak = metrics.handoffQueueCapacity) := by
  have consistent := Consistent.run run
  have counted := Counted.run run
  have few : (actor.ingress.served.map (·.message)).length ≤ u64Max := by
    have fewer := counted.fewer
    rw [List.length_map]
    omega
  have decided : actor.ingress.state.decisions =
      (actor.ingress.served.map (·.message)).countP SchedulerCommand.isAdmit := by
    rw [consistent.sequential.state, ← run_eq_stateAfter]
    refine (decisions_run _ ?_).trans (Nat.zero_add _)
    exact (Nat.zero_add _).le.trans few
  refine ⟨?_, counted.refusals short, Nat.sub_le _ _, counted.peak, ?_⟩
  · rw [consistent.countP_calls, ← decided]
    rfl
  · rintro ⟨call, member, returned⟩
    exact counted.raised call member returned

theorem racingCalls_accounted :
    ∃ actor, Run (Takes { handoffQueueCapacity := 1 }) (.start {}) racingCalls actor ∧
      (actor.metrics { handoffQueueCapacity := 1 }).queueFullDropTotal =
        countedRefusals actor.calls := by
  obtain ⟨actor, run⟩ := exists_run_racingCalls
  exact ⟨actor, run, (run_accounts run (by decide)).2.1⟩

end SchedulerActor

end Mempulse.Scheduler
