import Mempulse.LiveRpc.SimulationIds
import Mempulse.Replay.CandidateLifecycle

/-!
# The statuses of candidates

A result is logged for a task, and names the transaction of the task. The lifecycle model gives it to
every candidate of the transaction, also to those that are simulated in a task of their own: the
candidates of one transaction end with the status of whichever result was logged last.
-/

set_option autoImplicit false

namespace Mempulse.LiveRpc

open Std EventLog Library Scheduler Storage Searcher Builder Replay

/-- The status of a simulation of a task that has the candidate. -/
def LogEntry.ownStatus (candidateId : CandidateId) (entry : LogEntry) : Option String :=
  match entry.origin, entry.payload with
  | some (task, _), .simCompleted completed =>
    if candidateId ∈ task.candidates.map (·.spec.candidateId) then some completed.status else none
  | _, _ => none

/-- What an entry should say after a log. -/
structure Attributed (log : List LogEntry) (candidateId : CandidateId)
    (entry : CandidateLifecycleEntry) : Prop where
  simulationStatus : entry.simulationStatus = lastReading (LogEntry.ownStatus candidateId) log
  txHash : ∀ hash, Named (log.map (·.payload)) candidateId hash → entry.txHash = hash
  assembly : entry.assembly =
    assemblyFields (lastReading (decisionAbout candidateId) (log.map (·.payload)))

namespace LiveSystem

/-- The lifecycle model after the events that the storage writer appends. -/
def lifecycles (system : LiveSystem) : CandidateLifecycleState :=
  .replay ((drain {} system.live.storageQueue).map (·.payload))

/-- **Candidate lifecycle attribution.** -/
def CandidatesAttributed (system : LiveSystem) : Prop :=
  ∀ candidateId hash, Named (system.log.map (·.payload)) candidateId hash →
    ∃ entry, system.lifecycles.candidates[candidateId]? = some entry ∧
      Attributed system.log candidateId entry

/-- For every candidate that is named: the last result of its transaction is one of a task that has
the candidate, or has the status of the last such result before. -/
def ResultsAgree (system : LiveSystem) : Prop :=
  ∀ candidateId hash, Named (system.log.map (·.payload)) candidateId hash →
    ReadingsAgree (fun entry => namesCandidate candidateId entry.payload)
      (fun entry => completedStatus hash entry.payload) (LogEntry.ownStatus candidateId) system.log

variable {system : LiveSystem}

/-- An event that names a candidate has the transaction that the id spells. -/
theorem Sound.spells (sound : system.Sound) {candidateId : CandidateId} {hash : TxHash}
    (named : Named (system.log.map (·.payload)) candidateId hash) : Spells candidateId hash := by
  obtain ⟨payload, listed, names⟩ := named
  obtain ⟨entry, member, rfl⟩ := List.mem_map.mp listed
  obtain ⟨earlier, later, whole⟩ := List.append_of_mem member
  have sourced := sound.chronicled.entries earlier entry later whole
  unfold LogEntry.Sourced at sourced
  cases shape : entry.payload with
  | candidateQueued event | simDispatched event =>
      rw [shape] at names sourced
      cases names
      split at sourced
      · exact sourced
      · exact sourced.2.1.elim
  | assemblyDecisionApplied applied =>
      rw [shape] at names sourced
      cases names
      split at sourced
      · exact sourced.elim
      · obtain ⟨-, ⟨same, spells⟩, -⟩ := sourced
        rw [same]
        exact spells
  | _ =>
      rw [shape] at names
      cases names

theorem Sound.oneTransaction (sound : system.Sound) :
    OneTransaction (system.log.map (·.payload)) := fun _ _ _ left right =>
  (sound.spells left).unique (sound.spells right)

/-- A result of a task of a candidate: the log has it after the candidate was queued, and it is one of
the candidate's transaction. -/
theorem Sound.ownStatus (sound : system.Sound) {earlier later : List LogEntry} {entry : LogEntry}
    (whole : system.log = earlier ++ entry :: later) {candidateId : CandidateId} {status : String}
    (own : entry.ownStatus candidateId = some status) :
    ∃ hash, completedStatus hash entry.payload = some status ∧ Spells candidateId hash ∧
      ∃ first ∈ earlier, namesCandidate candidateId first.payload = true := by
  have sourced := sound.chronicled.entries earlier entry later whole
  unfold LogEntry.ownStatus at own
  split at own
  case h_1 task subject completed origin result =>
    split at own
    case isTrue listed =>
      cases own
      unfold LogEntry.Sourced at sourced
      rw [origin, result] at sourced
      obtain ⟨taken, ⟨hash, -⟩, queued⟩ := sourced
      obtain ⟨candidate, member, rfl⟩ := List.mem_map.mp listed
      obtain ⟨carries, -⟩ := sound.chronicled.tasks task taken candidate member
      refine ⟨task.request.txHash, ?_, carries.spells, ?_⟩
      · rw [result]
        exact if_pos hash
      · obtain ⟨first, inEarlier, queues⟩ := List.mem_filterMap.mp (queued candidate member)
        refine ⟨first, inEarlier, namesCandidate_eq_true_iff.mpr ?_⟩
        cases shape : first.payload with
        | candidateQueued event =>
            rw [shape] at queues
            exact ⟨event.txHash, congrArg (fun id => some (id, event.txHash))
              (Option.some.inj queues)⟩
        | _ =>
            rw [shape] at queues
            cases queues
    case isFalse => cases own
  case h_2 => cases own

/-- The status of one candidate. -/
theorem Sound.attributed_iff (sound : system.Sound) {candidateId : CandidateId} {hash : TxHash}
    (named : Named (system.log.map (·.payload)) candidateId hash) :
    (∃ entry, system.lifecycles.candidates[candidateId]? = some entry ∧
      Attributed system.log candidateId entry) ↔
        ReadingsAgree (fun entry => namesCandidate candidateId entry.payload)
          (fun entry => completedStatus hash entry.payload) (LogEntry.ownStatus candidateId)
            system.log := by
  have accounts : CandidateLifecycleState.Accounts (system.log.map (·.payload))
      system.lifecycles := by
    have replayed := CandidateLifecycleState.accounts_replay sound.oneTransaction
    rw [← sound.logged] at replayed ⊢
    exact replayed
  obtain ⟨known, found, accumulated⟩ := accounts.entries candidateId hash named
  rw [← lastReadingSince_eq_iff]
  · have status := accumulated.simulationStatus
    rw [lastReadingSince_map] at status
    constructor
    · rintro ⟨entry, same, attributed⟩
      cases found.symm.trans same
      exact status.symm.trans attributed.simulationStatus
    · intro agree
      exact ⟨known, found, status.trans agree, fun other also => accumulated.txHash.trans
        (sound.oneTransaction _ _ _ named also), accumulated.assembly⟩
  · intro entry member names
    obtain ⟨other, names⟩ := namesCandidate_eq_true_iff.mp names
    exact completedStatus_of_named names
  · intro entry member status own
    obtain ⟨earlier, later, whole⟩ := List.append_of_mem member
    obtain ⟨other, completed, spells, -⟩ := sound.ownStatus whole own
    rw [← spells.unique (sound.spells named)]
    exact completed
  · intro earlier entry later whole own
    obtain ⟨status, own⟩ := Option.isSome_iff_exists.mp own
    obtain ⟨-, -, -, first⟩ := sound.ownStatus whole own
    exact first

/-- **When statuses are attributed to the right candidates.** In every run of the chain workers and
the simulation workers, the lifecycle model has for every candidate its own status, transaction and
decision exactly when no last result of a transaction comes from a task without one of its candidates
and differs from the last result of that candidate's own tasks. -/
theorem candidatesAttributed_iff (config : SchedulerConfig) (nextSeqId : UInt64)
    (assembly : AssemblyConfig) (jobs : List (List Arrival)) (turns : List LiveTurn) :
    ((start nextSeqId assembly jobs).run config turns).CandidatesAttributed ↔
      ((start nextSeqId assembly jobs).run config turns).ResultsAgree := by
  have sound : ((start nextSeqId assembly jobs).run config turns).Sound :=
    (Sound.start nextSeqId assembly jobs).run turns
  exact forall_congr' fun candidateId => forall_congr' fun hash => forall_congr' fun named =>
    sound.attributed_iff named

end LiveSystem

/-- The bundle of the last step is simulated, and the first transaction of it alone is not yet. -/
def simulatedBundle : LiveSystem :=
  (LiveSystem.start 1 { blockGasLimit := 30000000 }
    [[swapArrival 10 7 1, swapArrival 11 9 2, swapArrival 12 8 3]]).run {}
      (List.replicate 80 (.worker 0 none) ++
        .take 2 .timedOut 5 10 :: List.replicate 4 (.simulation 0 none))

/-- The candidate of the swap alone. -/
def lonelySwap : CandidateId := "ArbCandidate:" ++ formatFixedHex (12 : TxHash)

/-- The swap alone is queued with its transaction, no simulation of it has ended, and its status is
that of the bundle. -/
theorem simulatedBundle_statuses :
    (∃ payload ∈ simulatedBundle.log.map (·.payload),
        namedCandidate payload = some (lonelySwap, 12)) ∧
      lastReading (LogEntry.ownStatus lonelySwap) simulatedBundle.log = none ∧
      (simulatedBundle.lifecycles.candidates[lonelySwap]?).map (·.simulationStatus) =
        some (some "timeout") := by
  decide +kernel

/-- A candidate that was never simulated has the status of the bundle of its transaction. -/
theorem simulatedBundle_not_candidatesAttributed :
    lastReading (LogEntry.ownStatus lonelySwap) simulatedBundle.log = none ∧
      (simulatedBundle.lifecycles.candidates[lonelySwap]?).map (·.simulationStatus) =
        some (some "timeout") ∧
      ¬ simulatedBundle.CandidatesAttributed := by
  obtain ⟨named, own, status⟩ := simulatedBundle_statuses
  refine ⟨own, status, fun attributed => ?_⟩
  obtain ⟨entry, found, about⟩ := attributed lonelySwap 12 named
  rw [found, Option.map_some, about.simulationStatus, own] at status
  cases status

end Mempulse.LiveRpc
