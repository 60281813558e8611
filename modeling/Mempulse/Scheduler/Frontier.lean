import Mempulse.Scheduler.Invariant

/-!
# The executable frontier

The entries of a queue stand at ascending nonces, so the ready ones are the leading run of
consecutive nonces, and the executable frontier lists the leading runs sender by sender.
-/

set_option autoImplicit false

namespace Mempulse.Scheduler

open Std Library

/-- Nonces are numbered by their value. -/
theorem nonceNumbering : Numbering checkedSucc UInt64.toNat where
  successor := checkedSucc_eq_some_iff
  onward := by
    intro nonce later below none
    have bound := later.toNat_lt
    have fits : nonce.toNat + 1 < 2 ^ 64 := by omega
    rw [checkedSucc, if_pos fits] at none
    cases none

theorem ascending_toList (queue : SenderQueue) : Ascending UInt64.toNat queue.toList := by
  refine ExtTreeMap.ordered_keys_toList.imp fun less => ?_
  exact UInt64.lt_iff_toNat_lt.mp (compareOfLessAndEq_eq_lt.mp less)

/-- The entries of a queue before its first gap. -/
def readyEntries (queue : SenderQueue) : List (UInt64 × TxHash) :=
  leadingRun checkedSucc queue.toList

theorem map_hash_ready_queuePositions (queue : SenderQueue) :
    ((queuePositions queue).filter (·.state = .ready)).map (·.hash) =
      (readyEntries queue).map Prod.snd := by
  rw [readyEntries, ← GapCursor.scan_ready nonceNumbering (ascending_toList queue), queuePositions,
    List.filter_map, List.map_map, List.map_map]
  rfl

/-- **The executable frontier lists the leading run of every queue.** -/
theorem Seating.executableFrontierHashes_eq {state : SchedulerState} (seating : Seating state) :
    state.executableFrontierHashes =
      state.senderQueues.toList.flatMap fun entry => (readyEntries entry.2).map Prod.snd := by
  rw [SchedulerState.executableFrontierHashes, List.flatMap_map]
  refine List.flatMap_congr fun entry member => ?_
  rw [seating.walkQueue_eq (mem_toList.mp member), map_hash_ready_queuePositions]

end Mempulse.Scheduler
