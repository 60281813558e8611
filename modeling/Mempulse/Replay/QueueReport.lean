import Mempulse.Replay.FrameOrder
import Mempulse.Replay.Slots

/-!
# What a frame shows of the replay model

A frame shows which hashes are pending, which of them are queued in which slot, and a queue state
for each queued hash: the one that is kept for it, or else the verdict of a scan of its queue. Two
states give the same frame exactly when they agree on these three things.
-/

set_option autoImplicit false

namespace Mempulse.Replay

open Std EventLog Library Scheduler

namespace MempoolState

/-! ## Live queues -/

/-- The queue of a sender without the entries that name no pending transaction. -/
def liveQueue (state : MempoolState) (sender : Address) : List (UInt64 × TxHash) :=
  match state.senderQueues[sender]? with
  | some queue => liveEntries state.txs queue
  | none => []

/-- The verdicts of a scan of a sender's live queue. -/
def verdicts (state : MempoolState) (sender : Address) :
    List ((UInt64 × TxHash) × ReplayQueueState) :=
  GapCursor.scan checkedSucc {} (state.liveQueue sender)

/-- The queue of a sender as a frame shows it. -/
def shownQueue (state : MempoolState) (sender : Address) : List ReplaySenderQueueEntry :=
  (state.verdicts sender).map fun visited =>
    { hash := visited.1.2
      nonce := visited.1.1
      state := (state.queueState visited.1.2).getD visited.2 }

section LiveQueue

variable {state other : MempoolState} {sender : Address} {nonce : UInt64} {hash : TxHash}

theorem mem_liveQueue :
    (nonce, hash) ∈ state.liveQueue sender ↔
      state.slot sender nonce = some hash ∧ state.lifecycle hash = some .pending := by
  rw [liveQueue, slot, SchedulerState.slotOf]
  cases state.senderQueues[sender]? with
  | none => simp
  | some queue =>
      dsimp only [Option.bind_some]
      rw [liveEntries, List.mem_filter, mem_toList, isPending_iff]

theorem Named.mem_liveQueue (named : Named state) :
    (nonce, hash) ∈ state.liveQueue sender ↔ state.slot sender nonce = some hash := by
  rw [MempoolState.mem_liveQueue, and_iff_left_of_imp named.lifecycle]

theorem increasing_liveQueue (state : MempoolState) (sender : Address) :
    (state.liveQueue sender).Pairwise fun earlier later => compare earlier.1 later.1 = .lt := by
  rw [liveQueue]
  cases state.senderQueues[sender]? with
  | none => exact List.Pairwise.nil
  | some queue => exact ExtTreeMap.ordered_keys_toList.filter _

/-- Live queues are equal when they have the same entries. -/
theorem liveQueue_eq_iff {first second : Address} :
    state.liveQueue first = other.liveQueue second ↔
      ∀ nonce hash, (nonce, hash) ∈ state.liveQueue first ↔ (nonce, hash) ∈ other.liveQueue second :=
  ⟨fun same nonce hash => by rw [same], fun same =>
    eq_of_increasing_keys (increasing_liveQueue state first) (increasing_liveQueue other second)
      fun entry => same entry.1 entry.2⟩

@[simp] theorem map_fst_verdicts (state : MempoolState) (sender : Address) :
    (state.verdicts sender).map Prod.fst = state.liveQueue sender :=
  GapCursor.map_fst_scan _ _ _

theorem mem_liveQueue_of_mem_verdicts {visited : (UInt64 × TxHash) × ReplayQueueState}
    (member : visited ∈ state.verdicts sender) : visited.1 ∈ state.liveQueue sender :=
  map_fst_verdicts state sender ▸ List.mem_map_of_mem member

theorem exists_verdict (listed : (nonce, hash) ∈ state.liveQueue sender) :
    ∃ verdict, ((nonce, hash), verdict) ∈ state.verdicts sender := by
  rw [← map_fst_verdicts] at listed
  obtain ⟨⟨entry, verdict⟩, visited, rfl⟩ := List.mem_map.mp listed
  exact ⟨verdict, visited⟩

/-- Shown queues are equal exactly when the live queues are and each entry is shown alike. -/
theorem shownQueue_eq_iff :
    state.shownQueue sender = other.shownQueue sender ↔
      state.liveQueue sender = other.liveQueue sender ∧
        ∀ visited ∈ state.verdicts sender, (state.queueState visited.1.2).getD visited.2 =
          (other.queueState visited.1.2).getD visited.2 := by
  have entries : ∀ shown : MempoolState,
      (shown.shownQueue sender).map (fun entry => (entry.nonce, entry.hash)) =
        shown.liveQueue sender := by
    intro shown
    rw [shownQueue, List.map_map, ← map_fst_verdicts]
    rfl
  constructor
  · intro same
    have live : state.liveQueue sender = other.liveQueue sender := by
      rw [← entries, ← entries, same]
    refine ⟨live, ?_⟩
    have verdicts : other.verdicts sender = state.verdicts sender := by
      rw [MempoolState.verdicts, MempoolState.verdicts, live]
    rw [shownQueue, shownQueue, verdicts, List.map_inj_left] at same
    intro visited member
    exact congrArg ReplaySenderQueueEntry.state (same visited member)
  · rintro ⟨live, alike⟩
    have verdicts : other.verdicts sender = state.verdicts sender := by
      rw [MempoolState.verdicts, MempoolState.verdicts, live]
    rw [shownQueue, shownQueue, verdicts, List.map_inj_left]
    intro visited member
    rw [alike visited member]

end LiveQueue

/-! ## The report -/

section Report

variable {state other : MempoolState}

theorem mem_senderQueuesReport {queue : ReplaySenderQueue} :
    queue ∈ state.senderQueuesReport ↔
      queue.queued = state.shownQueue queue.sender ∧ queue.queued ≠ [] := by
  rw [senderQueuesReport, List.mem_filterMap]
  simp only [Prod.exists, mem_toList, shownQueue, verdicts, liveQueue]
  constructor
  · rintro ⟨sender, stored, queued, made⟩
    split at made
    case isTrue => cases made
    case isFalse nonempty =>
      cases made
      rw [queued]
      refine ⟨rfl, fun empty => nonempty ?_⟩
      exact List.isEmpty_iff.mpr empty
  · rintro ⟨shown, nonempty⟩
    cases queued : state.senderQueues[queue.sender]? with
    | none =>
        rw [queued] at shown
        exact absurd shown nonempty
    | some stored =>
        rw [queued] at shown
        refine ⟨queue.sender, stored, queued, ?_⟩
        have visible := List.isEmpty_eq_false_iff.mpr nonempty
        rw [shown] at visible
        rw [if_neg]
        · exact congrArg some (congrArg (ReplaySenderQueue.mk queue.sender) shown.symm)
        · exact fun empty => Bool.false_ne_true (visible.symm.trans empty)

theorem increasing_senderQueuesReport (state : MempoolState) :
    state.senderQueuesReport.Pairwise fun earlier later =>
      compare earlier.sender later.sender = .lt := by
  rw [senderQueuesReport]
  refine List.Pairwise.filterMap _ ?_ ExtTreeMap.ordered_keys_toList
  rintro ⟨sender, queue⟩ ⟨otherSender, otherQueue⟩ below shown made otherShown otherMade
  dsimp only at made otherMade
  split at made
  case isTrue => cases made
  case isFalse =>
    split at otherMade
    case isTrue => cases otherMade
    case isFalse =>
      cases made
      cases otherMade
      exact below

/-- Reports are equal exactly when every sender's queue is shown alike. -/
theorem senderQueuesReport_eq_iff :
    state.senderQueuesReport = other.senderQueuesReport ↔
      ∀ sender, state.shownQueue sender = other.shownQueue sender := by
  constructor
  · intro same sender
    have shows : ∀ {first second : MempoolState},
        first.senderQueuesReport = second.senderQueuesReport → first.shownQueue sender ≠ [] →
          first.shownQueue sender = second.shownQueue sender := by
      intro first second same nonempty
      have listed : (⟨sender, first.shownQueue sender⟩ : ReplaySenderQueue) ∈
          second.senderQueuesReport := same ▸ mem_senderQueuesReport.mpr ⟨rfl, nonempty⟩
      exact (mem_senderQueuesReport.mp listed).1
    by_cases empty : state.shownQueue sender = []
    · by_cases alsoEmpty : other.shownQueue sender = []
      · rw [empty, alsoEmpty]
      · exact (shows same.symm alsoEmpty).symm
    · exact shows same empty
  · intro same
    refine eq_of_increasing_keys (increasing_senderQueuesReport state)
      (increasing_senderQueuesReport other) fun queue => ?_
    rw [mem_senderQueuesReport, mem_senderQueuesReport, same]

theorem nodup_pendingHashes (state : MempoolState) : state.pendingHashes.Nodup :=
  ((toList_pairwise_ne state.txs).filter _).map _ fun _ _ differ => differ

theorem mem_sortedPending {hash : TxHash} :
    hash ∈ state.sortedPending ↔ state.lifecycle hash = some .pending := by
  rw [sortedPending, sortHashes, (stableSort_perm compare _).mem_iff, mem_pendingHashes]

theorem sortedPending_eq_iff :
    state.sortedPending = other.sortedPending ↔
      ∀ hash, state.lifecycle hash = some .pending ↔ other.lifecycle hash = some .pending := by
  constructor
  · intro same hash
    rw [← mem_sortedPending, same, mem_sortedPending]
  · intro same
    refine sortHashes_eq_of_perm ?_
    rw [List.perm_ext_iff_of_nodup (nodup_pendingHashes state) (nodup_pendingHashes other)]
    intro hash
    rw [mem_pendingHashes, mem_pendingHashes, same]

end Report

/-- Two states show the same in a frame. -/
structure Alike (state other : MempoolState) : Prop where
  pending : ∀ hash, state.lifecycle hash = some .pending ↔ other.lifecycle hash = some .pending
  live : ∀ sender, state.liveQueue sender = other.liveQueue sender
  shown : ∀ sender, ∀ visited ∈ state.verdicts sender,
    (state.queueState visited.1.2).getD visited.2 = (other.queueState visited.1.2).getD visited.2

/-- **States give the same frame exactly when they are alike.** -/
theorem frameOf_eq_iff {state other : MempoolState} (event : EventEnvelope) :
    frameOf (event, state) = frameOf (event, other) ↔ Alike state other := by
  rw [frameOf, frameOf, ReplayFrame.mk.injEq]
  simp only [true_and, sortedPending_eq_iff, senderQueuesReport_eq_iff, shownQueue_eq_iff]
  exact ⟨fun same => ⟨same.1, fun sender => (same.2 sender).1, fun sender => (same.2 sender).2⟩,
    fun alike => ⟨alike.pending, fun sender => ⟨alike.live sender, alike.shown sender⟩⟩⟩

end MempoolState

end Mempulse.Replay
