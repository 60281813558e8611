import Mempulse.Scheduler.State
import Mempulse.Storage.EventIndex

/-!
# The rehydration plan

After a restart the storage says where the scheduler starts from: its last snapshot and the events
above the watermark, or a rebuild from the nodes when the snapshot is too old.

The plan reads the events that are retained. It does not compare the watermark with the oldest of
them, and without a snapshot it does not look at the events at all, so a plan without a rebuild
covers the history exactly when nothing above its watermark has been lost
(`schedulerRehydrationPlan_coversHistory_iff`).
-/

set_option autoImplicit false

namespace Mempulse.Storage

open Std EventLog Scheduler Library

/-! ## The code -/

/-- Where the scheduler starts from after a restart. -/
structure SchedulerRehydrationPlan where
  snapshot : Option PersistedSchedulerSnapshot := none
  replayEvents : List EventEnvelope := []
  requiresRpcRebuild : Bool := false
  deriving DecidableEq

/-- `i64::saturating_sub`. -/
def saturatingSub (left right : Int64) : Int64 :=
  Int64.ofInt (max (-2 ^ 63) (min (left.toInt - right.toInt) (2 ^ 63 - 1)))

/-- `max_finality_gap_ms.min(i64::MAX as u64) as i64`. -/
def finalityWindow (maxFinalityGapMs : UInt64) : Int64 :=
  Int64.ofNat (min maxFinalityGapMs.toNat (2 ^ 63 - 1))

/-- The last finalized block came too long after the snapshot. -/
def finalityGapExceeded (latestFinalizedBlockUnixMs : Option Int64)
    (snapshot : PersistedSchedulerSnapshot) (maxFinalityGapMs : UInt64) : Bool :=
  latestFinalizedBlockUnixMs.any fun finalizedUnixMs =>
    finalityWindow maxFinalityGapMs < saturatingSub finalizedUnixMs snapshot.capturedAtUnixMs

/-- Builds a restart plan describing whether scheduler state can be reused or must rebuild. -/
def InMemoryStorage.schedulerRehydrationPlan (storage : InMemoryStorage)
    (maxFinalityGapMs : UInt64) : SchedulerRehydrationPlan :=
  match storage.schedulerSnapshot with
  | none => {}
  | some snapshot =>
    if finalityGapExceeded storage.latestFinalizedBlockUnixMs snapshot maxFinalityGapMs then
      { snapshot := none, replayEvents := [], requiresRpcRebuild := true }
    else
      { replayEvents := storage.scanEvents snapshot.eventSeqHi (max storage.eventIndex.length 1)
        snapshot := some snapshot
        requiresRpcRebuild := false }

/-! ## Histories -/

/-- What happens to the storage before a restart. -/
inductive StorageStep where
  | appendEvent (event : EventEnvelope)
  | writeSchedulerSnapshot (snapshot : PersistedSchedulerSnapshot)

/-- The storage after a step. -/
def InMemoryStorage.apply (storage : InMemoryStorage) : StorageStep → InMemoryStorage
  | .appendEvent event => storage.appendEvent event
  | .writeSchedulerSnapshot snapshot => storage.writeSchedulerSnapshot snapshot

/-- The storage after a history. -/
def storageAfter (config : StorageConfig) (history : List StorageStep) : InMemoryStorage :=
  history.foldl InMemoryStorage.apply (.withConfig config)

/-- The event a step appends. -/
def StorageStep.event? : StorageStep → Option EventEnvelope
  | .appendEvent event => some event
  | .writeSchedulerSnapshot _ => none

/-- The snapshot a step writes. -/
def StorageStep.snapshot? : StorageStep → Option PersistedSchedulerSnapshot
  | .appendEvent _ => none
  | .writeSchedulerSnapshot snapshot => some snapshot

/-- Every event a history appends, in the order of the appends. -/
def eventsOf (history : List StorageStep) : List EventEnvelope :=
  history.filterMap StorageStep.event?

/-- The snapshot a history leaves. -/
def lastSnapshotOf (history : List StorageStep) : Option PersistedSchedulerSnapshot :=
  (history.filterMap StorageStep.snapshot?).getLast?

/-- The time of the last finalized block, after one more event. -/
def noteFinalized (latest : Option Int64) (event : EventEnvelope) : Option Int64 :=
  match event.payload with
  | .txConfirmedFinal _ => some (max (latest.getD 0) event.ingestTsUnixMs)
  | _ => latest

/-- The latest finalization among the events. -/
def latestFinalizedOf (events : List EventEnvelope) : Option Int64 :=
  events.foldl noteFinalized none

/-! ## Coverage -/

/-- The sequence id a plan starts after. -/
def SchedulerRehydrationPlan.watermark (plan : SchedulerRehydrationPlan) : UInt64 :=
  plan.snapshot.elim 0 (·.eventSeqHi)

/-- The snapshot of a plan, or the empty scheduler, and its events cover a history. -/
structure CoversHistory (history : List StorageStep) (plan : SchedulerRehydrationPlan) : Prop where
  listed : ∀ event ∈ eventsOf history, plan.watermark < event.seqId → event ∈ plan.replayEvents
  inOrder : Ordered cmpDeterministic plan.replayEvents

/-- The number of events that have left the ring. -/
def evictedCount (config : StorageConfig) (events : List EventEnvelope) : Nat :=
  events.length - max config.eventCapacity 1

/-- Nothing that the restart needs has been lost. -/
def TailRetained (config : StorageConfig) (history : List StorageStep)
    (maxFinalityGapMs : UInt64) : Prop :=
  let events := eventsOf history
  let evicted := events.take (evictedCount config events)
  let retained := events.drop (evictedCount config events)
  match lastSnapshotOf history with
  -- The scheduler starts empty, without a replay.
  | none => ∀ event ∈ events, event.seqId = 0
  -- An evicted event above the watermark would have to be retained a second time.
  | some snapshot =>
    finalityGapExceeded (latestFinalizedOf events) snapshot maxFinalityGapMs = false →
      ∀ event ∈ evicted, snapshot.eventSeqHi < event.seqId → event ∈ retained

/-! ## The storage after a history -/

/-- What the storage holds after a history. -/
structure Recorded (config : StorageConfig) (history : List StorageStep)
    (storage : InMemoryStorage) : Prop where
  capacity : storage.config.eventCapacity = max config.eventCapacity 1
  snapshot : storage.schedulerSnapshot = lastSnapshotOf history
  finalized : storage.latestFinalizedBlockUnixMs = latestFinalizedOf (eventsOf history)
  retained : storage.events = (eventsOf history).drop (evictedCount config (eventsOf history))
  indexed : InMemoryStorage.Indexed storage.eventIndex storage.events

section Recorded

variable {config : StorageConfig} {history : List StorageStep} {storage : InMemoryStorage}

theorem appendEvent_schedulerSnapshot (storage : InMemoryStorage) (event : EventEnvelope) :
    (storage.appendEvent event).schedulerSnapshot = storage.schedulerSnapshot := by
  rcases event with ⟨seqId, ingestTsUnixMs, ingestTsMonoNs, sourceId, payload⟩
  cases payload <;> rfl

theorem appendEvent_latestFinalizedBlockUnixMs (storage : InMemoryStorage) (event : EventEnvelope) :
    (storage.appendEvent event).latestFinalizedBlockUnixMs =
      noteFinalized storage.latestFinalizedBlockUnixMs event := by
  rcases event with ⟨seqId, ingestTsUnixMs, ingestTsMonoNs, sourceId, payload⟩
  cases payload <;> rfl

theorem Recorded.start (config : StorageConfig) : Recorded config [] (.withConfig config) where
  capacity := rfl
  snapshot := rfl
  finalized := rfl
  retained := by simp [eventsOf, InMemoryStorage.withConfig]
  indexed := ⟨List.Pairwise.nil, List.Perm.refl _⟩

theorem Recorded.appendEvent (recorded : Recorded config history storage) (event : EventEnvelope) :
    Recorded config (history ++ [.appendEvent event]) (storage.appendEvent event) := by
  obtain ⟨sameConfig, kept, indexed⟩ := InMemoryStorage.appendEvent_spec recorded.indexed event
  have events : eventsOf (history ++ [.appendEvent event]) = eventsOf history ++ [event] := by
    rw [eventsOf, List.filterMap_append]
    rfl
  refine ⟨?_, ?_, ?_, ?_, indexed⟩
  · rw [sameConfig, recorded.capacity]
  · rw [appendEvent_schedulerSnapshot, recorded.snapshot, lastSnapshotOf, lastSnapshotOf,
      List.filterMap_append]
    exact congrArg List.getLast? (List.append_nil _).symm
  · rw [appendEvent_latestFinalizedBlockUnixMs, recorded.finalized, events, latestFinalizedOf,
      latestFinalizedOf, List.foldl_concat]
  · have fits : evictedCount config (eventsOf history) ≤ (eventsOf history).length := Nat.sub_le _ _
    rw [kept, recorded.capacity, recorded.retained, events,
      ← List.drop_append_of_le_length fits, List.drop_drop]
    congr 1
    simp only [evictedCount, List.length_drop, List.length_append, List.length_singleton]
    omega

theorem Recorded.writeSchedulerSnapshot (recorded : Recorded config history storage)
    (snapshot : PersistedSchedulerSnapshot) :
    Recorded config (history ++ [.writeSchedulerSnapshot snapshot])
      (storage.writeSchedulerSnapshot snapshot) := by
  have events : eventsOf (history ++ [.writeSchedulerSnapshot snapshot]) = eventsOf history := by
    rw [eventsOf, List.filterMap_append]
    exact List.append_nil _
  refine ⟨recorded.capacity, ?_, ?_, ?_, recorded.indexed⟩
  · rw [lastSnapshotOf, List.filterMap_append]
    exact List.getLast?_concat.symm
  · rw [events]
    exact recorded.finalized
  · rw [events]
    exact recorded.retained

theorem recorded_storageAfter (config : StorageConfig) (history : List StorageStep) :
    Recorded config history (storageAfter config history) := by
  induction history using List.reverseRecOn with
  | nil => exact .start config
  | append_singleton history label ih =>
      rw [storageAfter, List.foldl_concat]
      cases label with
      | appendEvent event => exact ih.appendEvent event
      | writeSchedulerSnapshot snapshot => exact ih.writeSchedulerSnapshot snapshot

/-- What a plan replays after a history. -/
theorem Recorded.mem_scanEvents (recorded : Recorded config history storage) (hi : UInt64)
    (event : EventEnvelope) :
    event ∈ storage.scanEvents hi (max storage.eventIndex.length 1) ↔
      event ∈ (eventsOf history).drop (evictedCount config (eventsOf history)) ∧
        hi < event.seqId := by
  have whole : (storage.eventIndex.filter fun event => hi < event.seqId).length ≤
      max (max storage.eventIndex.length 1) 1 :=
    (List.length_filter_le _ _).trans (by omega)
  rw [InMemoryStorage.scanEvents_of_ordered recorded.indexed.ordered, List.take_of_length_le whole,
    List.mem_filter, decide_eq_true_eq, recorded.indexed.perm.mem_iff, recorded.retained]

theorem Recorded.scanEvents_ordered (recorded : Recorded config history storage) (hi : UInt64)
    (limit : Nat) : Ordered cmpDeterministic (storage.scanEvents hi limit) := by
  rw [InMemoryStorage.scanEvents_of_ordered recorded.indexed.ordered]
  exact recorded.indexed.ordered.sublist ((List.take_sublist _ _).trans List.filter_sublist)

end Recorded

/-! ## The plan -/

/-- **A plan without a rebuild covers the history exactly when nothing above its watermark has
been lost**: no event before the first snapshot, and after it none that only the evicted part of
the history has. -/
theorem schedulerRehydrationPlan_coversHistory_iff (config : StorageConfig)
    (history : List StorageStep) (maxFinalityGapMs : UInt64) :
    (((storageAfter config history).schedulerRehydrationPlan
        maxFinalityGapMs).requiresRpcRebuild = false →
      CoversHistory history
        ((storageAfter config history).schedulerRehydrationPlan maxFinalityGapMs)) ↔
      TailRetained config history maxFinalityGapMs := by
  have recorded := recorded_storageAfter config history
  have parts := List.take_append_drop (evictedCount config (eventsOf history)) (eventsOf history)
  unfold InMemoryStorage.schedulerRehydrationPlan TailRetained
  rw [recorded.snapshot, recorded.finalized]
  dsimp only
  cases written : lastSnapshotOf history with
  | none =>
      dsimp only
      constructor
      · intro covers event member
        by_contra positive
        have above : (0 : UInt64) < event.seqId := UInt64.pos_iff_ne_zero.mpr positive
        exact List.not_mem_nil ((covers rfl).listed event member above)
      · intro zero _
        refine ⟨fun event member above => ?_, List.Pairwise.nil⟩
        rw [zero event member] at above
        exact absurd above (UInt64.lt_irrefl _)
  | some snapshot =>
      dsimp only
      split
      case isTrue exceeded =>
        constructor
        · intro _ within
          rw [exceeded] at within
          cases within
        · intro _ asked
          cases asked
      case isFalse within =>
        have listed := recorded.mem_scanEvents snapshot.eventSeqHi
        constructor
        · intro covers _ event evicted above
          exact ((listed event).mp ((covers rfl).listed event (List.mem_of_mem_take evicted) above)).1
        · intro kept _
          refine ⟨fun event member above => ?_, recorded.scanEvents_ordered _ _⟩
          rw [← parts] at member
          refine (listed event).mpr ⟨?_, above⟩
          rcases List.mem_append.mp member with evicted | retained
          · exact kept (Bool.not_eq_true _ ▸ within) event evicted above
          · exact retained

/-- A snapshot with the watermark `0`, and two transactions of a sender decoded after it. -/
def tailOfTwo : List StorageStep :=
  let decoded (seqId nonce : UInt64) : EventEnvelope :=
    { seqId, ingestTsUnixMs := 0, ingestTsMonoNs := 0, sourceId := "rpc"
      payload := .txDecoded
        { hash := seqId.toBitVec.setWidth 256, txType := 2, sender := 1, nonce, chainId := some 1
          toAddress := none, valueWei := none, gasLimit := none, gasPriceWei := none
          maxFeePerGasWei := none, maxPriorityFeePerGasWei := none, maxFeePerBlobGasWei := none
          calldataLen := none } }
  [.writeSchedulerSnapshot
      { capturedAtUnixMs := 0, capturedAtMonoNs := 0, eventSeqHi := 0, pending := []
        executableFrontier := [], senderQueues := [] },
    .appendEvent (decoded 1 0), .appendEvent (decoded 2 1)]

/-- With room for one event, the plan replays the second event over the snapshot and asks for no
rebuild, without the first. -/
theorem tailOfTwo_not_coversHistory :
    ¬ ∀ (config : StorageConfig) (history : List StorageStep) (maxFinalityGapMs : UInt64),
      ((storageAfter config history).schedulerRehydrationPlan
          maxFinalityGapMs).requiresRpcRebuild = false →
        CoversHistory history
          ((storageAfter config history).schedulerRehydrationPlan maxFinalityGapMs) := by
  intro covers
  have listed := (covers { eventCapacity := 1 } tailOfTwo 0 (by decide +kernel)).listed
  revert listed
  decide +kernel

end Mempulse.Storage
