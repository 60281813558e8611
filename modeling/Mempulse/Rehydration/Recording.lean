import Mempulse.Rehydration.Plan
import Mempulse.Storage.WriterRun

/-!
# What the storage writer records

The storage after the writer has taken some operations of its queue. As long as no event has been
evicted, the event with sequence id `n` is the `n`th that was appended, the latest sequence id is the
number of events, and a scan from a sequence id returns what was appended after it.
-/

set_option autoImplicit false

namespace Mempulse.Storage

open EventLog Scheduler Library

/-- The snapshot an operation writes. -/
def StorageWriteOp.snapshot? : StorageWriteOp → Option PersistedSchedulerSnapshot
  | .writeSchedulerSnapshot snapshot => some snapshot
  | _ => none

/-- The payload an operation appends. -/
def StorageWriteOp.payload? (op : StorageWriteOp) : Option EventPayload := op.envelope.map (·.payload)

/-- The writer has taken these operations and no others. -/
structure Recording (config : StorageConfig) (ops : List StorageWriteOp) (writer : Writer) : Prop where
  payloads : writer.appended.map (·.event.payload) = ops.filterMap StorageWriteOp.payload?
  numbered : writer.appended.map (·.event.seqId.toNat) =
    (List.range writer.appended.length).map fun position => min (position + 1) u64Max
  sequencer : writer.sequencer.nextSeqId = min (writer.appended.length + 1) u64Max
  recorded : ∃ history, Recorded config history writer.storage ∧
    eventsOf history = writer.appended.map (·.event) ∧
    lastSnapshotOf history = (ops.filterMap StorageWriteOp.snapshot?).getLast?

section Steps

variable {config : StorageConfig} {ops : List StorageWriteOp} {writer : Writer}

theorem Recording.start (config : StorageConfig) : Recording config [] { config := config } where
  payloads := rfl
  numbered := rfl
  sequencer := rfl
  recorded := ⟨[], .start config, rfl, rfl⟩

/-- What is recorded does not depend on the other tables. -/
theorem Recorded.frame {history : List StorageStep} {storage next : InMemoryStorage}
    (recorded : Recorded config history storage) (sameConfig : next.config = storage.config)
    (snapshot : next.schedulerSnapshot = storage.schedulerSnapshot)
    (finalized : next.latestFinalizedBlockUnixMs = storage.latestFinalizedBlockUnixMs)
    (events : next.events = storage.events) (index : next.eventIndex = storage.eventIndex) :
    Recorded config history next where
  capacity := by rw [sameConfig, recorded.capacity]
  snapshot := by rw [snapshot, recorded.snapshot]
  finalized := by rw [finalized, recorded.finalized]
  retained := by rw [events, recorded.retained]
  indexed := by rw [index, events]; exact recorded.indexed

theorem Recording.appendNumbered (recording : Recording config ops writer) {op : StorageWriteOp}
    {event : EventEnvelope} (appends : op.envelope = some event) (silent : op.snapshot? = none) :
    Recording config (ops ++ [op]) (writer.appendNumbered event) := by
  have bounded : writer.sequencer.nextSeqId ≤ u64Max := recording.sequencer ▸ Nat.min_le_right _ _
  have assigned : (writer.sequencer.assign event).1.seqId.toNat =
      min (writer.appended.length + 1) u64Max := by
    rw [← recording.sequencer]
    exact UInt64.toNat_ofNat_of_lt' (Nat.lt_of_le_of_lt bounded (by decide))
  obtain ⟨history, recorded, events, snapshot⟩ := recording.recorded
  refine ⟨?_, ?_, ?_, history ++ [.appendEvent (writer.sequencer.assign event).1],
    recorded.appendEvent _, ?_, ?_⟩
  · rw [Writer.appendNumbered, List.map_append, recording.payloads, List.filterMap_append]
    simp [StorageWriteOp.payload?, appends, GlobalSequencer.assign]
  · rw [Writer.appendNumbered, List.map_append, recording.numbered, List.length_append,
      List.length_singleton, List.range_succ, List.map_append, List.map_singleton, List.map_singleton,
      assigned]
  · change saturatingAdd u64Max writer.sequencer.nextSeqId 1 = min ((writer.appended ++ [_]).length + 1) _
    rw [recording.sequencer, List.length_append, List.length_singleton, saturatingAdd]
    omega
  · rw [eventsOf, List.filterMap_append, ← eventsOf, events, Writer.appendNumbered, List.map_append]
    rfl
  · rw [lastSnapshotOf, List.filterMap_append, List.filterMap_append]
    simp only [List.filterMap_cons, silent, StorageStep.snapshot?, List.filterMap_nil, List.append_nil]
    exact snapshot

theorem Recording.project (recording : Recording config ops writer) {op : StorageWriteOp}
    {storage : InMemoryStorage} (silent : op.envelope = none) (noSnapshot : op.snapshot? = none)
    (framed : ∀ history, Recorded config history writer.storage → Recorded config history storage) :
    Recording config (ops ++ [op]) { writer with storage := storage } := by
  obtain ⟨history, recorded, events, snapshot⟩ := recording.recorded
  refine ⟨?_, recording.numbered, recording.sequencer, history, framed history recorded, events, ?_⟩
  · rw [recording.payloads, List.filterMap_append]
    simp [StorageWriteOp.payload?, silent]
  · rw [snapshot, List.filterMap_append]
    simp [noSnapshot]

/-- The writer takes an operation. -/
theorem Recording.applyWriteOp (recording : Recording config ops writer) (op : StorageWriteOp) :
    Recording config (ops ++ [op]) (writer.applyWriteOp op) := by
  cases op with
  | appendEvent event => exact recording.appendNumbered rfl rfl
  | appendPayload sourceId payload ingestTsUnixMs ingestTsMonoNs =>
      exact recording.appendNumbered rfl rfl
  | upsertTxSeen | upsertTxFull | upsertTxFeatures | upsertOpportunity | upsertTxLifecycle
  | upsertPeerStats =>
      exact recording.project rfl rfl fun _ recorded => recorded.frame rfl rfl rfl rfl rfl
  | writeSchedulerSnapshot snapshot =>
      obtain ⟨history, recorded, events, -⟩ := recording.recorded
      refine ⟨?_, recording.numbered, recording.sequencer,
        history ++ [.writeSchedulerSnapshot snapshot], recorded.writeSchedulerSnapshot snapshot, ?_, ?_⟩
      · change writer.appended.map _ = _
        rw [recording.payloads, List.filterMap_append]
        exact (List.append_nil _).symm
      · change _ = writer.appended.map _
        rw [← events, eventsOf, List.filterMap_append]
        exact List.append_nil _
      · rw [lastSnapshotOf, List.filterMap_append, List.filterMap_append]
        exact List.getLast?_concat.trans List.getLast?_concat.symm

/-- A flush leaves the storage and the numbering alone. -/
theorem Recording.flushBatch (recording : Recording config ops writer) (accepts : Bool) :
    Recording config ops (writer.flushBatch accepts) := by
  unfold Writer.flushBatch
  split
  · exact recording
  · cases accepts <;>
      exact ⟨recording.payloads, recording.numbered, recording.sequencer, recording.recorded⟩

end Steps

/-! ## Reading what was recorded -/

/-- No event has been evicted. -/
def Writer.Retains (config : StorageConfig) (writer : Writer) : Prop :=
  writer.appended.length ≤ max config.eventCapacity 1

section Reading

variable {config : StorageConfig} {ops : List StorageWriteOp} {writer : Writer}
  (recording : Recording config ops writer) (machine : config.eventCapacity ≤ usizeMax)
  (retains : writer.Retains config)

include recording machine retains

theorem Recording.numbered_of_retains :
    writer.appended.map (·.event.seqId.toNat) = List.range' 1 writer.appended.length := by
  rw [recording.numbered, List.range'_eq_map_range]
  refine List.map_congr_left fun position member => ?_
  have below := List.mem_range.mp member
  unfold Writer.Retains usizeMax at *
  unfold u64Max
  omega

theorem Recording.increasing : (writer.appended.map (·.event)).Pairwise fun earlier later =>
    earlier.seqId.toNat < later.seqId.toNat := by
  have sorted := List.pairwise_lt_range' (s := 1) (n := writer.appended.length)
  rw [← recording.numbered_of_retains machine retains, List.pairwise_map] at sorted
  exact List.pairwise_map.mpr sorted

/-- The index lists the events in the order of their appends. -/
theorem Recording.eventIndex_eq : writer.storage.eventIndex = writer.appended.map (·.event) := by
  obtain ⟨history, recorded, events, -⟩ := recording.recorded
  have whole : writer.storage.events = writer.appended.map (·.event) := by
    have none : evictedCount config (writer.appended.map (·.event)) = 0 := by
      unfold Writer.Retains at retains
      rw [evictedCount, List.length_map]
      omega
    rw [recorded.retained, events, none, List.drop_zero]
  have same := recorded.indexed.perm
  rw [whole] at same
  refine recorded.indexed.ordered.eq_of_perm
    (ordered_of_increasing (recording.increasing machine retains)) same ?_
  intro left inIndex right alsoInIndex equal
  have distinct : ((writer.appended.map (·.event)).map (·.seqId.toNat)).Nodup := by
    rw [List.map_map]
    exact (recording.numbered_of_retains machine retains).symm ▸ List.nodup_range'
  refine List.inj_on_of_nodup_map distinct (same.mem_iff.mp inIndex) (same.mem_iff.mp alsoInIndex) ?_
  exact congrArg (fun key => key.seqId.toNat) (cmpDeterministic_eq_iff.mp equal)

/-- The latest sequence id is the number of events. -/
theorem Recording.latestSeqId : (writer.storage.latestSeqId.getD 0).toNat = writer.appended.length := by
  rw [InMemoryStorage.latestSeqId, recording.eventIndex_eq machine retains, List.getLast?_map,
    Option.map_map]
  have numbers := recording.numbered_of_retains machine retains
  cases last : writer.appended.getLast? with
  | none => rw [List.getLast?_eq_none_iff.mp last]; rfl
  | some record =>
      obtain ⟨front, whole⟩ := List.getLast?_eq_some_iff.mp last
      have final := congrArg List.getLast? numbers
      rw [List.getLast?_map, last, List.getLast?_range'] at final
      rw [Option.map_some, Option.getD_some]
      rw [whole, List.length_append, List.length_singleton] at final ⊢
      simpa [Nat.add_comm] using final

/-- A scan returns what was appended after the sequence id. -/
theorem Recording.scanEvents (fromSeqId : UInt64) :
    writer.storage.scanEvents fromSeqId (max writer.storage.eventIndex.length 1) =
      (writer.appended.map (·.event)).drop fromSeqId.toNat := by
  obtain ⟨history, recorded, -, -⟩ := recording.recorded
  have numbers := recording.numbered_of_retains machine retains
  have all : (writer.storage.eventIndex.filter fun event => fromSeqId < event.seqId).length ≤
      max (max writer.storage.eventIndex.length 1) 1 :=
    (List.length_filter_le _ _).trans (by omega)
  rw [InMemoryStorage.scanEvents_of_ordered recorded.indexed.ordered, List.take_of_length_le all,
    recording.eventIndex_eq machine retains]
  have position : ∀ index (bound : index < writer.appended.length),
      writer.appended[index].event.seqId.toNat = index + 1 := by
    intro index bound
    have here := congrArg (·[index]?) numbers
    simp only [List.getElem?_map, List.getElem?_eq_getElem bound, Option.map_some,
      List.getElem?_range' bound] at here
    have value := Option.some.inj here
    omega
  conv_lhs => rw [← List.take_append_drop fromSeqId.toNat (writer.appended.map (·.event))]
  rw [List.filter_append, List.filter_eq_nil_iff.mpr, List.nil_append, List.filter_eq_self.mpr]
  · intro event member
    obtain ⟨offset, bound, rfl⟩ := List.mem_iff_getElem.mp member
    rw [List.length_drop, List.length_map] at bound
    rw [List.getElem_drop, List.getElem_map, decide_eq_true_eq, UInt64.lt_iff_toNat_lt,
      position _ (by omega)]
    omega
  · intro event member
    obtain ⟨offset, bound, rfl⟩ := List.mem_iff_getElem.mp member
    rw [List.length_take, List.length_map] at bound
    rw [List.getElem_take, List.getElem_map, decide_eq_true_eq, UInt64.lt_iff_toNat_lt,
      position _ (by omega)]
    omega

/-- Without a final confirmation the plan is the last snapshot with what was appended after its
watermark. -/
theorem Recording.schedulerRehydrationPlan {snapshot : PersistedSchedulerSnapshot}
    (written : (ops.filterMap StorageWriteOp.snapshot?).getLast? = some snapshot)
    (unfinalized : latestFinalizedOf (writer.appended.map (·.event)) = none)
    (maxFinalityGapMs : UInt64) :
    writer.storage.schedulerRehydrationPlan maxFinalityGapMs =
      { snapshot := some snapshot
        replayEvents := (writer.appended.map (·.event)).drop snapshot.eventSeqHi.toNat
        requiresRpcRebuild := false } := by
  obtain ⟨history, recorded, events, last⟩ := recording.recorded
  have scanned := recording.scanEvents machine retains snapshot.eventSeqHi
  unfold InMemoryStorage.schedulerRehydrationPlan
  rw [recorded.snapshot, last, written, recorded.finalized, events, unfinalized]
  dsimp only
  rw [scanned]
  rfl

end Reading

end Mempulse.Storage
