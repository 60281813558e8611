import Mempulse.Rehydration.Plan
import Mempulse.Storage.Mutations

/-!
# Backfilling historical events

A backfill writer appends historical events to a storage, each sequence id once. It remembers the
ids it has inserted itself and does not look at those the storage had before, so it never
duplicates an event exactly when no event it inserts has the id of one that was there
(`neverDuplicates_iff`).

The storage is shared behind a lock; here the writer holds it. The counters are `u64` in the source
and natural numbers here, with their saturation written out.
-/

set_option autoImplicit false

namespace Mempulse.Storage

open Std EventLog Library

/-! ## The writer -/

/-- Retention settings applied while backfilling historical events. -/
structure BackfillConfig where
  retentionWindowMs : Int64 := 7 * 24 * 60 * 60 * 1000
  deriving DecidableEq

/-- Counts describing one backfill run. -/
structure BackfillSummary where
  inserted : Nat := 0
  skippedDuplicates : Nat := 0
  prunedByRetention : Nat := 0
  deriving DecidableEq

/-- The writer: its storage, its bounds and the sequence ids it has seen. -/
structure BackfillWriter where
  storage : InMemoryStorage
  config : BackfillConfig
  seenSeqIds : ExtTreeSet UInt64

namespace BackfillWriter

/-- Creates a backfill writer with normalized retention settings. -/
def new (storage : InMemoryStorage) (config : BackfillConfig) : BackfillWriter where
  storage := storage
  config := { retentionWindowMs := max config.retentionWindowMs 1 }
  seenSeqIds := ∅

/-- Applies one event. -/
def applyEvent (retentionCutoff : Int64) (progress : BackfillSummary × BackfillWriter)
    (event : EventEnvelope) : BackfillSummary × BackfillWriter :=
  let summary := progress.1
  let writer := progress.2
  if event.ingestTsUnixMs < retentionCutoff then
    ({ summary with prunedByRetention := saturatingAdd u64Max summary.prunedByRetention 1 }, writer)
  else if writer.seenSeqIds.contains event.seqId then
    ({ summary with skippedDuplicates := saturatingAdd u64Max summary.skippedDuplicates 1 }, writer)
  else
    ({ summary with inserted := saturatingAdd u64Max summary.inserted 1 },
      { writer with
        seenSeqIds := writer.seenSeqIds.insert event.seqId
        storage := writer.storage.appendEvent event })

/-- What was ingested before this moment is left out. -/
def retentionCutoff (config : BackfillConfig) (nowUnixMs : Int64) : Int64 :=
  saturatingSub nowUnixMs config.retentionWindowMs

/-- Applies events in deterministic order and returns insertion/prune counters. -/
def applyEvents (writer : BackfillWriter) (events : List EventEnvelope) (nowUnixMs : Int64) :
    BackfillSummary × BackfillWriter :=
  (sortDeterministic events).foldl (applyEvent (retentionCutoff writer.config nowUnixMs))
    ({}, writer)

end BackfillWriter

/-- The arguments of one call of `apply_events`. -/
structure BackfillBatch where
  events : List EventEnvelope
  nowUnixMs : Int64
  deriving DecidableEq

namespace BackfillWriter

/-- Applies a batch at its moment. -/
def apply (writer : BackfillWriter) (batch : BackfillBatch) : BackfillSummary × BackfillWriter :=
  writer.applyEvents batch.events batch.nowUnixMs

/-- The writer after a list of batches. -/
def applyAll (writer : BackfillWriter) (batches : List BackfillBatch) : BackfillWriter :=
  batches.foldl (fun writer batch => (writer.apply batch).2) writer

end BackfillWriter

/-! ## Reachable storages -/

/-- Only an appended event changes the events. -/
theorem InMemoryStorage.indexed_mutate {storage : InMemoryStorage}
    (indexed : Indexed storage.eventIndex storage.events) (mutation : StorageMutation) :
    Indexed (storage.mutate mutation).eventIndex (storage.mutate mutation).events := by
  cases mutation with
  | appendEvent event => exact (appendEvent_spec indexed event).2.2
  | upsertTxSeen | upsertTxFull | upsertTxFeatures | upsertOpportunity | upsertBuilderLifecycle
  | upsertTxLifecycle | upsertPeerStats | writeSchedulerSnapshot => exact indexed

theorem InMemoryStorage.indexed_mutateAll (config : StorageConfig)
    (mutations : List StorageMutation) :
    Indexed ((withConfig config).mutateAll mutations).eventIndex
      ((withConfig config).mutateAll mutations).events := by
  induction mutations using List.reverseRecOn with
  | nil => exact .empty
  | append_singleton mutations mutation ih =>
      rw [mutateAll_concat]
      exact indexed_mutate ih mutation

/-! ## What a writer inserts -/

/-- An event that was applied with a retention cutoff. -/
structure Application where
  cutoff : Int64
  event : EventEnvelope

/-- Some event with the sequence id was recent enough when it was applied. -/
def Due (applied : List Application) (seqId : UInt64) : Prop :=
  ∃ application ∈ applied, ¬ application.event.ingestTsUnixMs < application.cutoff ∧
    application.event.seqId = seqId

theorem due_append {applied later : List Application} {seqId : UInt64} :
    Due (applied ++ later) seqId ↔ Due applied seqId ∨ Due later seqId := by
  simp only [Due, List.mem_append, or_and_right, exists_or]

theorem due_singleton {cutoff : Int64} {event : EventEnvelope} {seqId : UInt64} :
    Due [⟨cutoff, event⟩] seqId ↔ ¬ event.ingestTsUnixMs < cutoff ∧ event.seqId = seqId := by
  simp [Due]

/-- What a writer has inserted of the events it applied: one event for every sequence id that was
due. -/
structure Backfilled (start : BackfillWriter) (applied : List Application)
    (inserted : List EventEnvelope) (writer : BackfillWriter) : Prop where
  config : writer.config = start.config
  storage : writer.storage = start.storage.appendEvents inserted
  seen : ∀ seqId, writer.seenSeqIds.contains seqId = true ↔ seqId ∈ inserted.map (·.seqId)
  distinct : (inserted.map (·.seqId)).Nodup
  due : ∀ seqId, seqId ∈ inserted.map (·.seqId) ↔ Due applied seqId
  fewer : inserted.length ≤ applied.length

namespace Backfilled

variable {start writer : BackfillWriter} {applied : List Application}
  {inserted : List EventEnvelope}

theorem new (initial : InMemoryStorage) (config : BackfillConfig) :
    Backfilled (.new initial config) [] [] (.new initial config) where
  config := rfl
  storage := rfl
  seen seqId := by simp [BackfillWriter.new]
  distinct := List.nodup_nil
  due seqId := by simp [Due]
  fewer := Nat.le_refl _

/-- An event that inserts nothing was not due, or its id was inserted before. -/
theorem keep (backfilled : Backfilled start applied inserted writer) {cutoff : Int64}
    {event : EventEnvelope}
    (covered : ¬ event.ingestTsUnixMs < cutoff → event.seqId ∈ inserted.map (·.seqId)) :
    Backfilled start (applied ++ [⟨cutoff, event⟩]) inserted writer where
  config := backfilled.config
  storage := backfilled.storage
  seen := backfilled.seen
  distinct := backfilled.distinct
  due seqId := by
    rw [due_append, due_singleton, ← backfilled.due]
    constructor
    · exact .inl
    · rintro (held | ⟨recent, rfl⟩)
      · exact held
      · exact covered recent
  fewer := by
    rw [List.length_append]
    exact Nat.le_add_right_of_le backfilled.fewer

theorem insert (backfilled : Backfilled start applied inserted writer) {cutoff : Int64}
    {event : EventEnvelope} (recent : ¬ event.ingestTsUnixMs < cutoff)
    (fresh : ¬ writer.seenSeqIds.contains event.seqId = true) :
    Backfilled start (applied ++ [⟨cutoff, event⟩]) (inserted ++ [event])
      { writer with
        seenSeqIds := writer.seenSeqIds.insert event.seqId
        storage := writer.storage.appendEvent event } where
  config := backfilled.config
  storage := by
    dsimp only
    rw [backfilled.storage, InMemoryStorage.appendEvents, InMemoryStorage.appendEvents,
      List.foldl_append]
    rfl
  seen seqId := by
    dsimp only
    rw [ExtTreeSet.contains_insert, Bool.or_eq_true, beq_iff_eq, Std.compare_eq_iff_eq,
      backfilled.seen, List.map_append, List.mem_append, List.map_singleton, List.mem_singleton,
      or_comm, eq_comm]
  distinct := by
    rw [List.map_append, List.map_singleton, List.nodup_append_comm]
    exact List.nodup_cons.mpr
      ⟨fun member => fresh ((backfilled.seen _).mpr member), backfilled.distinct⟩
  due seqId := by
    rw [due_append, due_singleton, ← backfilled.due, List.map_append, List.mem_append,
      List.map_singleton, List.mem_singleton, eq_comm]
    simp only [recent, not_false_eq_true, true_and]
  fewer := by
    rw [List.length_append, List.length_append]
    exact Nat.add_le_add_right backfilled.fewer _

/-- One event. -/
theorem applyEvent {cutoff : Int64} {progress : BackfillSummary × BackfillWriter}
    (backfilled : Backfilled start applied inserted progress.2) (event : EventEnvelope) :
    ∃ later, Backfilled start (applied ++ [⟨cutoff, event⟩]) (inserted ++ later)
      (BackfillWriter.applyEvent cutoff progress event).2 := by
  unfold BackfillWriter.applyEvent
  dsimp only
  split
  case isTrue old =>
    exact ⟨[], by rw [List.append_nil]; exact backfilled.keep fun recent => absurd old recent⟩
  case isFalse recent =>
    split
    case isTrue known =>
      exact ⟨[], by
        rw [List.append_nil]
        exact backfilled.keep fun _ => (backfilled.seen _).mp known⟩
    case isFalse fresh => exact ⟨[event], backfilled.insert recent fresh⟩

/-- A list of events. -/
theorem foldl_applyEvent {cutoff : Int64} {progress : BackfillSummary × BackfillWriter}
    (backfilled : Backfilled start applied inserted progress.2) (events : List EventEnvelope) :
    ∃ later, Backfilled start (applied ++ events.map fun event => ⟨cutoff, event⟩)
      (inserted ++ later)
      (events.foldl (BackfillWriter.applyEvent cutoff) progress).2 := by
  induction events generalizing progress applied inserted with
  | nil => exact ⟨[], by simpa using backfilled⟩
  | cons event rest ih =>
      obtain ⟨here, step⟩ := backfilled.applyEvent event
      obtain ⟨later, whole⟩ := ih step
      refine ⟨here ++ later, ?_⟩
      rw [List.map_cons, List.append_cons, ← List.append_assoc]
      exact whole

end Backfilled

/-- The events of a batch, in the order they are applied. -/
def BackfillBatch.applications (config : BackfillConfig) (batch : BackfillBatch) :
    List Application :=
  (sortDeterministic batch.events).map fun event =>
    ⟨BackfillWriter.retentionCutoff config batch.nowUnixMs, event⟩

section Batches

variable {start writer : BackfillWriter} {applied : List Application}
  {inserted : List EventEnvelope}

theorem Backfilled.apply (backfilled : Backfilled start applied inserted writer)
    (batch : BackfillBatch) :
    ∃ later, Backfilled start (applied ++ batch.applications start.config) (inserted ++ later)
      (writer.apply batch).2 := by
  have progress : Backfilled start applied inserted
      (({}, writer) : BackfillSummary × BackfillWriter).2 := backfilled
  rw [BackfillWriter.apply, BackfillWriter.applyEvents, BackfillBatch.applications,
    backfilled.config]
  exact progress.foldl_applyEvent _

/-- A list of batches. -/
theorem Backfilled.applyAll (backfilled : Backfilled start applied inserted writer)
    (batches : List BackfillBatch) :
    ∃ later, Backfilled start (applied ++ batches.flatMap (·.applications start.config))
      (inserted ++ later) (writer.applyAll batches) := by
  induction batches generalizing writer applied inserted with
  | nil => exact ⟨[], by rwa [List.flatMap_nil, List.append_nil, List.append_nil]⟩
  | cons batch rest ih =>
      obtain ⟨here, step⟩ := backfilled.apply batch
      obtain ⟨later, whole⟩ := ih step
      refine ⟨here ++ later, ?_⟩
      rw [List.flatMap_cons, ← List.append_assoc, ← List.append_assoc]
      exact whole

/-- What a new writer has inserted after its batches. -/
theorem backfilled_applyAll (initial : InMemoryStorage) (config : BackfillConfig)
    (batches : List BackfillBatch) :
    ∃ inserted, Backfilled (.new initial config)
      (batches.flatMap (·.applications (BackfillWriter.new initial config).config)) inserted
      ((BackfillWriter.new initial config).applyAll batches) := by
  obtain ⟨inserted, backfilled⟩ := (Backfilled.new initial config).applyAll batches
  exact ⟨inserted, backfilled⟩

/-! ## Counters -/

/-- Every event of a batch is counted once. -/
def BackfillSummary.total (summary : BackfillSummary) : Nat :=
  summary.inserted + summary.skippedDuplicates + summary.prunedByRetention

/-- Every event is counted once. -/
theorem total_applyEvent (cutoff : Int64) (progress : BackfillSummary × BackfillWriter)
    (event : EventEnvelope) (room : progress.1.total < u64Max) :
    (BackfillWriter.applyEvent cutoff progress event).1.total = progress.1.total + 1 := by
  rw [BackfillSummary.total] at room
  unfold BackfillWriter.applyEvent
  dsimp only
  split
  · rw [BackfillSummary.total, BackfillSummary.total]
    dsimp only
    rw [saturatingAdd_of_le (by omega)]
    omega
  · split
    · rw [BackfillSummary.total, BackfillSummary.total]
      dsimp only
      rw [saturatingAdd_of_le (by omega)]
      omega
    · rw [BackfillSummary.total, BackfillSummary.total]
      dsimp only
      rw [saturatingAdd_of_le (by omega)]
      omega

theorem total_foldl_applyEvent (cutoff : Int64) (events : List EventEnvelope)
    (progress : BackfillSummary × BackfillWriter)
    (room : progress.1.total + events.length ≤ u64Max) :
    (events.foldl (BackfillWriter.applyEvent cutoff) progress).1.total =
      progress.1.total + events.length := by
  induction events generalizing progress with
  | nil => rfl
  | cons event rest ih =>
      rw [List.length_cons] at room ⊢
      have counted := total_applyEvent cutoff progress event (by omega)
      rw [List.foldl_cons, ih _ (by omega)]
      omega

/-- Events that are too old or known insert nothing. -/
theorem inserted_foldl_applyEvent (cutoff : Int64) {events : List EventEnvelope}
    (progress : BackfillSummary × BackfillWriter)
    (covered : ∀ event ∈ events, ¬ event.ingestTsUnixMs < cutoff →
      progress.2.seenSeqIds.contains event.seqId = true) :
    (events.foldl (BackfillWriter.applyEvent cutoff) progress).1.inserted =
      progress.1.inserted := by
  induction events generalizing progress with
  | nil => rfl
  | cons event rest ih =>
      obtain ⟨here, later⟩ := List.forall_mem_cons.mp covered
      have step : (BackfillWriter.applyEvent cutoff progress event).2 = progress.2 ∧
          (BackfillWriter.applyEvent cutoff progress event).1.inserted = progress.1.inserted := by
        unfold BackfillWriter.applyEvent
        dsimp only
        split
        case isTrue => exact ⟨rfl, rfl⟩
        case isFalse recent =>
          rw [if_pos (here recent)]
          exact ⟨rfl, rfl⟩
      rw [List.foldl_cons, ih _ (by rwa [step.1]), step.2]

/-! ## Retained events -/

theorem mem_sortDeterministic {events : List EventEnvelope} {event : EventEnvelope} :
    event ∈ sortDeterministic events ↔ event ∈ events :=
  (stableSort_perm cmpDeterministic events).mem_iff

/-- What the batches make due. -/
theorem due_applications {config : BackfillConfig} {batches : List BackfillBatch}
    {seqId : UInt64} :
    Due (batches.flatMap (·.applications config)) seqId ↔
      ∃ batch ∈ batches, ∃ event ∈ batch.events,
        ¬ event.ingestTsUnixMs < BackfillWriter.retentionCutoff config batch.nowUnixMs ∧
          event.seqId = seqId := by
  constructor
  · rintro ⟨application, member, recent, same⟩
    obtain ⟨batch, listed, applied⟩ := List.mem_flatMap.mp member
    obtain ⟨event, sorted, rfl⟩ := List.mem_map.mp applied
    exact ⟨batch, listed, event, mem_sortDeterministic.mp sorted, recent, same⟩
  · rintro ⟨batch, listed, event, member, recent, same⟩
    exact ⟨⟨_, event⟩, List.mem_flatMap.mpr ⟨batch, listed, List.mem_map.mpr
      ⟨event, mem_sortDeterministic.mpr member, rfl⟩⟩, recent, same⟩

theorem length_applications (config : BackfillConfig) (batches : List BackfillBatch) :
    (batches.flatMap (·.applications config)).length =
      (batches.map (·.events.length)).sum := by
  rw [List.length_flatMap]
  congr 1
  refine List.map_congr_left fun batch _ => ?_
  rw [BackfillBatch.applications, List.length_map]
  exact (stableSort_perm cmpDeterministic batch.events).length_eq

/-- The sequence ids of the retained events. -/
def InMemoryStorage.retainedSeqIds (storage : InMemoryStorage) : List UInt64 :=
  storage.listEvents.map (·.seqId)

/-- With room for all of them, the retained events stay unique exactly when nothing is due that the
storage had already. -/
theorem nodup_retainedSeqIds_iff {initial : InMemoryStorage} {config : BackfillConfig}
    {batches : List BackfillBatch} (indexed : InMemoryStorage.Indexed initial.eventIndex initial.events)
    (unique : initial.retainedSeqIds.Nodup)
    (fits : initial.events.length + (batches.map (·.events.length)).sum ≤
      initial.config.eventCapacity) :
    ((BackfillWriter.new initial config).applyAll batches).storage.retainedSeqIds.Nodup ↔
      ∀ seqId, Due (batches.flatMap (·.applications (BackfillWriter.new initial config).config))
        seqId → seqId ∉ initial.retainedSeqIds := by
  obtain ⟨inserted, backfilled⟩ := backfilled_applyAll initial config batches
  have fewer := backfilled.fewer
  rw [length_applications] at fewer
  obtain ⟨-, events, indexedAfter⟩ :=
    InMemoryStorage.appendEvents_spec indexed (by omega) inserted
  have none : initial.events.length + inserted.length - initial.config.eventCapacity = 0 := by
    omega
  rw [none, List.drop_zero] at events
  have retained : ((BackfillWriter.new initial config).applyAll batches).storage.retainedSeqIds.Perm
      (initial.retainedSeqIds ++ inserted.map (·.seqId)) := by
    rw [backfilled.storage]
    refine (indexedAfter.perm.map (·.seqId)).trans ?_
    rw [events, List.map_append]
    exact ((indexed.perm.map (·.seqId)).symm).append_right _
  rw [retained.nodup_iff, List.nodup_append']
  constructor
  · rintro ⟨-, -, disjoint⟩ seqId due held
    exact disjoint held ((backfilled.due seqId).mpr due)
  · intro apart
    exact ⟨unique, backfilled.distinct, fun seqId held member =>
      apart seqId ((backfilled.due seqId).mp member) held⟩

/-! ## The theorem -/

/-- The same batch, or the same events in another order when their order keys are distinct. -/
def Rearranged (batch other : BackfillBatch) : Prop :=
  batch = other ∨ batch.nowUnixMs = other.nowUnixMs ∧ batch.events.Perm other.events ∧
    (batch.events.map (·.orderKey)).Nodup

theorem Rearranged.apply_eq {batch other : BackfillBatch} (rearranged : Rearranged batch other)
    (writer : BackfillWriter) : writer.apply batch = writer.apply other := by
  rcases rearranged with rfl | ⟨now, same, distinct⟩
  · rfl
  · have sorted : sortDeterministic batch.events = sortDeterministic other.events := by
      refine stableSort_eq_of_perm same fun left inLeft right inRight equal => ?_
      exact List.inj_on_of_nodup_map distinct inLeft inRight (cmpDeterministic_eq_iff.mp equal)
    rw [BackfillWriter.apply, BackfillWriter.apply, BackfillWriter.applyEvents,
      BackfillWriter.applyEvents, sorted, now]

theorem Rearranged.applyAll_eq {batches others : List BackfillBatch}
    (rearranged : List.Forall₂ Rearranged batches others) (writer : BackfillWriter) :
    writer.applyAll batches = writer.applyAll others := by
  induction rearranged generalizing writer with
  | nil => rfl
  | cons here _ ih =>
      rw [BackfillWriter.applyAll, List.foldl_cons, here.apply_eq]
      exact ih _

/-- Backfilling duplicates nothing: no two retained events ever share a sequence id, a batch that
was applied inserts nothing when it is applied again at its time, the counters add up to the
batch, and the order of the events within a batch makes no difference. -/
structure NeverDuplicates (writer : BackfillWriter) (batches : List BackfillBatch) : Prop where
  unique : ∀ earlier later, batches = earlier ++ later →
    (writer.applyAll earlier).storage.retainedSeqIds.Nodup
  idempotent : ∀ batch ∈ batches, ((writer.applyAll batches).apply batch).1.inserted = 0
  accounted : ∀ earlier batch later, batches = earlier ++ batch :: later →
    ((writer.applyAll earlier).apply batch).1.total = batch.events.length
  orderFree : ∀ others, List.Forall₂ Rearranged batches others →
    (writer.applyAll others).storage = (writer.applyAll batches).storage

end Batches

/-- **Backfilling duplicates nothing exactly when no event of a batch that is recent enough has the
sequence id of an event the storage had before.** A batch is a slice in memory, so its length is a
machine word. -/
theorem neverDuplicates_iff (config : StorageConfig) (mutations : List StorageMutation)
    (backfill : BackfillConfig) (batches : List BackfillBatch)
    (unique : ((InMemoryStorage.withConfig config).mutateAll mutations).retainedSeqIds.Nodup)
    (fits : ((InMemoryStorage.withConfig config).mutateAll mutations).events.length +
        (batches.map (·.events.length)).sum ≤
      ((InMemoryStorage.withConfig config).mutateAll mutations).config.eventCapacity)
    (sized : ∀ batch ∈ batches, batch.events.length ≤ u64Max) :
    NeverDuplicates (.new ((InMemoryStorage.withConfig config).mutateAll mutations) backfill)
        batches ↔
      ∀ batch ∈ batches, ∀ event ∈ batch.events,
        ¬ event.ingestTsUnixMs < BackfillWriter.retentionCutoff
          { retentionWindowMs := max backfill.retentionWindowMs 1 } batch.nowUnixMs →
        event.seqId ∉
          ((InMemoryStorage.withConfig config).mutateAll mutations).retainedSeqIds := by
  have indexed := InMemoryStorage.indexed_mutateAll config mutations
  generalize (InMemoryStorage.withConfig config).mutateAll mutations = initial at *
  constructor
  · intro never batch listed event member recent
    have whole := never.unique batches [] (List.append_nil _).symm
    rw [nodup_retainedSeqIds_iff indexed unique fits] at whole
    exact whole _ (due_applications.mpr ⟨batch, listed, event, member, recent, rfl⟩)
  · intro apart
    refine ⟨?_, ?_, ?_, ?_⟩
    · rintro earlier later rfl
      rw [List.map_append, List.sum_append] at fits
      rw [nodup_retainedSeqIds_iff indexed unique (by omega)]
      rintro seqId due
      obtain ⟨batch, listed, event, member, recent, rfl⟩ := due_applications.mp due
      exact apart batch (List.mem_append_left _ listed) event member recent
    · intro batch listed
      obtain ⟨inserted, backfilled⟩ := backfilled_applyAll initial backfill batches
      refine inserted_foldl_applyEvent _ _ fun event sorted recent => ?_
      rw [backfilled.config] at recent
      exact (backfilled.seen _).mpr ((backfilled.due _).mpr (due_applications.mpr
        ⟨batch, listed, event, mem_sortDeterministic.mp sorted, recent, rfl⟩))
    · rintro earlier batch later rfl
      have size := (stableSort_perm cmpDeterministic batch.events).length_eq
      have bound := sized batch (by simp)
      have counted := total_foldl_applyEvent
        (BackfillWriter.retentionCutoff
          ((BackfillWriter.new initial backfill).applyAll earlier).config batch.nowUnixMs)
        (sortDeterministic batch.events)
        ({}, (BackfillWriter.new initial backfill).applyAll earlier)
        (by rw [sortDeterministic, size]; exact (Nat.zero_add _).trans_le bound)
      rw [sortDeterministic, size] at counted
      exact counted.trans (Nat.zero_add _)
    · intro others rearranged
      rw [Rearranged.applyAll_eq rearranged]

/-- An event that was dropped, for a window of history. -/
def historicalEvent (seqId : UInt64) : EventEnvelope :=
  sampleEnvelope seqId (.txDropped { hash := 7, reason := "expired" })

/-- A window that starts after the event the storage has. -/
theorem neverDuplicates_iff_later :
    NeverDuplicates
      (.new ((InMemoryStorage.withConfig {}).mutateAll [.appendEvent (historicalEvent 1)]) {})
      [⟨[historicalEvent 2, historicalEvent 3], 0⟩] :=
  (neverDuplicates_iff {} [.appendEvent (historicalEvent 1)] {}
    [⟨[historicalEvent 2, historicalEvent 3], 0⟩] (by decide +kernel) (by decide +kernel)
    (by decide +kernel)).mpr (by decide +kernel)

/-- A window with the event the storage has: it is there twice afterwards. -/
theorem neverDuplicates_liveEvent :
    let storage := (InMemoryStorage.withConfig {}).mutateAll [.appendEvent (historicalEvent 1)]
    storage.retainedSeqIds = [1] ∧
      ((BackfillWriter.new storage {}).applyAll [⟨[historicalEvent 1], 0⟩]).storage.retainedSeqIds =
        [1, 1] ∧
      ¬ NeverDuplicates (.new storage {}) [⟨[historicalEvent 1], 0⟩] := by
  have twice : ((BackfillWriter.new ((InMemoryStorage.withConfig {}).mutateAll
      [.appendEvent (historicalEvent 1)]) {}).applyAll
        [⟨[historicalEvent 1], 0⟩]).storage.retainedSeqIds = [1, 1] := by decide +kernel
  refine ⟨by decide +kernel, twice, fun never => ?_⟩
  have unique := never.unique _ [] (List.append_nil _).symm
  rw [twice] at unique
  exact absurd unique (by decide)

end Mempulse.Storage
