import Mempulse.Library.Splits
import Mempulse.Storage.EventIndex

/-!
# Runs of the storage writer

The single writer numbers each event, appends it to the write-ahead log, projects it into memory and
puts it in the batch for the sink. A flush takes the batch out of memory, and the log is cleared as a
whole after a flush that the sink accepts. A restart begins with an empty batch and recovers memory
and the sequencer from the log. Writes to the log's files succeed here. A record carries a ticket,
its position among all appends of the run, so that records with equal contents stay apart.
-/

set_option autoImplicit false

namespace Mempulse.Storage

open EventLog Library Std

/-- A record of the log; the ticket is ghost. -/
structure WalRecord where
  ticket : Nat
  event : EventEnvelope
  deriving DecidableEq

/-- The writer task with its log. The last four fields are ghost. -/
structure Writer where
  config : StorageConfig
  wal : List WalRecord := []
  batch : List WalRecord := []
  storage : InMemoryStorage := InMemoryStorage.withConfig config
  sequencer : GlobalSequencer := .fromLatestSeqId none
  /-- Every record that was appended, over all processes. -/
  appended : List WalRecord := []
  /-- The records of the batches that went to the sink. -/
  sent : List WalRecord := []
  /-- The records of the batches that the sink accepted. -/
  accepted : List WalRecord := []
  /-- The process was restarted after the last append. -/
  restarted : Bool := false

namespace Writer

/-! ## Steps -/

/-- Numbers an event, writes it ahead and puts it into the batch. -/
def appendNumbered (writer : Writer) (event : EventEnvelope) : Writer :=
  let assigned := writer.sequencer.assign event
  let record : WalRecord := { ticket := writer.appended.length, event := assigned.1 }
  { writer with
    wal := writer.wal ++ [record]
    batch := writer.batch ++ [record]
    storage := writer.storage.appendEvent assigned.1
    sequencer := assigned.2
    appended := writer.appended ++ [record]
    restarted := false }

/-- The writer after an operation. -/
def applyWriteOp (writer : Writer) : StorageWriteOp → Writer
  | .appendEvent event => writer.appendNumbered event
  | .appendPayload sourceId payload ingestTsUnixMs ingestTsMonoNs =>
    writer.appendNumbered
      { seqId := 0, ingestTsUnixMs := ingestTsUnixMs, ingestTsMonoNs := ingestTsMonoNs
        sourceId := sourceId, payload := payload }
  | .upsertTxSeen record => { writer with storage := writer.storage.upsertTxSeen record }
  | .upsertTxFull record => { writer with storage := writer.storage.upsertTxFull record }
  | .upsertTxFeatures record => { writer with storage := writer.storage.upsertTxFeatures record }
  | .upsertOpportunity record => { writer with storage := writer.storage.upsertOpportunity record }
  | .upsertTxLifecycle record => { writer with storage := writer.storage.upsertTxLifecycle record }
  | .upsertPeerStats record => { writer with storage := writer.storage.upsertPeerStats record }
  | .writeSchedulerSnapshot snapshot =>
    { writer with storage := writer.storage.writeSchedulerSnapshot snapshot }

/-- The batch leaves memory and goes to the sink. -/
def deliver (writer : Writer) (accepts : Bool) : Writer :=
  { writer with
    batch := []
    sent := writer.sent ++ writer.batch
    accepted := if accepts then writer.accepted ++ writer.batch else writer.accepted }

/-- Delivers the batch; the log is cleared when the sink accepts. -/
def flushBatch (writer : Writer) (accepts : Bool) : Writer :=
  if writer.batch.isEmpty then writer
  else
    let delivered := writer.deliver accepts
    if accepts then { delivered with wal := [] } else delivered

/-- `recover_events` of a cleanly written log. -/
def recoverEvents (wal : List WalRecord) : List EventEnvelope :=
  stableSort (compareOn (·.seqId)) (wal.map (·.event))

/-- A new process over the log of the old one. -/
def restart (writer : Writer) : Writer :=
  let storage := (InMemoryStorage.withConfig writer.config).appendEvents (recoverEvents writer.wal)
  { writer with
    batch := []
    storage := storage
    sequencer := .fromLatestSeqId storage.latestSeqId
    restarted := true }

/-- A crash in the middle of a flush, after the sink has decided; when it has accepted, the removal
of the log's segments has come through some of the records. -/
def crashInFlush (writer : Writer) (accepts : Bool) (cleared : Nat) : Writer :=
  if writer.batch.isEmpty then writer.restart
  else
    let delivered := writer.deliver accepts
    restart (if accepts then { delivered with wal := delivered.wal.drop cleared } else delivered)

end Writer

/-- What happens to the writer: an operation of its queue, a flush that the sink accepts or rejects,
a crash and a restart, between the operations or during a flush. -/
inductive WriterStep where
  | apply (op : StorageWriteOp)
  | flush (accepts : Bool)
  | crash
  | crashInFlush (accepts : Bool) (cleared : Nat)
  deriving DecidableEq

namespace Writer

/-- The writer after a step. -/
def step (writer : Writer) : WriterStep → Writer
  | .apply op => writer.applyWriteOp op
  | .flush accepts => writer.flushBatch accepts
  | .crash => writer.restart
  | .crashInFlush accepts cleared => writer.crashInFlush accepts cleared

/-- The writer after a run from an empty log. -/
def run (config : StorageConfig) (steps : List WriterStep) : Writer :=
  steps.foldl step { config := config }

theorem run_concat (config : StorageConfig) (steps : List WriterStep) (last : WriterStep) :
    run config (steps ++ [last]) = (run config steps).step last := by
  simp only [run, List.foldl_append, List.foldl_cons, List.foldl_nil]

/-! ## What an operation does -/

/-- An operation appends its envelope, or leaves the log and the numbering alone. -/
theorem applyWriteOp_cases (writer : Writer) (op : StorageWriteOp) :
    (∃ event, op.envelope = some event ∧ writer.applyWriteOp op = writer.appendNumbered event) ∨
      (op.envelope = none ∧
        ∃ storage, writer.applyWriteOp op = { writer with storage := storage }) := by
  cases op with
  | appendEvent event => exact .inl ⟨event, rfl, rfl⟩
  | appendPayload sourceId payload ingestTsUnixMs ingestTsMonoNs => exact .inl ⟨_, rfl, rfl⟩
  | upsertTxSeen | upsertTxFull | upsertTxFeatures | upsertOpportunity | upsertTxLifecycle
  | upsertPeerStats | writeSchedulerSnapshot => exact .inr ⟨rfl, _, rfl⟩

/-! ## Recovery -/

/-- The latest sequence id of recovered storage is the greatest in the log, whatever the capacity. -/
theorem latestSeqId_restart (writer : Writer) (seqId : UInt64) :
    writer.restart.storage.latestSeqId = some seqId ↔
      (∃ record ∈ writer.wal, record.event.seqId = seqId) ∧
        ∀ record ∈ writer.wal, record.event.seqId ≤ seqId := by
  have ordered : Ordered (compareOn fun event : EventEnvelope => event.seqId)
      (recoverEvents writer.wal) := @ordered_stableSort _ _ (inferInstance) _
  have sorted : (recoverEvents writer.wal).Pairwise fun earlier later =>
      earlier.seqId ≤ later.seqId :=
    ordered.imp fun below => Std.isLE_compare.mp below
  have listed : ∀ event, event ∈ recoverEvents writer.wal ↔
      ∃ record ∈ writer.wal, record.event = event := by
    intro event
    rw [recoverEvents, (stableSort_perm _ _).mem_iff, List.mem_map]
  refine (InMemoryStorage.latestSeqId_appendEvents writer.config sorted seqId).trans ?_
  simp only [listed, exists_exists_and_eq_and, forall_exists_index, and_imp,
    forall_apply_eq_imp_iff₂]

/-! ## The invariant -/

/-- The sequence id of the last append. -/
def lastSeqId (writer : Writer) : Option UInt64 :=
  writer.appended.getLast?.map (·.event.seqId)

/-- How the log, the batch and the sequencer stand to the appends of the run. -/
structure WriterInvariant (writer : Writer) : Prop where
  tickets : writer.appended.map (·.ticket) = List.range writer.appended.length
  positive : ∀ record ∈ writer.appended, 0 < record.event.seqId.toNat
  wal_appended : writer.wal.Sublist writer.appended
  sent_appended : (writer.sent ++ writer.batch).Sublist writer.appended
  accepted_sent : ∀ record ∈ writer.accepted, record ∈ writer.sent
  running : writer.restarted = false → writer.sequencer = .fromLatestSeqId writer.lastSeqId
  recovered : writer.restarted = true → writer.batch = [] ∧
    ∃ latestSeqId, writer.sequencer = .fromLatestSeqId latestSeqId ∧
      ∀ seqId, latestSeqId = some seqId ↔
        (∃ record ∈ writer.wal, record.event.seqId = seqId) ∧
          ∀ record ∈ writer.wal, record.event.seqId ≤ seqId

/-- The id that is assigned after a latest one. -/
theorem toNat_assign (latestSeqId : Option UInt64) (event : EventEnvelope) :
    ((GlobalSequencer.fromLatestSeqId latestSeqId).assign event).1.seqId.toNat =
      max (saturatingAdd u64Max ((latestSeqId.map UInt64.toNat).getD 0) 1) 1 := by
  have bound := saturatingAdd_le_bound u64Max ((latestSeqId.map UInt64.toNat).getD 0) 1
  apply UInt64.toNat_ofNat_of_lt'
  change max _ 1 < 2 ^ 64
  unfold u64Max at bound ⊢
  omega

/-- The sequencer continues after the id it has just assigned. -/
theorem assign_fromLatestSeqId (latestSeqId : Option UInt64) (event : EventEnvelope) :
    ((GlobalSequencer.fromLatestSeqId latestSeqId).assign event).2 =
      .fromLatestSeqId (some ((GlobalSequencer.fromLatestSeqId latestSeqId).assign event).1.seqId) := by
  have next : ∀ seqId : UInt64, GlobalSequencer.fromLatestSeqId (some seqId) =
      ⟨max (saturatingAdd u64Max seqId.toNat 1) 1⟩ := fun seqId => rfl
  rw [next, toNat_assign]
  change (⟨saturatingAdd u64Max (max _ 1) 1⟩ : GlobalSequencer) = _
  congr 1
  unfold saturatingAdd u64Max
  omega

section Invariant

variable {writer : Writer}

theorem WriterInvariant.empty (config : StorageConfig) : WriterInvariant { config := config } where
  tickets := rfl
  positive record member := by cases member
  wal_appended := List.Sublist.refl _
  sent_appended := List.Sublist.refl _
  accepted_sent record member := by cases member
  running _ := rfl
  recovered restarted := by cases restarted

/-- The sequencer always continues after some id. -/
theorem WriterInvariant.continues (invariant : WriterInvariant writer) :
    ∃ latestSeqId, writer.sequencer = .fromLatestSeqId latestSeqId := by
  cases restarted : writer.restarted with
  | false => exact ⟨_, invariant.running restarted⟩
  | true =>
      obtain ⟨-, latestSeqId, sequencer, -⟩ := invariant.recovered restarted
      exact ⟨latestSeqId, sequencer⟩

theorem WriterInvariant.appendNumbered (invariant : WriterInvariant writer) (event : EventEnvelope) :
    WriterInvariant (writer.appendNumbered event) where
  tickets := by
    change (writer.appended ++ [(_ : WalRecord)]).map (·.ticket) =
      List.range (writer.appended ++ [_]).length
    rw [List.map_append, invariant.tickets, List.length_append, List.length_singleton,
      List.range_succ, List.map_singleton]
  positive record member := by
    rcases List.mem_append.mp member with earlier | new
    · exact invariant.positive record earlier
    · obtain ⟨latestSeqId, sequencer⟩ := invariant.continues
      rw [List.mem_singleton.mp new, sequencer, toNat_assign]
      exact Nat.lt_of_lt_of_le Nat.one_pos (Nat.le_max_right _ _)
  wal_appended := invariant.wal_appended.append (List.Sublist.refl _)
  sent_appended := by
    change (writer.sent ++ (writer.batch ++ [_])).Sublist (writer.appended ++ [_])
    rw [← List.append_assoc]
    exact invariant.sent_appended.append (List.Sublist.refl _)
  accepted_sent := invariant.accepted_sent
  running _ := by
    obtain ⟨latestSeqId, sequencer⟩ := invariant.continues
    change (writer.sequencer.assign event).2 = .fromLatestSeqId (lastSeqId _)
    rw [sequencer, assign_fromLatestSeqId, lastSeqId]
    simp only [Writer.appendNumbered, List.getLast?_concat, Option.map_some, sequencer]
  recovered restarted := by cases restarted

theorem WriterInvariant.deliver (invariant : WriterInvariant writer) (accepts : Bool) :
    WriterInvariant (writer.deliver accepts) where
  tickets := invariant.tickets
  positive := invariant.positive
  wal_appended := invariant.wal_appended
  sent_appended := by
    change ((writer.sent ++ writer.batch) ++ []).Sublist writer.appended
    rw [List.append_nil]
    exact invariant.sent_appended
  accepted_sent := by
    intro record member
    change record ∈ writer.sent ++ writer.batch
    cases accepts with
    | false => exact List.mem_append_left _ (invariant.accepted_sent record member)
    | true =>
        rcases List.mem_append.mp member with earlier | new
        · exact List.mem_append_left _ (invariant.accepted_sent record earlier)
        · exact List.mem_append_right _ new
  running := invariant.running
  recovered restarted := ⟨rfl, (invariant.recovered restarted).2⟩

theorem WriterInvariant.project (invariant : WriterInvariant writer) (storage : InMemoryStorage) :
    WriterInvariant { writer with storage := storage } where
  tickets := invariant.tickets
  positive := invariant.positive
  wal_appended := invariant.wal_appended
  sent_appended := invariant.sent_appended
  accepted_sent := invariant.accepted_sent
  running := invariant.running
  recovered := invariant.recovered

/-- A restart finds some of the log. -/
theorem WriterInvariant.restart (invariant : WriterInvariant writer) {wal : List WalRecord}
    (left : wal.Sublist writer.wal) : WriterInvariant { writer with wal := wal }.restart where
  tickets := invariant.tickets
  positive := invariant.positive
  wal_appended := left.trans invariant.wal_appended
  sent_appended := by
    change (writer.sent ++ []).Sublist writer.appended
    rw [List.append_nil]
    exact (List.sublist_append_left _ _).trans invariant.sent_appended
  accepted_sent := invariant.accepted_sent
  running restarted := by cases restarted
  recovered _ := ⟨rfl, _, rfl, latestSeqId_restart _⟩

/-- Every step keeps the invariant. -/
theorem WriterInvariant.step (invariant : WriterInvariant writer) (next : WriterStep) :
    WriterInvariant (writer.step next) := by
  cases next with
  | apply op =>
      change WriterInvariant (writer.applyWriteOp op)
      rcases applyWriteOp_cases writer op with ⟨event, -, appended⟩ | ⟨-, storage, projected⟩
      · rw [appended]
        exact invariant.appendNumbered event
      · rw [projected]
        exact invariant.project storage
  | flush accepts =>
      change WriterInvariant (writer.flushBatch accepts)
      unfold flushBatch
      split
      case isTrue => exact invariant
      case isFalse filled =>
        have delivered := invariant.deliver accepts
        have processing : writer.restarted = false := by
          cases restarted : writer.restarted with
          | false => rfl
          | true =>
              rw [(invariant.recovered restarted).1] at filled
              exact absurd rfl filled
        cases accepts with
        | false => exact delivered
        | true =>
            exact
              { tickets := delivered.tickets
                positive := delivered.positive
                wal_appended := List.nil_sublist _
                sent_appended := delivered.sent_appended
                accepted_sent := delivered.accepted_sent
                running := delivered.running
                recovered := fun restarted => by
                  change writer.restarted = true at restarted
                  rw [processing] at restarted
                  cases restarted }
  | crash => exact invariant.restart (List.Sublist.refl _)
  | crashInFlush accepts cleared =>
      change WriterInvariant (writer.crashInFlush accepts cleared)
      unfold crashInFlush
      split
      case isTrue => exact invariant.restart (List.Sublist.refl _)
      case isFalse =>
        have delivered := invariant.deliver accepts
        cases accepts with
        | false => exact delivered.restart (List.Sublist.refl _)
        | true => exact delivered.restart (List.drop_sublist _ _)

theorem WriterInvariant.run (config : StorageConfig) (steps : List WriterStep) :
    WriterInvariant (run config steps) := by
  induction steps using List.reverseRecOn with
  | nil => exact .empty config
  | append_singleton steps last ih =>
      rw [run_concat]
      exact ih.step last

theorem WriterInvariant.appended_nodup (invariant : WriterInvariant writer) :
    writer.appended.Nodup := by
  have distinct : (writer.appended.map (·.ticket)).Nodup := invariant.tickets ▸ List.nodup_range
  exact distinct.of_map

end Invariant

/-! ## Sequence ids -/

section SequenceIds

variable {writer : Writer}

/-- The ids of the appended records are strictly increasing. -/
def Increasing (writer : Writer) : Prop :=
  writer.appended.Pairwise fun earlier later =>
    earlier.event.seqId.toNat < later.event.seqId.toNat

/-- The sequence ids of the run are strictly increasing, and no two events that went to the sink
share one. -/
def SeqIdsIncrease (writer : Writer) : Prop :=
  Increasing writer ∧ (writer.sent.map (·.event.seqId)).Nodup

/-- An operation that appends finds the last id below the greatest one, and the last record in the
log if the process was restarted since. -/
def Continues (writer : Writer) (op : StorageWriteOp) : Prop :=
  op.envelope.isSome = true → ∀ last ∈ writer.appended.getLast?,
    last.event.seqId.toNat < u64Max ∧ (writer.restarted = true → last ∈ writer.wal)

/-- Events that went to the sink have ids of their own when the appended ones have. -/
theorem WriterInvariant.sent_nodup (invariant : WriterInvariant writer)
    (increasing : Increasing writer) :
    (writer.sent.map (·.event.seqId)).Nodup := by
  have sent := (List.sublist_append_left writer.sent writer.batch).trans invariant.sent_appended
  refine List.pairwise_map.mpr ((increasing.sublist sent).imp fun below same => ?_)
  rw [same] at below
  exact Nat.lt_irrefl _ below

/-- The next id is above the last one exactly when the writer continues. -/
theorem WriterInvariant.lt_assign_iff (invariant : WriterInvariant writer)
    (increasing : Increasing writer)
    {front : List WalRecord} {last : WalRecord} (shape : writer.appended = front ++ [last])
    (event : EventEnvelope) :
    last.event.seqId.toNat < (writer.sequencer.assign event).1.seqId.toNat ↔
      last.event.seqId.toNat < u64Max ∧ (writer.restarted = true → last ∈ writer.wal) := by
  have bound := last.event.seqId.toNat_lt
  cases restarted : writer.restarted with
  | false =>
      have latest : writer.lastSeqId = some last.event.seqId := by
        rw [lastSeqId, shape, List.getLast?_concat, Option.map_some]
      rw [invariant.running restarted, latest, toNat_assign, Option.map_some, Option.getD_some]
      simp only [Bool.false_eq_true, false_imp_iff, and_true]
      unfold saturatingAdd u64Max
      omega
  | true =>
      obtain ⟨-, latestSeqId, sequencer, greatest⟩ := invariant.recovered restarted
      have positive := invariant.positive last (by rw [shape]; simp)
      rw [Increasing, shape] at increasing
      have below : ∀ record ∈ writer.wal,
          record.event.seqId.toNat < last.event.seqId.toNat ∨ record = last := by
        intro record member
        have listed := invariant.wal_appended.subset member
        rw [shape] at listed
        rcases List.mem_append.mp listed with earlier | final
        · exact .inl ((List.pairwise_append.mp increasing).2.2 record earlier last (by simp))
        · exact .inr (List.mem_singleton.mp final)
      rw [sequencer, toNat_assign]
      simp only [forall_const]
      constructor
      · intro above
        cases latestSeqId with
        | none =>
            simp only [Option.map_none, Option.getD_none] at above
            unfold saturatingAdd u64Max at above
            omega
        | some seqId =>
            obtain ⟨⟨record, member, rfl⟩, -⟩ := (greatest seqId).mp rfl
            simp only [Option.map_some, Option.getD_some] at above
            rcases below record member with smaller | rfl
            · unfold saturatingAdd u64Max at above
              omega
            · refine ⟨?_, member⟩
              unfold saturatingAdd at above
              unfold u64Max at above ⊢
              omega
      · rintro ⟨small, member⟩
        have latest : latestSeqId = some last.event.seqId := by
          refine (greatest _).mpr ⟨⟨last, member, rfl⟩, fun record inLog => ?_⟩
          apply UInt64.le_iff_toNat_le.mpr
          rcases below record inLog with smaller | rfl
          · exact Nat.le_of_lt smaller
          · exact Nat.le_refl _
        rw [latest, Option.map_some, Option.getD_some]
        unfold saturatingAdd
        unfold u64Max at small ⊢
        omega

/-- Appending keeps the ids increasing exactly when the writer continues. -/
theorem WriterInvariant.increasing_appendNumbered_iff (invariant : WriterInvariant writer)
    (increasing : Increasing writer) (event : EventEnvelope) :
    Increasing (writer.appendNumbered event) ↔
      ∀ last ∈ writer.appended.getLast?,
        last.event.seqId.toNat < u64Max ∧ (writer.restarted = true → last ∈ writer.wal) := by
  change (writer.appended ++ [_]).Pairwise _ ↔ _
  rw [List.pairwise_append]
  unfold Increasing at increasing
  rcases List.eq_nil_or_concat' writer.appended with empty | ⟨front, last, shape⟩
  · rw [empty]
    simp
  · have assigned := invariant.lt_assign_iff increasing shape event
    have before := increasing
    rw [shape] at before ⊢
    simp only [List.getLast?_concat, Option.mem_some_iff, forall_eq', List.mem_singleton,
      forall_eq, List.pairwise_singleton, true_and, before]
    rw [← assigned]
    constructor
    · exact fun above => above last (by simp)
    · intro above record member
      rcases List.mem_append.mp member with earlier | final
      · exact Nat.lt_trans ((List.pairwise_append.mp before).2.2 record earlier last (by simp)) above
      · rw [List.mem_singleton.mp final]
        exact above

theorem appended_sublist_step (writer : Writer) (next : WriterStep) :
    writer.appended.Sublist (writer.step next).appended := by
  cases next with
  | apply op =>
      change writer.appended.Sublist (writer.applyWriteOp op).appended
      rcases applyWriteOp_cases writer op with ⟨event, -, appended⟩ | ⟨-, storage, projected⟩
      · rw [appended]
        exact List.sublist_append_left _ _
      · rw [projected]
  | flush accepts =>
      change writer.appended.Sublist (writer.flushBatch accepts).appended
      unfold flushBatch
      cases accepts <;> split <;> exact List.Sublist.refl _
  | crash => exact List.Sublist.refl _
  | crashInFlush accepts cleared =>
      change writer.appended.Sublist (writer.crashInFlush accepts cleared).appended
      unfold crashInFlush
      cases accepts <;> split <;> exact List.Sublist.refl _

/-- A step keeps the ids increasing exactly when its append, if it is one, continues. -/
theorem WriterInvariant.increasing_step_iff (invariant : WriterInvariant writer)
    (increasing : Increasing writer) (next : WriterStep) :
    Increasing (writer.step next) ↔ ∀ op, next = .apply op → writer.Continues op := by
  cases next with
  | apply op =>
      simp only [WriterStep.apply.injEq, forall_eq']
      change Increasing (writer.applyWriteOp op) ↔ _
      unfold Continues
      rcases applyWriteOp_cases writer op with
        ⟨event, numbered, appended⟩ | ⟨silent, storage, projected⟩
      · rw [appended, numbered, invariant.increasing_appendNumbered_iff increasing event]
        exact ⟨fun continued _ => continued, fun continued => continued rfl⟩
      · rw [projected, silent]
        exact iff_of_true increasing fun appends => by cases appends
  | flush accepts =>
      refine iff_of_true ?_ fun op other => by cases other
      change Increasing (writer.flushBatch accepts)
      unfold flushBatch
      cases accepts <;> split <;> exact increasing
  | crash => exact iff_of_true increasing fun op other => by cases other
  | crashInFlush accepts cleared =>
      refine iff_of_true ?_ fun op other => by cases other
      change Increasing (writer.crashInFlush accepts cleared)
      unfold crashInFlush
      cases accepts <;> split <;> exact increasing

/-- **The sequence ids of a run are strictly increasing exactly when the run's appends continue**
below the greatest id and after restarts that still found the last record in the log. -/
theorem seqIdsIncrease_iff (config : StorageConfig) (steps : List WriterStep) :
    SeqIdsIncrease (run config steps) ↔
      ∀ before op after, steps = before ++ .apply op :: after →
        (run config before).Continues op := by
  refine (and_iff_left_of_imp (WriterInvariant.run config steps).sent_nodup).trans ?_
  induction steps using List.reverseRecOn with
  | nil =>
      refine iff_of_true List.Pairwise.nil fun before op after whole => ?_
      simp at whole
  | append_singleton steps last ih =>
      have step := fun increasing =>
        (WriterInvariant.run config steps).increasing_step_iff increasing last
      rw [run_concat]
      constructor
      · intro increasing before op after whole
        have earlier : Increasing (run config steps) :=
          increasing.sublist (appended_sublist_step _ _)
        rcases split_append_singleton whole with ⟨rfl, here, rfl⟩ | ⟨middle, rfl, shorter⟩
        · exact (step earlier).mp increasing op here
        · exact ih.mp earlier before op middle shorter
      · intro continues
        have earlier : Increasing (run config steps) := by
          refine ih.mpr fun before op after whole => continues before op (after ++ [last]) ?_
          rw [whole, List.append_assoc]
          rfl
        refine (step earlier).mpr fun op here => continues steps op [] ?_
        rw [here]

/-- An event is appended, its batch is accepted and the log cleared; after a restart another event is
appended. -/
def flushedThenRestarted : List WriterStep :=
  [.apply (.appendPayload "test" (.txSeen { hash := 10, peerId := "peer", seenAtUnixMs := 0
                                            seenAtMonoNs := 0 }) 0 0),
    .flush true,
    .crash,
    .apply (.appendPayload "test" (.txSeen { hash := 11, peerId := "peer", seenAtUnixMs := 0
                                             seenAtMonoNs := 0 }) 0 0),
    .flush true]

/-- Both events go to the sink under the id 1. -/
theorem flushedThenRestarted_not_seqIdsIncrease :
    ¬ SeqIdsIncrease (run {} flushedThenRestarted) := by
  rintro ⟨-, distinct⟩
  have sent : (run {} flushedThenRestarted).sent.map (·.event.seqId) = [1, 1] := by decide +kernel
  rw [sent] at distinct
  simp at distinct

end SequenceIds

end Writer

end Mempulse.Storage
