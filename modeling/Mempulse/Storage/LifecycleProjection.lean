import Mempulse.Storage.EventIndex
import Mempulse.Replay.Frames
import Mempulse.Replay.Lifecycle

/-!
# The lifecycle table and replay

Each append writes the lifecycle row of the event's hash, whatever is known of the transaction.
Replay gives the hash a status that depends on the state before: a decode replaces the transaction
in its slot, a reorg reopens only what the orphaned block confirmed, a replacement leaves an unknown
hash unknown, and ready and blocked events make a hash pending. The two agree after every event of a
run exactly when no event of the run hits one of these differences.
-/

set_option autoImplicit false

namespace Mempulse.Storage

open Std EventLog Library Replay

/-! ## The status of a row -/

/-- Bytes as hexadecimal text. -/
def formatFixedHex {width : Nat} (bytes : BitVec width) : String := hexText bytes

/-- The status and the reason under which a replayed status is reported. -/
def mapLifecycleStatus : TxLifecycleStatus → String × Option String
  | .pending => ("pending", none)
  | .replaced replacedBy => ("replaced", some (formatFixedHex replacedBy))
  | .dropped reason => ("dropped", some reason)
  | .confirmedProvisional blockNumber blockHash =>
    ("confirmed_provisional",
      some ("block=" ++ toString blockNumber.toNat ++ ":" ++ formatFixedHex blockHash))
  | .confirmedFinal blockNumber blockHash =>
    ("confirmed_final",
      some ("block=" ++ toString blockNumber.toNat ++ ":" ++ formatFixedHex blockHash))

/-- The row of a hash reports its replayed status. A pending transaction that a reorg has reopened
may say so. -/
def Reports (reopened : Prop) : Option TxLifecycleStatus → Option TxLifecycleRecord → Prop
  | none, none => True
  | some status, some row =>
    row.status = (mapLifecycleStatus status).1 ∧
      (row.reason = (mapLifecycleStatus status).2 ∨
        status = .pending ∧ reopened ∧ row.reason = some "reorg_reopened")
  | _, _ => False

section Reports

variable {reopened : Prop} {status other : TxLifecycleStatus} {row : TxLifecycleRecord}

theorem eq_pending_of_mapLifecycleStatus (same : (mapLifecycleStatus status).1 = "pending") :
    status = .pending := by
  cases status with
  | pending => rfl
  | replaced | dropped | confirmedProvisional | confirmedFinal =>
      exact absurd same (by simp [mapLifecycleStatus])

/-- A row reports another status exactly when both are reported alike. -/
theorem Reports.some_iff {later : Prop} (reports : Reports reopened (some status) (some row))
    (ended : other ≠ .pending) :
    Reports later (some other) (some row) ↔ mapLifecycleStatus status = mapLifecycleStatus other := by
  obtain ⟨named, reason⟩ := reports
  constructor
  · rintro ⟨same, explained | ⟨pending, -⟩⟩
    · rcases reason with plain | ⟨rfl, -⟩
      · exact Prod.ext (named.symm.trans same) (plain.symm.trans explained)
      · exact absurd (eq_pending_of_mapLifecycleStatus (same.symm.trans named)) ended
    · exact absurd pending ended
  · intro same
    refine ⟨named.trans (congrArg Prod.fst same), .inl ?_⟩
    rcases reason with plain | ⟨rfl, -⟩
    · exact plain.trans (congrArg Prod.snd same)
    · exact absurd (eq_pending_of_mapLifecycleStatus (congrArg Prod.fst same).symm) ended

theorem Reports.pending_iff {replayed : Option TxLifecycleStatus}
    {projected : Option TxLifecycleRecord} (reports : Reports reopened replayed projected) :
    Reports reopened (some .pending) projected ↔ replayed = some .pending := by
  constructor
  · intro pending
    cases projected with
    | none => exact pending.elim
    | some row =>
        cases replayed with
        | none => exact reports.elim
        | some status =>
            exact congrArg some (eq_pending_of_mapLifecycleStatus (reports.1.symm.trans pending.1))
  · rintro rfl
    exact reports

theorem Reports.mono {later : Prop} {replayed : Option TxLifecycleStatus}
    {projected : Option TxLifecycleRecord} (reports : Reports reopened replayed projected)
    (imp : reopened → later) : Reports later replayed projected := by
  cases replayed with
  | none =>
      cases projected with
      | none => trivial
      | some row => exact reports
  | some status =>
      cases projected with
      | none => exact reports
      | some row =>
          refine ⟨reports.1, reports.2.imp id ?_⟩
          rintro ⟨pending, was, reason⟩
          exact ⟨pending, imp was, reason⟩

/-- What the row of a reorg reports. -/
theorem reports_reorg_iff {replayed : Option TxLifecycleStatus} (named : row.status = "pending")
    (reason : row.reason = some "reorg_reopened") :
    Reports reopened replayed (some row) ↔ replayed = some .pending ∧ reopened := by
  cases replayed with
  | none => exact ⟨False.elim, fun both => by cases both.1⟩
  | some status =>
      constructor
      · rintro ⟨same, explained⟩
        have pending := eq_pending_of_mapLifecycleStatus (same.symm.trans named)
        subst pending
        rcases explained with plain | ⟨-, was, -⟩
        · rw [reason] at plain
          cases plain
        · exact ⟨rfl, was⟩
      · rintro ⟨pending, was⟩
        cases pending
        exact ⟨named, .inr ⟨rfl, was, reason⟩⟩

end Reports

/-! ## The lifecycle table within its capacity -/

section Table

/-- The row of a hash after an event. -/
def rowAfter (event : EventEnvelope) (hash : TxHash) (row : Option TxLifecycleRecord) :
    Option TxLifecycleRecord :=
  match InMemoryStorage.lifecycleUpdate event with
  | some record => if record.hash = hash then some record else row
  | none => row

theorem pushBoundedHashIndexed_of_lt {Row : Type} {table : HashIndexed Row} {value : Row}
    {capacity : Nat} {hashOf : Row → TxHash} (within : table.rows.length < capacity) :
    pushBoundedHashIndexed table value capacity hashOf =
      { rows := table.rows ++ [value]
        counts := table.counts.insert (hashOf value) ((table.counts[hashOf value]?).getD 0 + 1)
        lookup := table.lookup.insert (hashOf value) value } := by
  have evicts : ∀ (pushed : HashIndexed Row) (rows : List Row), rows.length ≤ capacity →
      HashIndexed.evict hashOf capacity pushed rows = { pushed with rows := rows } := by
    intro pushed rows fits
    cases rows with
    | nil => rfl
    | cons row rest => exact if_neg (Nat.not_lt.mpr fits)
  rw [pushBoundedHashIndexed, evicts]
  rw [List.length_append, List.length_singleton]
  exact within

/-- An event writes its row, as long as the table is within its capacity. -/
theorem appendEvent_txLifecycle (storage : InMemoryStorage) (event : EventEnvelope)
    (within : storage.txLifecycle.rows.length < storage.config.tableCapacity) :
    (storage.appendEvent event).txLifecycle.rows.length ≤ storage.txLifecycle.rows.length + 1 ∧
      ∀ hash, (storage.appendEvent event).txLifecycleByHash hash =
        rowAfter event hash (storage.txLifecycleByHash hash) := by
  have projected : (storage.appendEvent event).txLifecycle =
      match InMemoryStorage.lifecycleUpdate event with
      | some record => pushBoundedHashIndexed storage.txLifecycle record
          storage.config.tableCapacity (·.hash)
      | none => storage.txLifecycle := by
    rcases event with ⟨seqId, ingestTsUnixMs, ingestTsMonoNs, sourceId, payload⟩
    cases payload <;> rfl
  unfold InMemoryStorage.txLifecycleByHash rowAfter
  rw [projected]
  cases InMemoryStorage.lifecycleUpdate event with
  | none => exact ⟨Nat.le_succ _, fun hash => rfl⟩
  | some record =>
      dsimp only
      rw [pushBoundedHashIndexed_of_lt within]
      refine ⟨?_, fun hash => getElem?_insert_eq storage.txLifecycle.lookup record.hash hash record⟩
      rw [List.length_append, List.length_singleton]

theorem appendEvents_concat (storage : InMemoryStorage) (before : List EventEnvelope)
    (event : EventEnvelope) :
    storage.appendEvents (before ++ [event]) = (storage.appendEvents before).appendEvent event := by
  simp only [InMemoryStorage.appendEvents, List.foldl_append, List.foldl_cons, List.foldl_nil]

theorem tableCapacity_appendEvents (config : StorageConfig) (appended : List EventEnvelope) :
    ((InMemoryStorage.withConfig config).appendEvents appended).config.tableCapacity =
      max config.tableCapacity 1 := by
  induction appended using List.reverseRecOn with
  | nil => rfl
  | append_singleton appended event ih =>
      have frame := (InMemoryStorage.projectEvent_frame
        ((InMemoryStorage.withConfig config).appendEvents appended) event).1
      rw [appendEvents_concat, ← ih]
      exact congrArg (·.tableCapacity) frame

/-- Every event writes at most one row. -/
theorem txLifecycle_rows_le {config : StorageConfig} {appended : List EventEnvelope}
    (within : appended.length ≤ max config.tableCapacity 1) :
    ((InMemoryStorage.withConfig config).appendEvents appended).txLifecycle.rows.length ≤
      appended.length := by
  induction appended using List.reverseRecOn with
  | nil => exact Nat.le_refl _
  | append_singleton appended event ih =>
      rw [List.length_append, List.length_singleton] at within ⊢
      have bound := ih (by omega)
      have stepped := (appendEvent_txLifecycle
        ((InMemoryStorage.withConfig config).appendEvents appended) event (by
          rw [tableCapacity_appendEvents]
          omega)).1
      rw [appendEvents_concat]
      omega

/-- The table after a run within its capacity. -/
theorem txLifecycleByHash_append {config : StorageConfig} {before : List EventEnvelope}
    (event : EventEnvelope) (within : before.length < max config.tableCapacity 1) (hash : TxHash) :
    ((InMemoryStorage.withConfig config).appendEvents (before ++ [event])).txLifecycleByHash hash =
      rowAfter event hash
        (((InMemoryStorage.withConfig config).appendEvents before).txLifecycleByHash hash) := by
  have rows := txLifecycle_rows_le (Nat.le_of_lt within)
  rw [appendEvents_concat]
  refine (appendEvent_txLifecycle _ event ?_).2 hash
  rw [tableCapacity_appendEvents]
  omega

end Table

/-! ## One event -/

open MempoolState (Orphans Reopened)

/-- Every hash's row reports its replayed status. -/
def Agrees (payloads : List EventPayload) (rows : TxHash → Option TxLifecycleRecord) : Prop :=
  ∀ hash, Reports (Reopened payloads hash) ((MempoolState.replay {} payloads).lifecycle hash)
    (rows hash)

/-- After these payloads, what the event writes is what replay makes of it. -/
def FollowsReplay (payloads : List EventPayload) (payload : EventPayload) : Prop :=
  let state := MempoolState.replay {} payloads
  match payload with
  | .txDecoded decoded =>
    -- The transaction that holds the slot, if another one does, is replaced by this one already.
    ∀ holder status, state.slot decoded.sender decoded.nonce = some holder →
      holder ≠ decoded.hash → state.lifecycle holder = some status →
        mapLifecycleStatus status = mapLifecycleStatus (.replaced decoded.hash)
  | .txReplaced replaced => (state.lifecycle replaced.hash).isSome
  | .txReorged reorged =>
    Orphans state reorged ∨
      state.lifecycle reorged.hash = some .pending ∧ Reopened payloads reorged.hash
  | .txReady ready => state.lifecycle ready.hash = some .pending
  | .txBlocked blocked => state.lifecycle blocked.hash = some .pending
  | _ => True

section Step

variable {payloads : List EventPayload} {rows : TxHash → Option TxLifecycleRecord}

/-- A row and a status that are written together. -/
theorem Reports.update {reopened later : Prop} {replayed : Option TxLifecycleStatus}
    {projected : Option TxLifecycleRecord} {status : TxLifecycleStatus} {row : TxLifecycleRecord}
    {hash other : TxHash} (reports : Reports reopened replayed projected) (imp : reopened → later)
    (named : row.status = (mapLifecycleStatus status).1)
    (reason : row.reason = (mapLifecycleStatus status).2) :
    Reports later (if hash = other then some status else replayed)
      (if hash = other then some row else projected) := by
  split
  · exact ⟨named, .inl reason⟩
  · exact reports.mono imp

/-- A status that becomes pending without a row being written. -/
theorem agrees_pending_iff {later : TxHash → Prop} {state : MempoolState} {hash : TxHash}
    (agrees : ∀ other, Reports (later other) (state.lifecycle other) (rows other)) :
    (∀ other, Reports (later other) (if hash = other then some .pending else state.lifecycle other)
      (rows other)) ↔ state.lifecycle hash = some .pending := by
  constructor
  · intro after
    have here := after hash
    rw [if_pos rfl] at here
    exact (agrees hash).pending_iff.mp here
  · intro pending other
    split
    case isTrue same =>
      rw [← same]
      exact (agrees hash).pending_iff.mpr pending
    case isFalse => exact agrees other

/-- A status that only replaces another one, without a row being written. -/
theorem Reports.replaced_iff {reopened later : Prop} {replayed : Option TxLifecycleStatus}
    {projected : Option TxLifecycleRecord} (reports : Reports reopened replayed projected)
    (imp : reopened → later) (replacedBy : TxHash) :
    Reports later (replayed.map fun _ => .replaced replacedBy) projected ↔
      ∀ status, replayed = some status →
        mapLifecycleStatus status = mapLifecycleStatus (.replaced replacedBy) := by
  cases replayed with
  | none => exact iff_of_true (reports.mono imp) fun status absent => by cases absent
  | some status =>
      cases projected with
      | none => exact reports.elim
      | some row =>
          rw [Option.map_some, reports.some_iff (by simp)]
          constructor
          · rintro same _ ⟨⟩
            exact same
          · exact fun same => same status rfl

theorem agrees_applyDecoded_iff {reopened later : TxHash → Prop} {state : MempoolState}
    (agrees : ∀ hash, Reports (reopened hash) (state.lifecycle hash) (rows hash))
    (imp : ∀ hash, reopened hash → later hash) (decoded : TxDecoded) {row : TxLifecycleRecord}
    (named : row.status = "pending") (reason : row.reason = none) :
    (∀ hash, Reports (later hash) ((state.applyDecoded decoded).2.lifecycle hash)
      (if decoded.hash = hash then some row else rows hash)) ↔
    ∀ holder status, state.slot decoded.sender decoded.nonce = some holder →
      holder ≠ decoded.hash → state.lifecycle holder = some status →
        mapLifecycleStatus status = mapLifecycleStatus (.replaced decoded.hash) := by
  simp only [MempoolState.lifecycle_applyDecoded]
  constructor
  · intro kept holder status held differs known
    have here := kept holder
    rw [if_neg (Ne.symm differs), if_pos held, if_neg (Ne.symm differs)] at here
    exact ((agrees holder).replaced_iff (imp holder) decoded.hash).mp here status known
  · intro follows hash
    split
    case isTrue => exact ⟨named, .inl reason⟩
    case isFalse differs =>
      split
      case isTrue held =>
        exact ((agrees hash).replaced_iff (imp hash) decoded.hash).mpr fun status known =>
          follows hash status held (Ne.symm differs) known
      case isFalse => exact (agrees hash).mono (imp hash)

theorem agrees_applyReplaced_iff {reopened later : TxHash → Prop} {state : MempoolState}
    (agrees : ∀ hash, Reports (reopened hash) (state.lifecycle hash) (rows hash))
    (imp : ∀ hash, reopened hash → later hash) (replaced : TxReplaced) {row : TxLifecycleRecord}
    (named : row.status = "replaced")
    (reason : row.reason = some (formatFixedHex replaced.replacedBy)) :
    (∀ hash, Reports (later hash) ((state.applyReplaced replaced).2.lifecycle hash)
      (if replaced.hash = hash then some row else rows hash)) ↔
    (state.lifecycle replaced.hash).isSome = true := by
  simp only [MempoolState.lifecycle_applyReplaced]
  constructor
  · intro kept
    have here := kept replaced.hash
    rw [if_pos rfl, if_pos rfl] at here
    cases known : state.lifecycle replaced.hash with
    | none =>
        rw [known] at here
        exact here.elim
    | some status => rfl
  · intro known hash
    obtain ⟨status, stored⟩ := Option.isSome_iff_exists.mp known
    split
    case isTrue same =>
      rw [← same, stored]
      exact ⟨named, .inl reason⟩
    case isFalse => exact (agrees hash).mono (imp hash)

/-- A reorg writes its row in any case; replay follows when it reopens the transaction, or when the
row only repeats an earlier reorg's. -/
theorem agrees_applyReorg_iff (agrees : Agrees payloads rows) (reorged : TxReorged)
    {row : TxLifecycleRecord} (named : row.status = "pending")
    (reason : row.reason = some "reorg_reopened") :
    (∀ hash, Reports (Reopened (payloads ++ [.txReorged reorged]) hash)
      (((MempoolState.replay {} payloads).applyReorg reorged).2.lifecycle hash)
      (if reorged.hash = hash then some row else rows hash)) ↔
    FollowsReplay payloads (.txReorged reorged) := by
  by_cases orphans : Orphans (MempoolState.replay {} payloads) reorged
  · obtain ⟨emitted, statuses⟩ := MempoolState.applyReorg_of_orphans orphans
    refine iff_of_true (fun hash => ?_) (.inl orphans)
    rw [statuses, MempoolState.reopened_append]
    split
    case isTrue same =>
      refine ⟨named, .inr ⟨rfl, .inr ⟨reorged.oldBlockHash, reorged.newBlockHash, ?_⟩, reason⟩⟩
      rw [← same]
      change _ ∈ ((MempoolState.replay {} payloads).applyReorg reorged).1
      rw [emitted]
      exact List.mem_singleton_self _
    case isFalse => exact (agrees hash).mono .inl
  · have ignored := MempoolState.applyReorg_of_not_orphans orphans
    have same : ∀ hash, Reopened (payloads ++ [.txReorged reorged]) hash ↔
        Reopened payloads hash := by
      intro hash
      rw [MempoolState.reopened_append, or_iff_left]
      rintro ⟨oldBlockHash, newBlockHash, emitted⟩
      change _ ∈ ((MempoolState.replay {} payloads).applyReorg reorged).1 at emitted
      rw [ignored] at emitted
      cases emitted
    simp only [same, ignored]
    constructor
    · intro kept
      have here := kept reorged.hash
      rw [if_pos rfl] at here
      exact .inr ((reports_reorg_iff named reason).mp here)
    · intro follows hash
      split
      case isTrue here =>
        rw [← here]
        exact (reports_reorg_iff named reason).mpr (follows.resolve_left orphans)
      case isFalse => exact agrees hash

/-- **One event keeps the agreement exactly when its row follows replay.** -/
theorem Agrees.step_iff (agrees : Agrees payloads rows) (event : EventEnvelope) :
    Agrees (payloads ++ [event.payload]) (fun hash => rowAfter event hash (rows hash)) ↔
      FollowsReplay payloads event.payload := by
  rcases event with ⟨seqId, ingestTsUnixMs, ingestTsMonoNs, sourceId, payload⟩
  have imp : ∀ hash, Reopened payloads hash → Reopened (payloads ++ [payload]) hash :=
    fun hash was => (MempoolState.reopened_append payloads payload hash).mpr (.inl was)
  have plain : ∀ hash, Reports (Reopened (payloads ++ [payload]) hash)
      ((MempoolState.replay {} payloads).lifecycle hash) (rows hash) :=
    fun hash => (agrees hash).mono (imp hash)
  -- Drops and confirmations write the status and the row together.
  have retired : ∀ (hash : TxHash) (status : TxLifecycleStatus) (row : TxLifecycleRecord),
      row.status = (mapLifecycleStatus status).1 → row.reason = (mapLifecycleStatus status).2 →
      ∀ other, Reports (Reopened (payloads ++ [payload]) other)
        (((MempoolState.replay {} payloads).retire hash status).lifecycle other)
        (if hash = other then some row else rows other) := by
    intro hash status row named reason other
    rw [MempoolState.lifecycle_retire]
    exact (agrees other).update (imp other) named reason
  unfold Agrees
  rw [MempoolState.replay_append]
  cases payload with
  | txDecoded decoded => exact agrees_applyDecoded_iff agrees imp decoded rfl rfl
  | txDropped dropped =>
      exact iff_of_true (retired dropped.hash (.dropped dropped.reason) _ rfl rfl) trivial
  | txConfirmedProvisional confirmed =>
      exact iff_of_true (retired confirmed.hash
        (.confirmedProvisional confirmed.blockNumber confirmed.blockHash) _ rfl rfl) trivial
  | txConfirmedFinal confirmed =>
      exact iff_of_true (retired confirmed.hash
        (.confirmedFinal confirmed.blockNumber confirmed.blockHash) _ rfl rfl) trivial
  | txReplaced replaced => exact agrees_applyReplaced_iff agrees imp replaced rfl rfl
  | txReorged reorged => exact agrees_applyReorg_iff agrees reorged rfl rfl
  | txReady ready =>
      rw [FollowsReplay, ← agrees_pending_iff plain]
      simp only [← MempoolState.lifecycle_applyReady]
      rfl
  | txBlocked blocked =>
      rw [FollowsReplay, ← agrees_pending_iff plain]
      simp only [← MempoolState.lifecycle_applyBlocked]
      rfl
  | txSeen | txFetched | candidateQueued | simDispatched | oppDetected | simCompleted
  | assemblyDecisionApplied | bundleSubmitted => exact iff_of_true plain trivial

end Step

/-! ## Runs -/

/-- The table after a list of appends. -/
def lifecycleRows (config : StorageConfig) (appended : List EventEnvelope) (hash : TxHash) :
    Option TxLifecycleRecord :=
  ((InMemoryStorage.withConfig config).appendEvents appended).txLifecycleByHash hash

theorem currentLifecycle_of_increasing {events : List EventEnvelope}
    (increasing : events.Pairwise fun earlier later => earlier.seqId.toNat < later.seqId.toNat)
    (hash : TxHash) :
    currentLifecycle events hash =
      (MempoolState.replay {} (events.map (·.payload))).lifecycle hash := by
  rw [currentLifecycle, sortDeterministic_of_increasing increasing]

/-- **The lifecycle table agrees with replay throughout a run exactly when every event of the run
follows replay.** -/
theorem lifecycleProjection_iff (config : StorageConfig) {events : List EventEnvelope}
    (increasing : events.Pairwise fun earlier later => earlier.seqId.toNat < later.seqId.toNat)
    (within : events.length ≤ max config.tableCapacity 1) :
    (∀ before after, events = before ++ after → ∀ hash,
      Reports (Reopened (before.map (·.payload)) hash) (currentLifecycle before hash)
        (lifecycleRows config before hash)) ↔
      ∀ before event after, events = before ++ event :: after →
        FollowsReplay (before.map (·.payload)) event.payload := by
  have replayed : ∀ before after, events = before ++ after → ∀ hash,
      currentLifecycle before hash =
        (MempoolState.replay {} (before.map (·.payload))).lifecycle hash := by
    rintro before after rfl hash
    exact currentLifecycle_of_increasing (List.pairwise_append.mp increasing).1 hash
  have next : ∀ before event after, events = before ++ event :: after →
      lifecycleRows config (before ++ [event]) =
        fun hash => rowAfter event hash (lifecycleRows config before hash) := by
    rintro before event after rfl
    funext hash
    apply txLifecycleByHash_append
    rw [List.length_append, List.length_cons] at within
    omega
  have agreement : (∀ before after, events = before ++ after →
      Agrees (before.map (·.payload)) (lifecycleRows config before)) ↔
        ∀ before event after, events = before ++ event :: after →
          FollowsReplay (before.map (·.payload)) event.payload := by
    apply forall_front_iff
    · exact fun hash => trivial
    · intro before event after whole agrees
      rw [next before event after whole, List.map_append]
      exact agrees.step_iff event
  rw [← agreement]
  refine forall_congr' fun before => forall_congr' fun after => forall_congr' fun whole =>
    forall_congr' fun hash => ?_
  rw [replayed before after whole]

/-- Two transactions of one sender and one nonce are decoded; no event says that the second one
replaces the first. -/
def decodedTwice : List EventEnvelope :=
  [sampleEnvelope 1 (.txDecoded (Scheduler.sampleValidatedTx 10 1 0 100).decoded),
    sampleEnvelope 2 (.txDecoded (Scheduler.sampleValidatedTx 11 1 0 200).decoded)]

theorem decodedTwice_lifecycleProjection_iff :
    (∀ before after, decodedTwice = before ++ after → ∀ hash,
      Reports (Reopened (before.map (·.payload)) hash) (currentLifecycle before hash)
        (lifecycleRows {} before hash)) ↔
      ∀ before event after, decodedTwice = before ++ event :: after →
        FollowsReplay (before.map (·.payload)) event.payload :=
  lifecycleProjection_iff {} (by decide) (by decide)

/-- Replay has replaced the first transaction, and its row still says pending. -/
theorem decodedTwice_not_reports :
    ¬ ∀ hash, Reports (Reopened (decodedTwice.map (·.payload)) hash)
      (currentLifecycle decodedTwice hash) (lifecycleRows {} decodedTwice hash) := by
  intro reports
  have here := reports 10
  have replayed : currentLifecycle decodedTwice 10 = some (.replaced 11) := by decide +kernel
  have projected : (lifecycleRows {} decodedTwice 10).map (·.status) = some "pending" := by
    decide +kernel
  obtain ⟨row, stored, named⟩ := Option.map_eq_some_iff.mp projected
  rw [replayed, stored] at here
  have same := named.symm.trans here.1
  exact absurd same (by simp [mapLifecycleStatus])

end Mempulse.Storage
