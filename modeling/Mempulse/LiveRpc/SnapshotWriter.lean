import Mempulse.LiveRpc.Chronicle

/-!
# The snapshot writer

One worker, the storage writer and the scheduler snapshot writer take their steps in any order. The
snapshot writer reads the watermark before it takes the snapshot, so the events above the watermark
are all that the snapshot may lack, and more: the snapshot has some of them already, and it can have
admissions whose events the worker has not enqueued yet. Restoring it gives the live scheduler back
whenever the writer has drained its queue and the worker has enqueued what it decoded.
-/

set_option autoImplicit false

namespace Mempulse.LiveRpc

open Std EventLog Library Scheduler Storage Replay Rehydration

/-! ## The system -/

/-- Where the snapshot writer stands in the loop of `spawn_scheduler_snapshot_writer`. -/
inductive SnapshotPhase where
  | idle
  /-- It holds a permit of the storage queue. -/
  | reserved
  | watermarked (eventSeqHi : UInt64)
  | captured (snapshot : PersistedSchedulerSnapshot)
  deriving DecidableEq

/-- The worker, the storage writer, which has taken a number of the operations enqueued, and the
snapshot writer. `outstanding` is bookkeeping that no step reads: the events of the worker's last
admission that it has not enqueued yet. -/
structure SnapshotRuntime where
  live : LiveState
  worker : Pipeline
  outstanding : List EventPayload := []
  taken : Nat := 0
  writer : Writer
  snapshotter : SnapshotPhase := .idle

/-- What happens next: the worker makes its next call, the storage writer takes the next operation
or flushes its batch, or the snapshot writer goes on, reading these clocks. -/
inductive SnapshotStep where
  | worker
  | write
  | flush (accepts : Bool)
  | snapshot (capturedAtUnixMs : Int64) (capturedAtMonoNs : UInt64)
  deriving DecidableEq

namespace SnapshotRuntime

/-- A runtime that has seen nothing, with the arrivals ahead of its worker. -/
def start (storageConfig : StorageConfig) (nextSeqId : UInt64) (arrivals : List Arrival) :
    SnapshotRuntime where
  live := { nextSeqId := nextSeqId }
  worker := processArrivals arrivals
  writer := { config := storageConfig }

/-- A call of the worker, a step of the storage writer, or one of the snapshot task. -/
def step (config : SchedulerConfig) (runtime : SnapshotRuntime) : SnapshotStep → SnapshotRuntime
  | .worker =>
    match runtime.worker with
    | .done _ => runtime
    | .call op next =>
      let served := serve config runtime.live op
      { runtime with
        live := served.2
        worker := next served.1
        outstanding := admissionProtocol.advance runtime.outstanding op served.1 }
  | .write =>
    match runtime.live.storageQueue[runtime.taken]? with
    | none => runtime
    | some op =>
      { runtime with taken := runtime.taken + 1, writer := runtime.writer.applyWriteOp op }
  | .flush accepts => { runtime with writer := runtime.writer.flushBatch accepts }
  | .snapshot capturedAtUnixMs capturedAtMonoNs =>
    match runtime.snapshotter with
    | .idle => { runtime with snapshotter := .reserved }
    | .reserved =>
      { runtime with snapshotter := .watermarked (runtime.writer.storage.latestSeqId.getD 0) }
    | .watermarked eventSeqHi =>
      { runtime with
        snapshotter := .captured
          { runtime.live.scheduler.persistedSnapshot capturedAtUnixMs capturedAtMonoNs with
            eventSeqHi := eventSeqHi } }
    | .captured snapshot =>
      { runtime with
        live :=
          { runtime.live with
            storageQueue := runtime.live.storageQueue ++ [.writeSchedulerSnapshot snapshot] }
        snapshotter := .idle }

/-- The runtime after the steps. -/
def run (config : SchedulerConfig) (runtime : SnapshotRuntime) (steps : List SnapshotStep) :
    SnapshotRuntime :=
  steps.foldl (step config) runtime

/-- The storage writer has drained its queue. -/
def Drained (runtime : SnapshotRuntime) : Prop := runtime.taken = runtime.live.storageQueue.length

/-- The worker has enqueued the transactions it has admitted. -/
def Announced (runtime : SnapshotRuntime) : Prop := decodes runtime.outstanding = []

/-- What a restart would make of the storage. -/
def restart (config : SchedulerConfig) (maxFinalityGapMs : UInt64) (runtime : SnapshotRuntime) :
    Except SchedulerInitError SchedulerState :=
  restoreScheduler config runtime.writer.storage
    (runtime.writer.storage.schedulerRehydrationPlan maxFinalityGapMs)

/-- The lifecycle events of the admissions so far, in their order. -/
def history (runtime : SnapshotRuntime) : List EventPayload :=
  runtime.live.loggedPayloads.filter isLifecycle ++ runtime.outstanding

end SnapshotRuntime

/-- The decoded transactions of the arrivals. -/
def bookOf (arrivals : List Arrival) : List TxDecoded :=
  (arrivals.filterMap Arrival.validated).map ValidatedTransaction.decoded

/-! ## What a snapshot is of -/

/-- The snapshot is of a state that the history has passed, and the events up to its watermark had
been logged by then. -/
structure SnapshotOf (config : SchedulerConfig) (book : List TxDecoded)
    (log history : List EventPayload) (snapshot : PersistedSchedulerSnapshot) (past : List EventPayload)
    (captured : SchedulerState) : Prop where
  chronicle : Chronicle config book past captured
  passed : past <+: history
  logged : snapshot.eventSeqHi.toNat ≤ log.length
  watermark : (log.take snapshot.eventSeqHi.toNat).filter isLifecycle <+: past
  lists : Scheduler.Lists snapshot captured
  frontier : snapshot.executableFrontier = captured.executableFrontierHashes

section SnapshotOf

variable {config : SchedulerConfig} {book : List TxDecoded} {log history : List EventPayload}
  {snapshot : PersistedSchedulerSnapshot} {past : List EventPayload} {captured : SchedulerState}

theorem SnapshotOf.mono (taken : SnapshotOf config book log history snapshot past captured)
    {laterLog laterHistory : List EventPayload} (longer : log <+: laterLog)
    (further : history <+: laterHistory) :
    SnapshotOf config book laterLog laterHistory snapshot past captured where
  chronicle := taken.chronicle
  passed := taken.passed.trans further
  logged := taken.logged.trans longer.length_le
  watermark := by
    obtain ⟨more, rfl⟩ := longer
    rw [List.take_append_of_le_length taken.logged]
    exact taken.watermark
  lists := taken.lists
  frontier := taken.frontier

theorem removed_filter (hash : TxHash) (payloads : List EventPayload) :
    removed hash (payloads.filter isLifecycle) = removed hash payloads := by
  refine flagAfter_filter fun payload silent => ?_
  cases payload <;> first | exact ⟨rfl, rfl⟩ | cases silent

/-- What is logged is no confirmation and no reorg, since it is in the history or no lifecycle
event. -/
theorem offChain_log {live : SchedulerState} (present : Chronicle config book history live)
    {outstanding : List EventPayload} (whole : history = log.filter isLifecycle ++ outstanding)
    {payload : EventPayload} (member : payload ∈ log) : isChainEvent payload = false := by
  cases reads : isLifecycle payload with
  | true =>
      refine present.offChain payload ?_
      rw [whole]
      exact List.mem_append_left _ (List.mem_filter.mpr ⟨member, reads⟩)
  | false => cases payload <;> first | rfl | cases reads

/-- **A snapshot with the events above its watermark restores the live state**, when these events
are all that has been decoded since. -/
theorem SnapshotOf.restores (taken : SnapshotOf config book log history snapshot past captured)
    {live : SchedulerState} (present : Chronicle config book history live)
    (determined : KeyedByHash book) {outstanding : List EventPayload}
    (whole : history = log.filter isLifecycle ++ outstanding) (announced : decodes outstanding = [])
    {tail : List EventEnvelope} (above : tail.map (·.payload) = log.drop snapshot.eventSeqHi.toNat)
    {storage : InMemoryStorage} {plan : SchedulerRehydrationPlan}
    (planned : plan.snapshot = some snapshot) (events : plan.replayEvents = tail)
    {restored : SchedulerState} (succeeds : restoreScheduler config storage plan = .ok restored) :
    SameTransactions restored live := by
  obtain ⟨overlap, before⟩ := taken.watermark
  obtain ⟨rest, after⟩ := taken.passed
  have parts := List.take_append_drop snapshot.eventSeqHi.toNat log
  have earlier : decodes past = decodes (log.take snapshot.eventSeqHi.toNat) ++ decodes overlap := by
    rw [← before, decodes_append, decodes_filter isLifecycle fun _ => rfl]
  have later : decodes history =
      decodes (log.take snapshot.eventSeqHi.toNat) ++ decodes overlap ++ decodes rest := by
    rw [← after, decodes_append, earlier]
  have replayed : decodes (tail.map (·.payload)) = decodes overlap ++ decodes rest := by
    have both := later
    rw [whole, decodes_append, announced, List.append_nil, decodes_filter isLifecycle fun _ => rfl,
      ← parts, decodes_append, List.append_assoc, parts] at both
    rw [above]
    exact List.append_cancel_left both
  refine taken.chronicle.restored present determined earlier later replayed ?_ ?_ taken.lists
    taken.frontier planned events succeeds
  · intro event member
    have logged : event.payload ∈ log.drop snapshot.eventSeqHi.toNat :=
      above ▸ List.mem_map_of_mem member
    exact offChain_log present whole (List.mem_of_mem_drop logged)
  · intro hash gone
    rw [above] at gone
    have logged := flagAfter_append_of_later (log.take snapshot.eventSeqHi.toNat) gone
    rw [parts, ← removed, ← removed_filter] at logged
    rw [whole]
    refine flagAfter_append_of_earlier logged fun payload member => ?_
    -- What is outstanding decodes nothing, and no event of the history is a reorg.
    have plain := present.offChain payload (whole ▸ List.mem_append_right _ member)
    have undecoded := List.filterMap_eq_nil_iff.mp announced payload member
    cases payload with
    | txDecoded decoded => cases show some decoded = none from undecoded
    | txReorged => cases plain
    | _ => rfl

end SnapshotOf

/-! ## The invariant of a run -/

/-- What the steps keep. -/
structure Watched (config : SchedulerConfig) (book : List TxDecoded) (storageConfig : StorageConfig)
    (runtime : SnapshotRuntime) : Prop where
  settles : Settles runtime.outstanding runtime.worker
  admits : runtime.worker.Within (Admits fun tx => tx.decoded ∈ book)
  invariant : RepresentationInvariant config runtime.live.scheduler
  chronicle : Chronicle config book runtime.history runtime.live.scheduler
  recording : Recording storageConfig (runtime.live.storageQueue.take runtime.taken) runtime.writer
  within : runtime.taken ≤ runtime.live.storageQueue.length
  enqueued : ∀ snapshot ∈ runtime.live.storageQueue.filterMap StorageWriteOp.snapshot?,
    ∃ past captured, SnapshotOf config book runtime.live.loggedPayloads runtime.history snapshot
      past captured
  held : match runtime.snapshotter with
    | .idle | .reserved => True
    | .watermarked eventSeqHi => eventSeqHi.toNat ≤ runtime.live.loggedPayloads.length
    | .captured snapshot => ∃ past captured, SnapshotOf config book runtime.live.loggedPayloads
        runtime.history snapshot past captured

section Watched

variable {config : SchedulerConfig} {book : List TxDecoded} {storageConfig : StorageConfig}
  {runtime : SnapshotRuntime}

theorem Watched.start (config : SchedulerConfig) (storageConfig : StorageConfig) (nextSeqId : UInt64)
    (arrivals : List Arrival) :
    Watched config (bookOf arrivals) storageConfig (.start storageConfig nextSeqId arrivals) where
  settles := settles_processArrivals arrivals
  admits := within_processArrivals fun _ member => List.mem_map_of_mem member
  invariant := .empty config
  chronicle := .empty config _
  recording := .start storageConfig
  within := Nat.le_refl _
  enqueued := fun _ member => nomatch member
  held := trivial

/-- What the snapshots are of stays true while the log and the history grow. -/
theorem Watched.grow (watched : Watched config book storageConfig runtime) {live : LiveState}
    {worker : Pipeline} {outstanding : List EventPayload}
    (settles : Settles outstanding worker)
    (admits : worker.Within (Admits fun tx => tx.decoded ∈ book))
    (invariant : RepresentationInvariant config live.scheduler)
    (chronicle : Chronicle config book (live.loggedPayloads.filter isLifecycle ++ outstanding)
      live.scheduler)
    (queue : runtime.live.storageQueue <+: live.storageQueue)
    (snapshots : live.storageQueue.filterMap StorageWriteOp.snapshot? =
      runtime.live.storageQueue.filterMap StorageWriteOp.snapshot?)
    (further : runtime.history <+: live.loggedPayloads.filter isLifecycle ++ outstanding) :
    Watched config book storageConfig
      { runtime with live := live, worker := worker, outstanding := outstanding } := by
  have longer : runtime.live.loggedPayloads <+: live.loggedPayloads := by
    rw [LiveState.loggedPayloads, LiveState.loggedPayloads, map_payload_drain, map_payload_drain]
    exact queue.filterMap _
  refine ⟨settles, admits, invariant, chronicle, ?_, watched.within.trans queue.length_le, ?_, ?_⟩
  · obtain ⟨more, same⟩ := queue
    change Recording storageConfig (live.storageQueue.take runtime.taken) runtime.writer
    rw [← same, List.take_append_of_le_length watched.within]
    exact watched.recording
  · intro snapshot member
    change snapshot ∈ live.storageQueue.filterMap _ at member
    rw [snapshots] at member
    obtain ⟨past, captured, taken⟩ := watched.enqueued snapshot member
    exact ⟨past, captured, taken.mono longer further⟩
  · have held := watched.held
    change match runtime.snapshotter with
      | .idle | .reserved => True
      | .watermarked eventSeqHi => eventSeqHi.toNat ≤ live.loggedPayloads.length
      | .captured snapshot => ∃ past captured, SnapshotOf config book live.loggedPayloads
          (live.loggedPayloads.filter isLifecycle ++ outstanding) snapshot past captured
    cases phase : runtime.snapshotter with
    | idle | reserved => trivial
    | watermarked eventSeqHi =>
        rw [phase] at held
        exact Nat.le_trans held longer.length_le
    | captured snapshot =>
        rw [phase] at held
        obtain ⟨past, captured, taken⟩ := held
        exact ⟨past, captured, taken.mono longer further⟩

/-- The worker makes its next call. -/
theorem Watched.call (watched : Watched config book storageConfig runtime)
    (fits : ∀ decoded ∈ book, ThresholdFits config.replacementFeeBumpBps decoded) {op : PipelineOp}
    {next : PipelineReply op → Pipeline} (program : runtime.worker = .call op next) :
    Watched config book storageConfig
      { runtime with
        live := (serve config runtime.live op).2
        worker := next (serve config runtime.live op).1
        outstanding :=
          admissionProtocol.advance runtime.outstanding op (serve config runtime.live op).1 } := by
  have settles := watched.settles
  have admits := watched.admits
  rw [program] at settles admits
  obtain ⟨allowed, onward⟩ := admits
  cases settles with
  | call permitted continues =>
      have later := continues _ (serve_promises config runtime.live _ op)
      have history : runtime.history =
        runtime.live.loggedPayloads.filter isLifecycle ++ runtime.outstanding := rfl
      cases op with
      | admitOutcome tx =>
          have settled : runtime.outstanding = [] := permitted
          rw [settled, List.append_nil] at history
          have admitted := chronicle_admission watched.chronicle watched.invariant allowed fits
          rw [history] at admitted
          refine watched.grow later (onward _) (watched.invariant.admitTx tx) admitted
            (List.prefix_refl _) rfl ?_
          rw [history]
          exact List.prefix_append _ _
      | tryEnqueue op =>
          have logged := filter_loggedPayloads_enqueue runtime.live op
          have same : runtime.history =
              ({ runtime.live with storageQueue := runtime.live.storageQueue ++ [op] } :
                LiveState).loggedPayloads.filter isLifecycle ++
                if (loggedLifecycle op).isSome then runtime.outstanding.tail
                else runtime.outstanding := by
            rw [logged, history]
            cases payload : loggedLifecycle op with
            | none => simp
            | some payload' =>
                obtain ⟨rest, split⟩ := List.head?_eq_some_iff.mp (permitted payload' payload)
                simp [split]
          refine watched.grow later (onward _) watched.invariant (same ▸ watched.chronicle)
            (List.prefix_append _ _) ?_ (same ▸ List.prefix_refl _)
          change (runtime.live.storageQueue ++ [op]).filterMap _ = _
          have silent : op.snapshot? = none := allowed
          rw [List.filterMap_append]
          simp [silent]
      | invalidateCandidateHash hash =>
          exact watched.grow later (onward _) (watched.invariant.congr rfl rfl rfl rfl rfl rfl rfl)
            (watched.chronicle.congr rfl rfl) (List.prefix_refl _) rfl (List.prefix_refl _)
      | registerCandidates candidates =>
          obtain ⟨entries, head, stale, same⟩ :=
            runtime.live.scheduler.sameAdmission_registerCandidates candidates
          refine watched.grow later (onward _) ?_ ?_ (List.prefix_refl _) rfl (List.prefix_refl _)
          · change RepresentationInvariant config
              (runtime.live.scheduler.registerCandidates candidates).2
            rw [same]
            exact watched.invariant.congr rfl rfl rfl rfl rfl rfl rfl
          · change Chronicle config book runtime.history
              (runtime.live.scheduler.registerCandidates candidates).2
            rw [same]
            exact watched.chronicle.congr rfl rfl
      | fetchAddSeqId | enqueueSimulationTask | observeDropReason | getPendingTransactions
      | snapshotReady | observeSearcherBatch =>
          exact watched.grow later (onward _) watched.invariant watched.chronicle
            (List.prefix_refl _) rfl (List.prefix_refl _)

/-- The snapshot writer sends its snapshot. -/
theorem Watched.send (watched : Watched config book storageConfig runtime)
    {snapshot : PersistedSchedulerSnapshot} (phase : runtime.snapshotter = .captured snapshot) :
    Watched config book storageConfig
      { runtime with
        live :=
          { runtime.live with
            storageQueue := runtime.live.storageQueue ++ [.writeSchedulerSnapshot snapshot] }
        snapshotter := .idle } := by
  generalize sent : ({ runtime with
    live :=
      { runtime.live with
        storageQueue := runtime.live.storageQueue ++ [.writeSchedulerSnapshot snapshot] }
    snapshotter := .idle } : SnapshotRuntime) = after
  have log : after.live.loggedPayloads = runtime.live.loggedPayloads := by
    rw [← sent]
    exact (loggedPayloads_enqueue _ _).trans (List.append_nil _)
  have outstanding : after.outstanding = runtime.outstanding := sent ▸ rfl
  have history : after.history = runtime.history := by
    rw [SnapshotRuntime.history, SnapshotRuntime.history, log, outstanding]
  have queue : after.live.storageQueue =
      runtime.live.storageQueue ++ [.writeSchedulerSnapshot snapshot] := sent ▸ rfl
  have scheduler : after.live.scheduler = runtime.live.scheduler := sent ▸ rfl
  have worker : after.worker = runtime.worker := sent ▸ rfl
  have taken : after.taken = runtime.taken := sent ▸ rfl
  have writer : after.writer = runtime.writer := sent ▸ rfl
  have held := watched.held
  rw [phase] at held
  refine ⟨?_, ?_, ?_, ?_, ?_, ?_, ?_, ?_⟩
  · rw [outstanding, worker]
    exact watched.settles
  · rw [worker]
    exact watched.admits
  · rw [scheduler]
    exact watched.invariant
  · rw [history, scheduler]
    exact watched.chronicle
  · rw [queue, taken, writer, List.take_append_of_le_length watched.within]
    exact watched.recording
  · rw [taken, queue]
    exact watched.within.trans (List.prefix_append _ _).length_le
  · intro other member
    rw [log, history]
    rw [queue, List.filterMap_append, List.mem_append] at member
    rcases member with earlier | new
    · exact watched.enqueued other earlier
    · cases List.mem_singleton.mp new
      exact held
  · rw [← sent]
    trivial

/-- Every step keeps what is watched, as long as no event is evicted. -/
theorem Watched.step (watched : Watched config book storageConfig runtime)
    (fits : ∀ decoded ∈ book, ThresholdFits config.replacementFeeBumpBps decoded)
    (machine : storageConfig.eventCapacity ≤ usizeMax) (retains : runtime.writer.Retains storageConfig)
    (next : SnapshotStep) : Watched config book storageConfig (runtime.step config next) := by
  cases next with
  | worker =>
      rw [SnapshotRuntime.step]
      split
      case h_1 => exact watched
      case h_2 op next program => exact watched.call fits program
  | write =>
      rw [SnapshotRuntime.step]
      split
      case h_1 => exact watched
      case h_2 op found =>
        obtain ⟨bound, rfl⟩ := List.getElem?_eq_some_iff.mp found
        refine { watched with recording := ?_, within := bound }
        change Recording storageConfig (runtime.live.storageQueue.take (runtime.taken + 1)) _
        rw [← List.take_concat_get' _ _ bound]
        exact watched.recording.applyWriteOp _
  | flush accepts => exact { watched with recording := watched.recording.flushBatch accepts }
  | snapshot capturedAtUnixMs capturedAtMonoNs =>
      have held := watched.held
      rw [SnapshotRuntime.step]
      split
      case h_1 => exact { watched with held := trivial }
      case h_2 =>
        refine { watched with held := ?_ }
        change (runtime.writer.storage.latestSeqId.getD 0).toNat ≤ runtime.live.loggedPayloads.length
        have written := congrArg List.length watched.recording.payloads
        rw [List.length_map] at written
        rw [watched.recording.latestSeqId machine retains, written, LiveState.loggedPayloads,
          map_payload_drain]
        exact ((List.take_prefix _ _).filterMap _).length_le
      case h_3 eventSeqHi phase =>
        rw [phase] at held
        refine { watched with held := ⟨runtime.history, runtime.live.scheduler, ?_⟩ }
        exact
          { chronicle := watched.chronicle
            passed := List.prefix_refl _
            logged := held
            watermark := ((List.take_prefix _ _).filter _).trans (List.prefix_append _ _)
            lists := ⟨rfl, rfl⟩
            frontier := rfl }
      case h_4 snapshot phase =>
        exact watched.send phase

/-- The writer's record only grows. -/
theorem appended_length_le_step (config : SchedulerConfig) (runtime : SnapshotRuntime)
    (next : SnapshotStep) :
    runtime.writer.appended.length ≤ (runtime.step config next).writer.appended.length := by
  cases next with
  | worker =>
      rw [SnapshotRuntime.step]
      split <;> exact Nat.le_refl _
  | write =>
      rw [SnapshotRuntime.step]
      split
      case h_1 => exact Nat.le_refl _
      case h_2 op _ =>
        rcases runtime.writer.applyWriteOp_cases op with ⟨event, -, same⟩ | ⟨-, storage, same⟩
        · change _ ≤ (runtime.writer.applyWriteOp op).appended.length
          rw [same]
          exact (List.prefix_append _ _).length_le
        · change _ ≤ (runtime.writer.applyWriteOp op).appended.length
          rw [same]
  | flush accepts =>
      change _ ≤ (runtime.writer.flushBatch accepts).appended.length
      unfold Writer.flushBatch
      split
      · exact Nat.le_refl _
      · cases accepts <;> exact Nat.le_refl _
  | snapshot =>
      rw [SnapshotRuntime.step]
      split <;> exact Nat.le_refl _

theorem Watched.run (watched : Watched config book storageConfig runtime)
    (fits : ∀ decoded ∈ book, ThresholdFits config.replacementFeeBumpBps decoded)
    (machine : storageConfig.eventCapacity ≤ usizeMax) {steps : List SnapshotStep}
    (retains : (runtime.run config steps).writer.Retains storageConfig) :
    Watched config book storageConfig (runtime.run config steps) := by
  induction steps using List.reverseRecOn with
  | nil => exact watched
  | append_singleton steps next ih =>
      have last : runtime.run config (steps ++ [next]) = (runtime.run config steps).step config next := by
        rw [SnapshotRuntime.run, List.foldl_concat]
        rfl
      rw [last] at retains ⊢
      have before : (runtime.run config steps).writer.Retains storageConfig :=
        (appended_length_le_step config _ next).trans retains
      exact (ih before).step fits machine before next

end Watched

/-! ## Restarting -/

/-- **Snapshot watermark soundness.** At every stopping point at which the writer has drained its
queue and the worker has enqueued the transactions it has admitted, the last written snapshot and
the events above its watermark restore the live scheduler, if they restore a scheduler at all. -/
theorem restart_of_run (config : SchedulerConfig) (storageConfig : StorageConfig) (nextSeqId : UInt64)
    (arrivals : List Arrival) (steps : List SnapshotStep) (maxFinalityGapMs : UInt64)
    (determined : KeyedByHash (bookOf arrivals))
    (fits : ∀ decoded ∈ bookOf arrivals, ThresholdFits config.replacementFeeBumpBps decoded)
    (machine : storageConfig.eventCapacity ≤ usizeMax) :
    let final := (SnapshotRuntime.start storageConfig nextSeqId arrivals).run config steps
    final.writer.Retains storageConfig → final.Drained → final.Announced →
      final.writer.storage.schedulerSnapshot.isSome →
        ∀ restored, final.restart config maxFinalityGapMs = .ok restored →
          SameTransactions restored final.live.scheduler := by
  intro final retains drained announced written restored succeeds
  have watched := (Watched.start config storageConfig nextSeqId arrivals).run fits machine retains
  change Watched config (bookOf arrivals) storageConfig final at watched
  have recording := watched.recording
  rw [drained, List.take_length] at recording
  have log : final.writer.appended.map (·.event.payload) = final.live.loggedPayloads := by
    rw [recording.payloads, LiveState.loggedPayloads, map_payload_drain]
    rfl
  have snapshots : final.writer.storage.schedulerSnapshot =
      (final.live.storageQueue.filterMap StorageWriteOp.snapshot?).getLast? := by
    obtain ⟨history, recorded, -, last⟩ := recording.recorded
    rw [recorded.snapshot, last]
  obtain ⟨snapshot, last⟩ := Option.isSome_iff_exists.mp (snapshots ▸ written)
  obtain ⟨past, captured, taken⟩ := watched.enqueued snapshot (List.mem_of_getLast? last)
  have unfinalized : latestFinalizedOf (final.writer.appended.map (·.event)) = none := by
    refine latestFinalizedOf_eq_none fun event member => offChain_log watched.chronicle rfl ?_
    rw [← log]
    obtain ⟨record, appended, rfl⟩ := List.mem_map.mp member
    exact List.mem_map_of_mem appended
  have plan := recording.schedulerRehydrationPlan machine retains last unfinalized maxFinalityGapMs
  rw [SnapshotRuntime.restart, plan] at succeeds
  refine taken.restores watched.chronicle determined rfl announced ?_ rfl rfl succeeds
  rw [List.map_drop, List.map_map]
  exact congrArg (List.drop _) log

/-- Three transactions, the second of which replaces the first. -/
def replacedThenNext : List Arrival :=
  [sampleArrival (sampleLiveTx 10 1 0 100), sampleArrival (sampleLiveTx 11 1 0 200),
    sampleArrival (sampleLiveTx 12 1 1 100)]

/-- The watermark is read after the first transaction was logged, and the snapshot is captured after
the second was admitted and before it is logged. -/
def capturedMidway : List SnapshotStep :=
  List.replicate 14 .worker ++ List.replicate 7 .write ++ [.snapshot 0 0, .snapshot 0 0] ++
    List.replicate 8 .worker ++ [.snapshot 5 5, .snapshot 5 5] ++ List.replicate 23 .worker ++
    List.replicate 23 .write

theorem restart_of_run_midway :
    ∃ restored,
      ((SnapshotRuntime.start {} 1 replacedThenNext).run {} capturedMidway).restart {} 0 =
        .ok restored ∧
      SameTransactions restored
        ((SnapshotRuntime.start {} 1 replacedThenNext).run {} capturedMidway).live.scheduler := by
  have sound := restart_of_run {} {} 1 replacedThenNext capturedMidway 0
    (by unfold KeyedByHash; decide +kernel) (by unfold ThresholdFits; decide +kernel)
    (by decide +kernel) (by unfold Writer.Retains; decide +kernel)
    (by unfold SnapshotRuntime.Drained; decide +kernel)
    (by unfold SnapshotRuntime.Announced; decide +kernel) (by decide +kernel)
  have succeeds : (((SnapshotRuntime.start {} 1 replacedThenNext).run {} capturedMidway).restart
      {} 0).isOk = true := by decide +kernel
  cases result : ((SnapshotRuntime.start {} 1 replacedThenNext).run {} capturedMidway).restart {} 0 with
  | ok restored => exact ⟨restored, rfl, sound restored result⟩
  | error error =>
      rw [result] at succeeds
      cases succeeds

/-- The worker has admitted a transaction and enqueued nothing of it yet. Its queue is empty, and
the snapshot before the admission restores an empty scheduler. -/
theorem restart_between_admission_and_log :
    ¬ ∀ (config : SchedulerConfig) (storageConfig : StorageConfig) (nextSeqId : UInt64)
      (arrivals : List Arrival) (steps : List SnapshotStep) (maxFinalityGapMs : UInt64),
      KeyedByHash (bookOf arrivals) →
      (∀ decoded ∈ bookOf arrivals, ThresholdFits config.replacementFeeBumpBps decoded) →
      storageConfig.eventCapacity ≤ usizeMax →
      let final := (SnapshotRuntime.start storageConfig nextSeqId arrivals).run config steps
      final.writer.Retains storageConfig → final.Drained →
        final.writer.storage.schedulerSnapshot.isSome →
          ∀ restored, final.restart config maxFinalityGapMs = .ok restored →
            SameTransactions restored final.live.scheduler := by
  intro claim
  let steps : List SnapshotStep :=
    [.snapshot 0 0, .snapshot 0 0, .snapshot 0 0, .snapshot 0 0, .write, .worker]
  let final := (SnapshotRuntime.start {} 1 [sampleArrival (sampleLiveTx 10 1 0 100)]).run {} steps
  have empty : (final.restart {} 0).map (fun restored => restored.pending.contains 10) = .ok false := by
    decide +kernel
  cases result : final.restart {} 0 with
  | ok restored =>
      have same := claim {} {} 1 [sampleArrival (sampleLiveTx 10 1 0 100)] steps 0
        (by unfold KeyedByHash; decide +kernel) (by unfold ThresholdFits; decide +kernel)
        (by decide) (by unfold Writer.Retains; decide +kernel)
        (by unfold SnapshotRuntime.Drained; decide +kernel) (by decide +kernel) restored result
      have live : (final.live.scheduler.pending[(10 : TxHash)]?).isSome := by decide +kernel
      rw [result] at empty
      have absent : restored.pending.contains 10 = false := Except.ok.inj empty
      rw [contains_eq_isSome] at absent
      have held := congrArg Option.isSome (same.pending 10)
      rw [Option.isSome_map, Option.isSome_map, absent] at held
      rw [← held] at live
      cases live
  | error error =>
      rw [result] at empty
      cases empty

end Mempulse.LiveRpc
