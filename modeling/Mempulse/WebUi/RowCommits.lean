import Mempulse.WebUi.TickerCommits

/-!
# Sampled commits of rows

When frames are slow the dashboard shows one batch of rows in a few. The others wait as a sampled
commit, which a timer hands to the store once the stream pauses. Leaving the sampling mode clears the
timer and leaves the commit where it is.

So the newest rows are always in one place: sampled, waiting in the store, or shown
(`run_rowCommits`). They are sampled without a timer exactly when the mode was left since they were
queued.
-/

set_option autoImplicit false

namespace Mempulse.WebUi

open Library

/-! ## The health monitor -/

/-- How many quick frames end the sampling. -/
def stableFrameCountToExit : Nat := 5

/-- The value as `Number` reads it. -/
def normalizeInt (parsed : JsNumber) (fallback min max : Int) : Int :=
  match parsed with
  | .finite value => Min.min max (Max.max min value.floor)
  | _ => fallback

/-- The options as `Number` reads them; what is left out is not a number. -/
structure SystemHealthOptions where
  samplingLagThresholdMs : JsNumber := .nan
  samplingStride : JsNumber := .nan
  heapEmergencyPurgeMb : JsNumber := .nan

/-- The monitor's settings and its state. -/
structure SystemHealthMonitor where
  samplingLagThresholdMs : Int
  samplingStride : Int
  heapEmergencyPurgeMb : Int
  samplingMode : Bool := false
  stableFrameCount : Nat := 0
  trailingFlushTimer : Bool := false
  deriving DecidableEq

/-- A monitor with each option kept within its bounds. -/
def createSystemHealthMonitor (options : SystemHealthOptions) : SystemHealthMonitor where
  samplingLagThresholdMs := normalizeInt options.samplingLagThresholdMs 30 16 120
  samplingStride := normalizeInt options.samplingStride 5 1 20
  heapEmergencyPurgeMb := normalizeInt options.heapEmergencyPurgeMb 250 128 1024

namespace SystemHealthMonitor

/-- No trailing flush is due any more. -/
def clearTrailingFlush (monitor : SystemHealthMonitor) : SystemHealthMonitor :=
  { monitor with trailingFlushTimer := false }

/-- Starts the sampling, unless it is on. -/
def enterSamplingMode (monitor : SystemHealthMonitor) : SystemHealthMonitor :=
  if monitor.samplingMode then monitor
  else { monitor with samplingMode := true, stableFrameCount := 0 }

/-- Ends the sampling and what it had put off. -/
def exitSamplingMode (monitor : SystemHealthMonitor) : SystemHealthMonitor :=
  if monitor.samplingMode then
    { monitor with samplingMode := false, stableFrameCount := 0 }.clearTrailingFlush
  else monitor

/-- A slow frame does not reset the count of the stable ones. -/
def recordFrameDelta (monitor : SystemHealthMonitor) (deltaMs : JsNumber) : SystemHealthMonitor :=
  match deltaMs with
  | .finite deltaMs =>
    if monitor.samplingLagThresholdMs < deltaMs then monitor.enterSamplingMode
    else if !monitor.samplingMode then monitor
    else
      let monitor := { monitor with stableFrameCount := monitor.stableFrameCount + 1 }
      if stableFrameCountToExit ≤ monitor.stableFrameCount then monitor.exitSamplingMode else monitor
  | _ => monitor

/-- While sampling, one batch in every stride is shown. -/
def shouldRenderBatch (monitor : SystemHealthMonitor) (batchIndex : Nat) : Bool :=
  if !monitor.samplingMode then true else (max 1 batchIndex : Int) % monitor.samplingStride = 0

/-- While sampling, what is held back is shown by a timer. -/
def scheduleTrailingFlush (monitor : SystemHealthMonitor) : SystemHealthMonitor :=
  if !monitor.samplingMode then monitor else { monitor with trailingFlushTimer := true }

/-- Whether so large a heap is purged. -/
def recordHeapBytes (monitor : SystemHealthMonitor) (usedHeapBytes : JsNumber) : Bool :=
  match usedHeapBytes with
  | .finite usedHeapBytes => monitor.heapEmergencyPurgeMb * 1024 * 1024 < usedHeapBytes
  | _ => false

end SystemHealthMonitor

/-! ## The page -/

/-- The part of the lifecycle effect that commits transaction rows, and the store. -/
structure RowPage (Row Detail : Type) where
  systemHealth : SystemHealthMonitor
  sampledCommit : Option (TickerCommit Row) := none
  streamBatchIndex : Nat := 0
  cancelled : Bool := false
  store : StreamStore Row Detail := {}
  deriving DecidableEq

section Page

variable {Row Detail : Type} (hashOf : Row → JsValue)

namespace RowPage

/-- Whether there was a commit, and the page after it is handed to the store. -/
def flushSampledCommit (page : RowPage Row Detail) : Bool × RowPage Row Detail :=
  match page.sampledCommit with
  | none => (false, page)
  | some commit =>
    (true, { page with
      store := page.store.enqueueTickerCommit (some commit)
      sampledCommit := none })

/-- Hands over the held commit, or flushes the store when there is none. -/
def flushTransactionCommit (page : RowPage Row Detail) : RowPage Row Detail :=
  if page.cancelled then page
  else
    let (flushed, page) := page.flushSampledCommit
    if flushed then page else { page with store := page.store.flushTickerCommit hashOf }

/-- Holds a commit, and hands it over when its batch is to be shown. -/
def queueTransactionCommit (page : RowPage Row Detail) (commit : TickerCommit Row) :
    RowPage Row Detail :=
  let page :=
    { page with
      sampledCommit := some commit
      streamBatchIndex := page.streamBatchIndex + 1 }
  if page.systemHealth.shouldRenderBatch page.streamBatchIndex then
    { page with systemHealth := page.systemHealth.clearTrailingFlush }.flushSampledCommit.2
  else { page with systemHealth := page.systemHealth.scheduleTrailingFlush }

/-- What the timer of a trailing flush does. -/
def trailingFlush (page : RowPage Row Detail) : RowPage Row Detail :=
  let page := { page with systemHealth := page.systemHealth.clearTrailingFlush }
  if page.cancelled then page else page.flushTransactionCommit hashOf

/-- Tells the monitor how long a frame took. -/
def recordFrameDelta (page : RowPage Row Detail) (deltaMs : JsNumber) : RowPage Row Detail :=
  { page with systemHealth := page.systemHealth.recordFrameDelta deltaMs }

/-- Rows that are no rows. -/
def noRows : TickerCommit Row where
  recentTxRows := some []
  transactionRows := some []

/-- Forgets every row and every detail. -/
def emergencyPurge (page : RowPage Row Detail) : RowPage Row Detail :=
  if page.cancelled then page
  else
    { page with
      sampledCommit := none
      streamBatchIndex := 0
      store := ((page.store.cancelTickerCommit.clearTransactionDetailCache).enqueueTickerCommit
        (some noRows)).flushTickerCommit hashOf }

/-- What the effect does when it ends. -/
def cleanup (page : RowPage Row Detail) : RowPage Row Detail :=
  let page := page.flushTransactionCommit hashOf
  { page with
    cancelled := true
    store := page.store.cancelTickerCommit
    systemHealth := page.systemHealth.clearTrailingFlush }

end RowPage

/-- The events of a store that the effect does not cause. -/
def StoreEvent.external : StoreEvent Row Detail → Bool
  | .frame _ | .setActiveSelectedTxId _ | .setTransactionDetailByHash _ _ _ | .pruneTimer => true
  | _ => false

/-- What happens to a page while its effect lives. -/
inductive PageEvent (Row Detail : Type) where
  | queueTransactionCommit (commit : TickerCommit Row)
  | recordFrameDelta (deltaMs : JsNumber)
  | recordHeapBytes (usedHeapBytes : JsNumber)
  /-- The memory of the whole page is too large. -/
  | emergencyPurge
  | trailingFlush
  | store (event : StoreEvent Row Detail)
  deriving DecidableEq

/-- One event. A timer runs when it is set. -/
def RowPage.next (page : RowPage Row Detail) : PageEvent Row Detail → Option (RowPage Row Detail)
  | .queueTransactionCommit commit => some (page.queueTransactionCommit commit)
  | .recordFrameDelta deltaMs => some (page.recordFrameDelta deltaMs)
  | .recordHeapBytes usedHeapBytes =>
    if page.systemHealth.recordHeapBytes usedHeapBytes then some (page.emergencyPurge hashOf)
    else some page
  | .emergencyPurge => some (page.emergencyPurge hashOf)
  | .trailingFlush =>
    if page.systemHealth.trailingFlushTimer then some (page.trailingFlush hashOf) else none
  | .store event =>
    if event.external then (page.store.next hashOf event).map fun store => { page with store := store }
    else none

/-- The steps of a page. -/
def RowPage.Steps (page : RowPage Row Detail) (event : PageEvent Row Detail)
    (after : RowPage Row Detail) : Prop :=
  page.next hashOf event = some after

/-- The commit that an event queues, a purge counting as a commit of no rows. -/
def queuedBy (systemHealth : SystemHealthMonitor) : PageEvent Row Detail → List (TickerCommit Row)
  | .queueTransactionCommit commit => [commit]
  | .recordHeapBytes usedHeapBytes =>
    if systemHealth.recordHeapBytes usedHeapBytes then [RowPage.noRows] else []
  | .emergencyPurge => [RowPage.noRows]
  | _ => []

/-- The commits that a history queues. -/
def queuedIn (systemHealth : SystemHealthMonitor) (history : List (PageEvent Row Detail)) :
    List (TickerCommit Row) :=
  history.flatMap (queuedBy systemHealth)

/-- Whether the sampling mode was left since a commit was queued, after one more event. -/
def RowPage.leftAfter (page : RowPage Row Detail) (left : Bool) (after : RowPage Row Detail) :
    PageEvent Row Detail → Bool
  | .queueTransactionCommit _ => false
  | .recordFrameDelta _ =>
    left || (page.systemHealth.samplingMode && !after.systemHealth.samplingMode)
  | _ => left

/-- Whether the sampling mode was left since a commit was queued. -/
def leftSampling (left : Bool) (page : RowPage Row Detail) : List (PageEvent Row Detail) → Bool
  | [] => left
  | event :: rest =>
    match page.next hashOf event with
    | none => left
    | some after => leftSampling (page.leftAfter left after event) after rest

end Page

/-! ## Where the newest rows are -/

section Newest

variable {Row Detail : Type} {hashOf : Row → JsValue}

/-- The rows of the last of some commits, or those there were before. -/
def rowsSince (base : List Row × List Row) (commits : List (TickerCommit Row)) :
    List Row × List Row :=
  (commits.getLast?.map TickerCommit.rows).getD base

/-- A page shows the last of the queued commits up to a number. The newest one is sampled, or waits in
the store when none is sampled, or is shown when none waits either. -/
structure RowPage.ShowsUpTo (page : RowPage Row Detail) (base : List Row × List Row)
    (queued : List (TickerCommit Row)) (passed : Nat) : Prop where
  alive : page.cancelled = false
  ticking : page.store.Ticking
  bounded : passed ≤ queued.length
  shown : page.store.shownRows = rowsSince base (queued.take passed)
  waiting : ∀ commit, page.store.pendingTickerCommit = some commit →
    ∃ place, passed ≤ place ∧ queued[place]? = some commit ∧
      (page.sampledCommit = none → place + 1 = queued.length) ∧
      (page.sampledCommit.isSome = true → place + 1 < queued.length)
  sampled : ∀ commit, page.sampledCommit = some commit →
    passed < queued.length ∧ queued.getLast? = some commit
  caught : page.sampledCommit = none → page.store.pendingTickerCommit = none →
    passed = queued.length

theorem RowPage.trailingFlush_of_sampled {page : RowPage Row Detail}
    (alive : page.cancelled = false) {commit : TickerCommit Row}
    (sampled : page.sampledCommit = some commit) :
    page.trailingFlush hashOf =
      { page with
        systemHealth := page.systemHealth.clearTrailingFlush
        store := page.store.enqueueTickerCommit (some commit)
        sampledCommit := none } := by
  obtain ⟨systemHealth, sampledCommit, streamBatchIndex, cancelled, store⟩ := page
  cases alive
  cases sampled
  rfl

theorem RowPage.trailingFlush_of_unsampled {page : RowPage Row Detail}
    (alive : page.cancelled = false)
    (unsampled : page.sampledCommit = none) :
    page.trailingFlush hashOf =
      { page with
        systemHealth := page.systemHealth.clearTrailingFlush
        store := page.store.flushTickerCommit hashOf } := by
  obtain ⟨systemHealth, sampledCommit, streamBatchIndex, cancelled, store⟩ := page
  cases alive
  cases unsampled
  rfl

namespace RowPage.ShowsUpTo

variable {page after : RowPage Row Detail} {base : List Row × List Row}
  {queued : List (TickerCommit Row)} {passed : Nat}

theorem rowsSince_take {place : Nat} {commit : TickerCommit Row}
    (placed : queued[place]? = some commit) : rowsSince base (queued.take (place + 1)) = commit.rows := by
  rw [rowsSince, List.take_add_one, placed, Option.toList_some, List.getLast?_concat]
  rfl

/-- What only the monitor notices. -/
theorem monitored (shows : page.ShowsUpTo base queued passed) (systemHealth : SystemHealthMonitor) :
    ({ page with systemHealth := systemHealth } : RowPage Row Detail).ShowsUpTo base queued passed :=
  ⟨shows.alive, shows.ticking, shows.bounded, shows.shown, shows.waiting, shows.sampled, shows.caught⟩

/-- The store shows what waits. -/
theorem showPending (shows : page.ShowsUpTo base queued passed) {store : StreamStore Row Detail}
    (ticking : store.Ticking) (shown : store.shownRows =
      (page.store.pendingTickerCommit.map TickerCommit.rows).getD page.store.shownRows)
    (settled : store.pendingTickerCommit = none) :
    ∃ later, passed ≤ later ∧
      ({ page with store := store } : RowPage Row Detail).ShowsUpTo base queued later := by
  have unwaiting : ∀ commit, store.pendingTickerCommit = some commit → False := by
    intro commit waits
    rw [settled] at waits
    cases waits
  cases waits : page.store.pendingTickerCommit with
  | none =>
      rw [waits] at shown
      exact ⟨passed, le_rfl, shows.alive, ticking, shows.bounded, shown.trans shows.shown,
        fun commit waiting => (unwaiting commit waiting).elim, shows.sampled,
        fun unsampled _ => shows.caught unsampled waits⟩
  | some commit =>
      rw [waits] at shown
      obtain ⟨place, onward, placed, last, before⟩ := shows.waiting commit waits
      have below : place < queued.length := (List.getElem?_eq_some_iff.mp placed).1
      refine ⟨place + 1, Nat.le_succ_of_le onward, shows.alive, ticking, below,
        shown.trans (rowsSince_take placed).symm,
        fun commit waiting => (unwaiting commit waiting).elim, fun newest sampled => ?_,
        fun unsampled _ => last unsampled⟩
      exact ⟨before (by rw [sampled]; rfl), (shows.sampled newest sampled).2⟩

/-- The sampled commit is handed to the store. -/
theorem flushSampled (shows : page.ShowsUpTo base queued passed) {commit : TickerCommit Row}
    (sampled : page.sampledCommit = some commit) :
    ({ page with
      store := page.store.enqueueTickerCommit (some commit)
      sampledCommit := none } : RowPage Row Detail).ShowsUpTo base queued passed := by
  obtain ⟨behind, newest⟩ := shows.sampled commit sampled
  obtain ⟨shown, waits⟩ := page.store.enqueueTickerCommit_ticker (some commit)
  refine ⟨shows.alive, shows.ticking.enqueue _, shows.bounded, shown.trans shows.shown,
    fun other waiting => ?_, fun _ same => (nomatch same), fun _ settled => ?_⟩
  · cases waits.symm.trans waiting
    have positive : 0 < queued.length := Nat.lt_of_le_of_lt (Nat.zero_le _) behind
    refine ⟨queued.length - 1, Nat.le_sub_one_of_lt behind, ?_,
      fun _ => Nat.sub_add_cancel positive, fun same => (nomatch same)⟩
    rw [← List.getLast?_eq_getElem?, newest]
  · cases waits.symm.trans settled

/-- A commit is sampled in place of the others. -/
theorem sample (shows : page.ShowsUpTo base queued passed) (commit : TickerCommit Row)
    (streamBatchIndex : Nat) :
    ({ page with
      sampledCommit := some commit
      streamBatchIndex := streamBatchIndex } : RowPage Row Detail).ShowsUpTo base
        (queued ++ [commit]) passed := by
  have longer : queued.length < (queued ++ [commit]).length := by
    rw [List.length_append, List.length_singleton]
    exact Nat.lt_succ_self _
  refine ⟨shows.alive, shows.ticking, Nat.le_trans shows.bounded (Nat.le_of_lt longer), ?_,
    fun other waiting => ?_, fun newest same => ?_, fun unsampled => (nomatch unsampled)⟩
  · rw [List.take_append_of_le_length shows.bounded]
    exact shows.shown
  · obtain ⟨place, onward, placed, -⟩ := shows.waiting other waiting
    have below : place < queued.length := (List.getElem?_eq_some_iff.mp placed).1
    refine ⟨place, onward, ?_, fun unsampled => (nomatch unsampled),
      fun _ => Nat.lt_of_le_of_lt below longer⟩
    rw [List.getElem?_append_left below, placed]
  · cases same
    exact ⟨Nat.lt_of_le_of_lt shows.bounded longer, List.getLast?_concat⟩

/-- A purge shows no rows at once. -/
theorem purge (shows : page.ShowsUpTo base queued passed) :
    (page.emergencyPurge hashOf).ShowsUpTo base (queued ++ [RowPage.noRows])
      (queued ++ [RowPage.noRows]).length := by
  rw [emergencyPurge, if_neg (by rw [shows.alive]; decide)]
  obtain ⟨-, waits⟩ := StreamStore.enqueueTickerCommit_ticker
    page.store.cancelTickerCommit.clearTransactionDetailCache (some noRows)
  obtain ⟨shown, settled, idle⟩ := StreamStore.flushTickerCommit_ticker hashOf
    (page.store.cancelTickerCommit.clearTransactionDetailCache.enqueueTickerCommit (some noRows))
  rw [waits] at shown idle
  refine ⟨shows.alive, .of_idle settled (idle rfl), le_rfl, ?_, fun commit waiting => ?_,
    fun _ same => (nomatch same), fun _ _ => rfl⟩
  · rw [List.take_length, rowsSince, List.getLast?_concat]
    exact shown
  · cases settled.symm.trans waiting

/-- **One event shows later commits only.** -/
theorem step {event : PageEvent Row Detail} (shows : page.ShowsUpTo base queued passed)
    (taken : page.Steps hashOf event after) :
    ∃ later, passed ≤ later ∧
      after.ShowsUpTo base (queued ++ queuedBy page.systemHealth event) later := by
  have purged : ∃ later, passed ≤ later ∧ (page.emergencyPurge hashOf).ShowsUpTo base
      (queued ++ [RowPage.noRows]) later := by
    refine ⟨_, ?_, shows.purge⟩
    rw [List.length_append]
    exact Nat.le_trans shows.bounded (Nat.le_add_right _ _)
  unfold RowPage.Steps RowPage.next at taken
  cases event with
  | queueTransactionCommit commit =>
      cases taken
      unfold RowPage.queueTransactionCommit
      have sampled := shows.sample commit (page.streamBatchIndex + 1)
      dsimp only
      split
      · exact ⟨passed, le_rfl, (sampled.monitored _).flushSampled rfl⟩
      · exact ⟨passed, le_rfl, sampled.monitored _⟩
  | recordFrameDelta deltaMs =>
      cases taken
      rw [show queuedBy page.systemHealth (.recordFrameDelta deltaMs) = [] from rfl, List.append_nil]
      exact ⟨passed, le_rfl, shows.monitored _⟩
  | recordHeapBytes usedHeapBytes =>
      dsimp only at taken
      rw [queuedBy]
      split at taken
      case isTrue large =>
        cases taken
        rw [if_pos large]
        exact purged
      case isFalse small =>
        cases taken
        rw [if_neg small, List.append_nil]
        exact ⟨passed, le_rfl, shows⟩
  | emergencyPurge =>
      cases taken
      exact purged
  | trailingFlush =>
      dsimp only at taken
      rw [show queuedBy page.systemHealth .trailingFlush = [] from rfl, List.append_nil]
      split at taken
      case isFalse => cases taken
      case isTrue =>
        cases taken
        have monitored := shows.monitored page.systemHealth.clearTrailingFlush
        cases sampled : page.sampledCommit with
        | some commit =>
            rw [trailingFlush_of_sampled shows.alive sampled]
            exact ⟨passed, le_rfl, monitored.flushSampled sampled⟩
        | none =>
            rw [trailingFlush_of_unsampled shows.alive sampled]
            obtain ⟨shown, settled, -⟩ := StreamStore.flushTickerCommit_ticker hashOf page.store
            exact monitored.showPending
              (shows.ticking.step (show page.store.Steps hashOf .flushTickerCommit _ from rfl)) shown
              settled
  | store event =>
      dsimp only at taken
      rw [show queuedBy page.systemHealth (.store event) = [] from rfl, List.append_nil]
      split at taken
      case isFalse => cases taken
      case isTrue external =>
        obtain ⟨store, stepped, rfl⟩ := Option.map_eq_some_iff.mp taken
        have effect := ticker_of_steps stepped
        have ticking := shows.ticking.step stepped
        cases event with
        | frame handle =>
            obtain ⟨shown, settled⟩ := Prod.mk.inj effect
            exact shows.showPending ticking shown settled
        | setActiveSelectedTxId | setTransactionDetailByHash | pruneTimer =>
            obtain ⟨shown, same⟩ := Prod.mk.inj effect
            refine ⟨passed, le_rfl, shows.alive, ticking, shows.bounded, shown.trans shows.shown,
              fun commit waiting => shows.waiting commit (same.symm.trans waiting), shows.sampled,
              fun unsampled settled => shows.caught unsampled (same.symm.trans settled)⟩
        | _ => cases external

end RowPage.ShowsUpTo

/-! ### The timer -/

namespace SystemHealthMonitor

variable (monitor : SystemHealthMonitor)

theorem scheduleTrailingFlush_heap :
    monitor.scheduleTrailingFlush.heapEmergencyPurgeMb = monitor.heapEmergencyPurgeMb := by
  unfold scheduleTrailingFlush
  split <;> rfl

/-- What a frame does: nothing, or it enters the sampling mode, counts or leaves it. -/
theorem recordFrameDelta_cases (deltaMs : JsNumber) :
    monitor.recordFrameDelta deltaMs = monitor ∨
      monitor.samplingMode = false ∧ monitor.recordFrameDelta deltaMs =
        { monitor with samplingMode := true, stableFrameCount := 0 } ∨
      monitor.samplingMode = true ∧
        (monitor.recordFrameDelta deltaMs =
            { monitor with stableFrameCount := monitor.stableFrameCount + 1 } ∨
          monitor.recordFrameDelta deltaMs =
            { monitor with
              samplingMode := false
              stableFrameCount := 0
              trailingFlushTimer := false }) := by
  cases deltaMs with
  | finite deltaMs =>
      rw [recordFrameDelta]
      cases mode : monitor.samplingMode with
      | false =>
          split
          · rw [enterSamplingMode, if_neg (by rw [mode]; decide)]
            exact .inr (.inl ⟨rfl, rfl⟩)
          · exact .inl rfl
      | true =>
          split
          · rw [enterSamplingMode, if_pos mode]
            exact .inl rfl
          · rw [if_neg (by decide)]
            dsimp only
            split
            · rw [exitSamplingMode, if_pos rfl]
              exact .inr (.inr ⟨rfl, .inr rfl⟩)
            · exact .inr (.inr ⟨rfl, .inl rfl⟩)
  | _ => exact .inl rfl

theorem recordFrameDelta_heap (deltaMs : JsNumber) :
    (monitor.recordFrameDelta deltaMs).heapEmergencyPurgeMb = monitor.heapEmergencyPurgeMb := by
  rcases monitor.recordFrameDelta_cases deltaMs with same | ⟨-, same⟩ | ⟨-, same | same⟩ <;> rw [same]

/-- A frame clears the timer exactly by leaving the sampling mode. -/
theorem recordFrameDelta_timer (deltaMs : JsNumber) :
    (monitor.recordFrameDelta deltaMs).trailingFlushTimer =
      (monitor.trailingFlushTimer &&
        !(monitor.samplingMode && !(monitor.recordFrameDelta deltaMs).samplingMode)) := by
  rcases monitor.recordFrameDelta_cases deltaMs with
    same | ⟨steady, same⟩ | ⟨sampling, same | same⟩
  · rw [same, Bool.and_not_self, Bool.not_false, Bool.and_true]
  · rw [same, steady, Bool.false_and, Bool.not_false, Bool.and_true]
  · rw [same, Bool.and_not_self, Bool.not_false, Bool.and_true]
  · rw [same, sampling]
    cases monitor.trailingFlushTimer <;> rfl

theorem recordHeapBytes_congr {other : SystemHealthMonitor}
    (same : monitor.heapEmergencyPurgeMb = other.heapEmergencyPurgeMb) :
    monitor.recordHeapBytes = other.recordHeapBytes := by
  funext usedHeapBytes
  cases usedHeapBytes <;> simp only [recordHeapBytes, same]

end SystemHealthMonitor

/-- The events leave the limit of the heap. -/
theorem heap_of_steps {page after : RowPage Row Detail} {event : PageEvent Row Detail}
    (taken : page.Steps hashOf event after) :
    after.systemHealth.heapEmergencyPurgeMb = page.systemHealth.heapEmergencyPurgeMb := by
  have purged :
      (page.emergencyPurge hashOf).systemHealth.heapEmergencyPurgeMb =
        page.systemHealth.heapEmergencyPurgeMb := by
    unfold RowPage.emergencyPurge
    split <;> rfl
  unfold RowPage.Steps RowPage.next at taken
  cases event with
  | queueTransactionCommit commit =>
      cases taken
      unfold RowPage.queueTransactionCommit RowPage.flushSampledCommit
      dsimp only
      split
      · rfl
      · exact page.systemHealth.scheduleTrailingFlush_heap
  | recordFrameDelta deltaMs =>
      cases taken
      exact page.systemHealth.recordFrameDelta_heap deltaMs
  | recordHeapBytes usedHeapBytes =>
      dsimp only at taken
      split at taken <;> cases taken
      · exact purged
      · rfl
  | emergencyPurge =>
      cases taken
      exact purged
  | trailingFlush =>
      dsimp only at taken
      split at taken <;> cases taken
      obtain ⟨systemHealth, sampledCommit, streamBatchIndex, cancelled, store⟩ := page
      cases cancelled <;> cases sampledCommit <;> rfl
  | store event =>
      dsimp only at taken
      split at taken
      · obtain ⟨store, -, rfl⟩ := Option.map_eq_some_iff.mp taken
        rfl
      · cases taken

theorem queuedBy_of_steps {page after : RowPage Row Detail} {event : PageEvent Row Detail}
    (taken : page.Steps hashOf event after) :
    (queuedBy after.systemHealth : PageEvent Row Detail → List (TickerCommit Row)) =
      queuedBy page.systemHealth := by
  have same := after.systemHealth.recordHeapBytes_congr (heap_of_steps taken)
  funext event
  cases event <;> simp only [queuedBy, same]

theorem queuedBy_of_run {page last : RowPage Row Detail} {history : List (PageEvent Row Detail)}
    (run : Run (RowPage.Steps hashOf) page history last) :
    (queuedBy last.systemHealth : PageEvent Row Detail → List (TickerCommit Row)) =
      queuedBy page.systemHealth := by
  induction run with
  | nil => rfl
  | cons head _ ih => exact ih.trans (queuedBy_of_steps head)

/-- A sampled commit has its timer unless the sampling mode was left since it was queued. -/
def RowPage.Armed (page : RowPage Row Detail) (left : Bool) : Prop :=
  page.sampledCommit.isSome = true → page.systemHealth.trailingFlushTimer = !left

theorem RowPage.Armed.step {page after : RowPage Row Detail} {event : PageEvent Row Detail}
    {left : Bool} (armed : page.Armed left) (alive : page.cancelled = false)
    (taken : page.Steps hashOf event after) : after.Armed (page.leftAfter left after event) := by
  have purged : (page.emergencyPurge hashOf).Armed left := by
    unfold RowPage.emergencyPurge
    rw [if_neg (by rw [alive]; decide)]
    intro sampled
    cases sampled
  unfold RowPage.Steps RowPage.next at taken
  cases event with
  | queueTransactionCommit commit =>
      cases taken
      unfold RowPage.queueTransactionCommit
      dsimp only
      split
      case isTrue =>
        intro sampled
        cases sampled
      case isFalse waits =>
        -- A batch that is not rendered finds the monitor sampling, so the timer is set.
        intro _
        have sampling : page.systemHealth.samplingMode = true := by
          by_contra steady
          exact waits (by rw [SystemHealthMonitor.shouldRenderBatch, if_pos (by simpa using steady)])
        change page.systemHealth.scheduleTrailingFlush.trailingFlushTimer = true
        rw [SystemHealthMonitor.scheduleTrailingFlush, if_neg (by rw [sampling]; decide)]
  | recordFrameDelta deltaMs =>
      cases taken
      intro sampled
      change (page.systemHealth.recordFrameDelta deltaMs).trailingFlushTimer = _
      rw [SystemHealthMonitor.recordFrameDelta_timer, armed sampled, RowPage.leftAfter, Bool.not_or]
      rfl
  | recordHeapBytes usedHeapBytes =>
      dsimp only at taken
      split at taken <;> cases taken
      · exact purged
      · exact armed
  | emergencyPurge =>
      cases taken
      exact purged
  | trailingFlush =>
      dsimp only at taken
      split at taken <;> cases taken
      intro sampled
      cases waited : page.sampledCommit with
      | some commit =>
          rw [RowPage.trailingFlush_of_sampled alive waited] at sampled
          cases sampled
      | none =>
          rw [RowPage.trailingFlush_of_unsampled alive waited, waited] at sampled
          cases sampled
  | store event =>
      dsimp only at taken
      split at taken
      · obtain ⟨store, -, rfl⟩ := Option.map_eq_some_iff.mp taken
        exact armed
      · cases taken

/-! ### Lives of the effect -/

/-- The effect begins with a store in which nothing waits. -/
structure RowPage.Mounted (page : RowPage Row Detail) : Prop where
  alive : page.cancelled = false
  unsampled : page.sampledCommit = none
  settled : page.store.pendingTickerCommit = none
  ticking : page.store.Ticking

theorem RowPage.Mounted.showsUpTo {page : RowPage Row Detail} (mounted : page.Mounted) :
    page.ShowsUpTo page.store.shownRows [] 0 where
  alive := mounted.alive
  ticking := mounted.ticking
  bounded := le_rfl
  shown := rfl
  waiting _ waits := nomatch mounted.settled.symm.trans waits
  sampled _ same := nomatch mounted.unsampled.symm.trans same
  caught _ _ := rfl

/-- What one life of the effect leaves to the next. -/
theorem RowPage.cleanup_mounted (page : RowPage Row Detail) (options : SystemHealthOptions) :
    ({ systemHealth := createSystemHealthMonitor options
       store := (page.cleanup hashOf).store } : RowPage Row Detail).Mounted := by
  obtain ⟨-, settled, idle⟩ := StreamStore.cancelFrame_ticker
    { (page.flushTransactionCommit hashOf).store with pendingTickerCommit := none }
  exact ⟨rfl, rfl, settled, .of_idle settled idle⟩

/-- A run shows later commits only and keeps the timer of a sampled one. -/
theorem run_page {page last : RowPage Row Detail} {history : List (PageEvent Row Detail)}
    {base : List Row × List Row} {queued : List (TickerCommit Row)} {passed : Nat} {left : Bool}
    (run : Run (RowPage.Steps hashOf) page history last)
    (shows : page.ShowsUpTo base queued passed) (armed : page.Armed left) :
    ∃ later, passed ≤ later ∧
      last.ShowsUpTo base (queued ++ queuedIn page.systemHealth history) later ∧
      last.Armed (leftSampling hashOf left page history) := by
  induction run generalizing queued passed left with
  | nil state => exact ⟨passed, le_rfl, by rwa [queuedIn, List.flatMap_nil, List.append_nil], armed⟩
  | @cons state middle final event rest head tail ih =>
      obtain ⟨between, onward, showsNext⟩ := shows.step head
      obtain ⟨later, further, showsLast, armedLast⟩ :=
        ih showsNext (armed.step shows.alive head)
      rw [List.append_assoc, queuedIn, queuedBy_of_steps head] at showsLast
      refine ⟨later, Nat.le_trans onward further, showsLast, ?_⟩
      rw [leftSampling, show state.next hashOf event = some middle from head]
      exact armedLast

/-- **The newest rows are in one place.** The page shows the last of the queued commits up to a number,
and from any such number on, a later moment in the life of the effect has one that is not smaller. The
newest commit is sampled, waits for a frame to come, or is shown. A sampled one has its timer exactly
when the sampling mode was not left since it was queued. -/
theorem run_rowCommits {page middle last : RowPage Row Detail}
    {history onward : List (PageEvent Row Detail)} (mounted : page.Mounted)
    (run : Run (RowPage.Steps hashOf) page history middle)
    (later : Run (RowPage.Steps hashOf) middle onward last) :
    (∃ before,
      middle.ShowsUpTo page.store.shownRows (queuedIn page.systemHealth history) before) ∧
      (∀ before,
        middle.ShowsUpTo page.store.shownRows (queuedIn page.systemHealth history) before →
          ∃ after, before ≤ after ∧ last.ShowsUpTo page.store.shownRows
            (queuedIn page.systemHealth (history ++ onward)) after) ∧
      (last.sampledCommit.isSome = true → (last.systemHealth.trailingFlushTimer = true ↔
        leftSampling hashOf false page (history ++ onward) = false)) := by
  have armed : page.Armed false := fun sampled => by
    rw [mounted.unsampled] at sampled
    cases sampled
  obtain ⟨number, -, shows, armedMiddle⟩ := run_page run mounted.showsUpTo armed
  obtain ⟨-, -, -, armedLast⟩ := run_page (run.append later) mounted.showsUpTo armed
  rw [List.nil_append] at shows
  refine ⟨⟨number, shows⟩, fun before showsBefore => ?_, fun sampled => ?_⟩
  · obtain ⟨after, onwards, showsLast, -⟩ := run_page later showsBefore armedMiddle
    unfold queuedIn at showsLast ⊢
    rw [queuedBy_of_run run, ← List.flatMap_append] at showsLast
    exact ⟨after, onwards, showsLast⟩
  · rw [armedLast sampled, Bool.not_eq_true']

end Newest

/-! ## A sample run -/

/-- After a slow frame a commit is sampled, and five stable frames leave the sampling mode before the
timer runs. -/
def leftBehind : List (PageEvent String Nat) :=
  [.recordFrameDelta (.finite 50), .queueTransactionCommit (sampleCommit ["0x1"]),
    .recordFrameDelta (.finite 16), .recordFrameDelta (.finite 16), .recordFrameDelta (.finite 16),
    .recordFrameDelta (.finite 16), .recordFrameDelta (.finite 16)]

/-- A page that has just mounted. -/
def freshPage : RowPage String Nat where
  systemHealth := createSystemHealthMonitor {}

/-- Where the sample events lead. -/
def leftPage : RowPage String Nat :=
  (leftBehind.foldlM (RowPage.next JsValue.string) freshPage).getD freshPage

theorem leftBehind_sampled :
    leftPage.sampledCommit = some (sampleCommit ["0x1"]) ∧
      leftPage.systemHealth.trailingFlushTimer = false ∧ leftPage.store.shownRows = ([], []) := by
  have reached : Run (RowPage.Steps JsValue.string) freshPage leftBehind leftPage :=
    Run.of_foldlM (by decide +kernel)
  have mounted : freshPage.Mounted := ⟨rfl, rfl, rfl, .of_idle rfl rfl⟩
  obtain ⟨-, -, timer⟩ := run_rowCommits mounted reached (.nil _)
  have sampled : leftPage.sampledCommit = some (sampleCommit ["0x1"]) := by decide +kernel
  refine ⟨sampled, ?_, by decide +kernel⟩
  rw [← Bool.not_eq_true, timer (by rw [sampled]; rfl)]
  decide +kernel

end Mempulse.WebUi
