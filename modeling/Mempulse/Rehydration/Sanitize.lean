import Mempulse.Library.Splits
import Mempulse.Scheduler.Frontier
import Mempulse.Scheduler.Snapshot

/-!
# Sanitizing a snapshot

At startup the transactions that were dropped, replaced or confirmed after a snapshot are taken
out of it. A hash is taken out when the last event of the tail that removes or restores it
removes it.

What is left lists a seated state again, the one that keeps the other transactions. Its frontier
is filtered by hash while the loader derives it from the nonces that are left, and the two agree
exactly under `FrontierSurvives` (`sanitized_snapshot_loads_iff`).
-/

set_option autoImplicit false

namespace Mempulse.Rehydration

open Std EventLog Library Scheduler SchedulerState

/-! ## The code -/

/-- The body of the loop of `sanitize_scheduler_snapshot_for_rehydration`. -/
def noteRemoval (removedHashes : ExtTreeSet TxHash) (event : EventEnvelope) : ExtTreeSet TxHash :=
  match event.payload with
  | .txDecoded decoded => removedHashes.erase decoded.hash
  | .txReorged reorged => removedHashes.erase reorged.hash
  | .txDropped dropped => removedHashes.insert dropped.hash
  | .txReplaced replaced => removedHashes.insert replaced.hash
  | .txConfirmedProvisional confirmed | .txConfirmedFinal confirmed =>
    removedHashes.insert confirmed.hash
  | .txSeen _ | .txFetched _ | .candidateQueued _ | .simDispatched _ | .oppDetected _
  | .simCompleted _ | .assemblyDecisionApplied _ | .bundleSubmitted _ | .txReady _
  | .txBlocked _ => removedHashes

/-- The hashes that a tail removes and does not bring back. -/
def removedHashes (replayEvents : List EventEnvelope) : ExtTreeSet TxHash :=
  replayEvents.foldl noteRemoval ∅

/-- The snapshot without what the tail removed. -/
def sanitizeSchedulerSnapshotForRehydration (snapshot : PersistedSchedulerSnapshot)
    (replayEvents : List EventEnvelope) : PersistedSchedulerSnapshot :=
  let removed := removedHashes replayEvents
  if removed.isEmpty then snapshot
  else
    { snapshot with
      pending := snapshot.pending.filter fun tx => !removed.contains tx.hash
      executableFrontier := snapshot.executableFrontier.filter fun hash => !removed.contains hash
      senderQueues :=
        (snapshot.senderQueues.map fun queue =>
          { queue with
            queued := queue.queued.filter fun entry => !removed.contains entry.hash }).filter
          fun queue => !queue.queued.isEmpty }

/-! ## What the tail removes -/

/-- The hash an event takes out of the pending transactions. -/
def removes : EventPayload → Option TxHash
  | .txDropped dropped => some dropped.hash
  | .txReplaced replaced => some replaced.hash
  | .txConfirmedProvisional confirmed | .txConfirmedFinal confirmed => some confirmed.hash
  | _ => none

/-- The hash an event makes pending again. -/
def restores : EventPayload → Option TxHash
  | .txDecoded decoded => some decoded.hash
  | .txReorged reorged => some reorged.hash
  | _ => none

/-- The last event of the tail that removes or restores the hash removes it. -/
def RemovedBy (tail : List EventEnvelope) (hash : TxHash) : Prop :=
  ∃ earlier event later, tail = earlier ++ event :: later ∧
    removes event.payload = some hash ∧ ∀ after ∈ later, restores after.payload ≠ some hash

theorem mem_noteRemoval (removed : ExtTreeSet TxHash) (event : EventEnvelope) (hash : TxHash) :
    hash ∈ noteRemoval removed event ↔
      removes event.payload = some hash ∨ hash ∈ removed ∧ restores event.payload ≠ some hash := by
  unfold noteRemoval
  cases event.payload <;>
    simp [removes, restores, ExtTreeSet.mem_insert, ExtTreeSet.mem_erase, and_comm]

theorem removedBy_append_singleton (tail : List EventEnvelope) (event : EventEnvelope)
    (hash : TxHash) :
    RemovedBy (tail ++ [event]) hash ↔
      removes event.payload = some hash ∨
        RemovedBy tail hash ∧ restores event.payload ≠ some hash := by
  constructor
  · rintro ⟨earlier, removal, later, whole, isRemoval, silent⟩
    rcases split_append_singleton whole with ⟨-, rfl, -⟩ | ⟨others, rfl, rfl⟩
    · exact Or.inl isRemoval
    · refine Or.inr ⟨⟨earlier, removal, others, rfl, isRemoval, fun after member => ?_⟩, ?_⟩
      · exact silent after (List.mem_append_left _ member)
      · exact silent event (List.mem_append_right _ List.mem_cons_self)
  · rintro (isRemoval | ⟨⟨earlier, removal, later, rfl, isRemoval, silent⟩, quiet⟩)
    · exact ⟨tail, event, [], rfl, isRemoval, by simp⟩
    · refine ⟨earlier, removal, later ++ [event], by simp, isRemoval, fun after member => ?_⟩
      rcases List.mem_append.mp member with before | last
      · exact silent after before
      · rw [List.mem_singleton.mp last]
        exact quiet

/-- **The removed set holds the hashes the tail removes.** -/
theorem mem_removedHashes {tail : List EventEnvelope} {hash : TxHash} :
    hash ∈ removedHashes tail ↔ RemovedBy tail hash := by
  induction tail using List.reverseRecOn with
  | nil => simp [removedHashes, RemovedBy]
  | append_singleton tail event ih =>
      have step : removedHashes (tail ++ [event]) = noteRemoval (removedHashes tail) event := by
        rw [removedHashes, List.foldl_append]
        rfl
      rw [step, mem_noteRemoval, removedBy_append_singleton, ih]

instance (tail : List EventEnvelope) : DecidablePred (RemovedBy tail) := fun _ =>
  decidable_of_iff _ mem_removedHashes

/-- The hashes the tail leaves pending. -/
def kept (tail : List EventEnvelope) (hash : TxHash) : Bool := ¬ RemovedBy tail hash

theorem not_contains_removedHashes (tail : List EventEnvelope) :
    (fun hash => !(removedHashes tail).contains hash) = kept tail := by
  funext hash
  by_cases removed : RemovedBy tail hash
  · have contained := ExtTreeSet.mem_iff_contains.mp (mem_removedHashes.mpr removed)
    simp [kept, removed, contained]
  · have missing : (removedHashes tail).contains hash = false := by
      rw [← Bool.not_eq_true, ← ExtTreeSet.mem_iff_contains, mem_removedHashes]
      exact removed
    simp [kept, removed, missing]

/-! ## The state that keeps the other transactions -/

/-- The queue without the removed hashes. -/
def keptQueue (keep : TxHash → Bool) (queue : SenderQueue) : SenderQueue :=
  queue.filter fun _ hash => keep hash

/-- The state without the removed hashes. -/
def keptState (keep : TxHash → Bool) (state : SchedulerState) : SchedulerState where
  pending := state.pending.filter fun hash _ => keep hash
  senderQueues := state.senderQueues.filterMap fun _ queue =>
    if keptQueue keep queue = ∅ then none else some (keptQueue keep queue)

section Kept

variable {keep : TxHash → Bool} {state : SchedulerState}

theorem getElem?_pending_keptState (hash : TxHash) (tx : ValidatedTransaction) :
    (keptState keep state).pending[hash]? = some tx ↔
      state.pending[hash]? = some tx ∧ keep hash = true := by
  rw [keptState, ExtTreeMap.getElem?_filter', Option.filter_eq_some_iff]

theorem slot_keptState (sender : Address) (nonce : UInt64) (hash : TxHash) :
    (keptState keep state).slot sender nonce = some hash ↔
      state.slot sender nonce = some hash ∧ keep hash = true := by
  rw [slot_eq_some_iff, slot_eq_some_iff, keptState, ExtTreeMap.getElem?_filterMap']
  constructor
  · rintro ⟨queue, queued, entry⟩
    obtain ⟨whole, found, survives⟩ := Option.bind_eq_some_iff.mp queued
    split at survives
    case isTrue => cases survives
    case isFalse =>
      rw [← Option.some.inj survives, keptQueue, ExtTreeMap.getElem?_filter',
        Option.filter_eq_some_iff] at entry
      exact ⟨⟨whole, found, entry.1⟩, entry.2⟩
  · rintro ⟨⟨whole, found, entry⟩, keeps⟩
    have survives : (keptQueue keep whole)[nonce]? = some hash := by
      rw [keptQueue, ExtTreeMap.getElem?_filter', Option.filter_eq_some_iff]
      exact ⟨entry, keeps⟩
    have nonempty : keptQueue keep whole ≠ ∅ := by
      intro empty
      rw [empty] at survives
      simp at survives
    exact ⟨_, by rw [found, Option.bind_some, if_neg nonempty], survives⟩

theorem keptState_seating (seating : Seating state) : Seating (keptState keep state) where
  keyed := fun stored => seating.keyed ((getElem?_pending_keptState _ _).mp stored).1
  seated := by
    intro hash tx stored
    obtain ⟨before, keeps⟩ := (getElem?_pending_keptState _ _).mp stored
    exact (slot_keptState _ _ _).mpr ⟨seating.seated before, keeps⟩
  occupied := by
    intro sender nonce hash named
    obtain ⟨before, keeps⟩ := (slot_keptState _ _ _).mp named
    obtain ⟨tx, stored, sameSender, sameNonce⟩ := seating.occupied before
    exact ⟨tx, (getElem?_pending_keptState _ _).mpr ⟨stored, keeps⟩, sameSender, sameNonce⟩
  nonempty := by
    intro sender queue queued
    rw [keptState, ExtTreeMap.getElem?_filterMap'] at queued
    obtain ⟨whole, -, survives⟩ := Option.bind_eq_some_iff.mp queued
    split at survives
    case isTrue => cases survives
    case isFalse nonempty =>
      rw [← Option.some.inj survives]
      exact nonempty

end Kept

/-! ## What sanitizing leaves -/

/-- The snapshot without the hashes that are not kept. -/
def withoutRemoved (keep : TxHash → Bool) (snapshot : PersistedSchedulerSnapshot) :
    PersistedSchedulerSnapshot :=
  { snapshot with
    pending := snapshot.pending.filter fun tx => keep tx.hash
    executableFrontier := snapshot.executableFrontier.filter keep
    senderQueues :=
      (snapshot.senderQueues.map fun queue =>
        { queue with queued := queue.queued.filter fun entry => keep entry.hash }).filter
        fun queue => !queue.queued.isEmpty }

/-- The early return for an empty removed set is no exception, when no listed queue is empty. -/
theorem sanitize_eq {snapshot : PersistedSchedulerSnapshot} (tail : List EventEnvelope)
    (full : ∀ queue ∈ snapshot.senderQueues, queue.queued ≠ []) :
    sanitizeSchedulerSnapshotForRehydration snapshot tail =
      withoutRemoved (kept tail) snapshot := by
  have keeps := not_contains_removedHashes tail
  unfold sanitizeSchedulerSnapshotForRehydration
  dsimp only
  split
  case isTrue empty =>
    have all : kept tail = fun _ => true := by
      rw [← keeps]
      funext hash
      simp [ExtTreeSet.isEmpty_iff.mp empty]
    have queues : (snapshot.senderQueues.filter fun queue => !queue.queued.isEmpty) =
        snapshot.senderQueues := by
      rw [List.filter_eq_self]
      intro queue member
      simpa using full queue member
    simp [withoutRemoved, all, queues]
  case isFalse =>
    unfold withoutRemoved
    rw [← keeps]

theorem lists_withoutRemoved {snapshot : PersistedSchedulerSnapshot} {state : SchedulerState}
    (keep : TxHash → Bool) (seating : Seating state) (lists : Lists snapshot state) :
    Lists (withoutRemoved keep snapshot) (keptState keep state) where
  pending := by
    rw [withoutRemoved, lists.pending, keptState, ExtTreeMap.toList_filter, List.filter_map]
    refine congrArg (List.map Prod.snd) (List.filter_congr fun entry member => ?_)
    rw [Function.comp_apply, seating.keyed (mem_toList.mp member)]
  senderQueues := by
    rw [persistedSenderQueueSnapshots, keptState, ExtTreeMap.toList_filterMap, List.map_filterMap]
    change ((snapshot.senderQueues.map _).filter _) = _
    rw [lists.senderQueues, persistedSenderQueueSnapshots, List.map_map, ← List.filterMap_eq_filter,
      List.filterMap_map]
    refine List.filterMap_congr fun entry _ => ?_
    have filtered : (entry.2.toList.map fun queued =>
          (⟨queued.1, queued.2⟩ : PersistedSenderQueueEntry)).filter (fun queued => keep queued.hash) =
        (keptQueue keep entry.2).toList.map fun queued => ⟨queued.1, queued.2⟩ := by
      rw [keptQueue, ExtTreeMap.toList_filter, List.filter_map]
      rfl
    simp only [Function.comp_apply, filtered, Option.guard, List.isEmpty_map, Bool.not_eq_true',
      List.isEmpty_eq_false_iff, ne_eq, ExtTreeMap.toList_eq_nil_iff]
    by_cases empty : keptQueue keep entry.2 = ∅
    · simp [empty]
    · simp [empty]

/-! ## When the frontier survives -/

/-- Taking out the removed hashes leaves the frontier of what is left: either nothing of the
frontier is left, or in every queue the ready entries that are left have consecutive nonces, and
a queue of which none is left has no other entries left. -/
def FrontierSurvives (keep : TxHash → Bool) (state : SchedulerState) : Prop :=
  (∀ hash ∈ state.executableFrontierHashes, keep hash = false) ∨
    ∀ (sender : Address) (queue : SenderQueue), state.senderQueues[sender]? = some queue →
      Consecutive checkedSucc ((readyEntries queue).filter fun entry => keep entry.2) ∧
        (((readyEntries queue).filter fun entry => keep entry.2) = [] →
          ∀ (nonce : UInt64) (hash : TxHash), queue[nonce]? = some hash → keep hash = false)

section Survives

variable {keep : TxHash → Bool} {state : SchedulerState} (seating : Seating state)
include seating

/-- The frontier of what is left, queue by queue of the whole state. -/
theorem executableFrontierHashes_keptState :
    (keptState keep state).executableFrontierHashes =
      state.senderQueues.toList.flatMap fun entry =>
        (leadingRun checkedSucc (entry.2.toList.filter fun queued => keep queued.2)).map
          Prod.snd := by
  rw [(keptState_seating seating).executableFrontierHashes_eq, keptState,
    ExtTreeMap.toList_filterMap]
  induction state.senderQueues.toList with
  | nil => rfl
  | cons entry rest ih =>
      have filtered : (entry.2.toList.filter fun queued => keep queued.2) =
          (keptQueue keep entry.2).toList := by
        rw [keptQueue, ExtTreeMap.toList_filter]
      rw [List.filterMap_cons, List.flatMap_cons, filtered]
      by_cases empty : keptQueue keep entry.2 = ∅
      · rw [if_pos empty, ExtTreeMap.toList_eq_nil_iff.mpr empty]
        exact ih
      · rw [if_neg empty]
        exact congrArg _ ih

/-- A hash of a queue tells the queue's sender and its own nonce. -/
theorem placement_of_queued {sender : Address} {queue : SenderQueue}
    (queued : state.senderQueues[sender]? = some queue) {entry : UInt64 × TxHash}
    (member : entry ∈ queue.toList) :
    (state.pending[entry.2]?).map (fun tx => (tx.decoded.sender, tx.decoded.nonce)) =
      some (sender, entry.1) := by
  obtain ⟨tx, stored, sameSender, sameNonce⟩ :=
    seating.occupied (slot_eq_some_iff.mpr ⟨queue, queued, mem_toList.mp member⟩)
  rw [stored, Option.map_some, sameSender, sameNonce]

/-- Parts of a queue with the same hashes are the same. -/
theorem map_snd_inj_of_queued {sender : Address} {queue : SenderQueue}
    (queued : state.senderQueues[sender]? = some queue) {left right : List (UInt64 × TxHash)}
    (inLeft : left ⊆ queue.toList) (inRight : right ⊆ queue.toList) :
    left.map Prod.snd = right.map Prod.snd ↔ left = right := by
  have rebuilt : ∀ {part : List (UInt64 × TxHash)}, part ⊆ queue.toList →
      (part.map Prod.snd).map (fun hash =>
        (((state.pending[hash]?).map (·.decoded.nonce)).getD 0, hash)) = part := by
    intro part within
    rw [List.map_map]
    refine (List.map_congr_left fun entry member => ?_).trans (List.map_id part)
    have placed := congrArg (Option.map Prod.snd) (placement_of_queued seating queued (within member))
    rw [Option.map_map] at placed
    exact Prod.ext (congrArg (Option.getD · 0) placed) rfl
  constructor
  · intro same
    rw [← rebuilt inLeft, same, rebuilt inRight]
  · exact congrArg _

/-- **The filtered frontier is the frontier of what is left exactly when it survives.** -/
theorem filter_frontier_eq_iff :
    (state.executableFrontierHashes.filter keep = [] ∨
      state.executableFrontierHashes.filter keep =
        (keptState keep state).executableFrontierHashes) ↔ FrontierSurvives keep state := by
  have emptied : state.executableFrontierHashes.filter keep = [] ↔
      ∀ hash ∈ state.executableFrontierHashes, keep hash = false := by
    rw [List.filter_eq_nil_iff]
    simp only [Bool.not_eq_true]
  have spread : state.executableFrontierHashes.filter keep =
      state.senderQueues.toList.flatMap fun entry =>
        ((readyEntries entry.2).filter fun queued => keep queued.2).map Prod.snd := by
    rw [seating.executableFrontierHashes_eq, List.filter_flatMap]
    refine List.flatMap_congr fun entry _ => ?_
    rw [List.filter_map]
    rfl
  have readyPart : ∀ queue : SenderQueue,
      ((readyEntries queue).filter fun queued => keep queued.2) ⊆ queue.toList := by
    intro queue
    exact List.Subset.trans (List.filter_sublist.subset) (leadingRun_isInitial _ _).subset
  have leftPart : ∀ queue : SenderQueue,
      leadingRun checkedSucc (queue.toList.filter fun queued => keep queued.2) ⊆ queue.toList := by
    intro queue
    exact List.Subset.trans (leadingRun_isInitial _ _).subset (List.filter_sublist.subset)
  have owned : ∀ {part : SenderQueue → List (UInt64 × TxHash)},
      (∀ queue, part queue ⊆ queue.toList) → ∀ entry ∈ state.senderQueues.toList,
        ∀ hash ∈ (part entry.2).map Prod.snd,
          ((state.pending[hash]?).map (·.decoded.sender)).getD 0 = entry.1 := by
    intro part within entry member hash listed
    obtain ⟨queued, inPart, rfl⟩ := List.mem_map.mp listed
    have placed := congrArg (Option.map Prod.fst)
      (placement_of_queued seating (mem_toList.mp member) (within _ inPart))
    rw [Option.map_map] at placed
    exact congrArg (Option.getD · 0) placed
  rw [FrontierSurvives, emptied, spread, executableFrontierHashes_keptState seating,
    flatMap_toList_eq_iff (fun hash => ((state.pending[hash]?).map (·.decoded.sender)).getD 0)
      (owned readyPart) (owned leftPart)]
  refine or_congr Iff.rfl ?_
  have atQueue : ∀ {sender : Address} {queue : SenderQueue},
      state.senderQueues[sender]? = some queue →
      ((((readyEntries queue).filter fun queued => keep queued.2).map Prod.snd =
          (leadingRun checkedSucc (queue.toList.filter fun queued => keep queued.2)).map Prod.snd) ↔
        Consecutive checkedSucc ((readyEntries queue).filter fun entry => keep entry.2) ∧
          (((readyEntries queue).filter fun entry => keep entry.2) = [] →
            ∀ (nonce : UInt64) (hash : TxHash), queue[nonce]? = some hash → keep hash = false)) := by
    intro sender queue queued
    rw [map_snd_inj_of_queued seating queued (readyPart queue) (leftPart queue), eq_comm]
    refine (leadingRun_filter_iff nonceNumbering (ascending_toList queue) _).trans
      (and_congr Iff.rfl (imp_congr Iff.rfl ?_))
    rw [List.filter_eq_nil_iff]
    constructor
    · intro gone nonce hash entry
      exact Bool.not_eq_true _ ▸ gone (nonce, hash) (mem_toList.mpr entry)
    · intro gone entry member
      exact Bool.not_eq_true _ ▸ gone entry.1 entry.2 (mem_toList.mp member)
  constructor
  · intro same sender queue queued
    exact (atQueue queued).mp (same (sender, queue) (mem_toList.mpr queued))
  · intro survives entry member
    have queued := mem_toList.mp member
    exact (atQueue queued).mpr (survives entry.1 entry.2 queued)

end Survives

/-- A seated state persists no empty queue. -/
theorem persisted_queued_ne_nil {state : SchedulerState} (seating : Seating state) :
    ∀ queue ∈ state.persistedSenderQueueSnapshots, queue.queued ≠ [] := by
  intro persisted member
  obtain ⟨entry, listed, rfl⟩ := List.mem_map.mp member
  have nonempty := seating.nonempty (mem_toList.mp listed)
  simpa using fun none => nonempty (ExtTreeMap.toList_eq_nil_iff.mp none)

/-- What the loader makes of the sanitized snapshot of a seated state. -/
theorem load_sanitized {state : SchedulerState} (seating : Seating state)
    {snapshot : PersistedSchedulerSnapshot} (lists : Lists snapshot state)
    (frontier : snapshot.executableFrontier = state.executableFrontierHashes)
    (tail : List EventEnvelope) :
    FrontierSurvives (kept tail) state ∧
        fromPersistedSnapshot (sanitizeSchedulerSnapshotForRehydration snapshot tail) =
          .ok (keptState (kept tail) state).reloaded ∨
      ¬ FrontierSurvives (kept tail) state ∧
        ∀ loaded, fromPersistedSnapshot
          (sanitizeSchedulerSnapshotForRehydration snapshot tail) ≠ .ok loaded := by
  have full := persisted_queued_ne_nil seating
  rw [← lists.senderQueues] at full
  rw [sanitize_eq tail full, ← filter_frontier_eq_iff seating, ← frontier]
  exact (lists_withoutRemoved _ seating lists).fromPersistedSnapshot_eq (keptState_seating seating)

/-- **When a sanitized snapshot loads.** The sanitized snapshot of a reachable state is accepted
by the loader exactly when its frontier survives the removals. -/
theorem sanitized_snapshot_loads_iff (config : SchedulerConfig) (commands : List SchedulerCommand)
    (capturedAtUnixMs : Int64) (capturedAtMonoNs : UInt64) (tail : List EventEnvelope) :
    (∃ restored, fromPersistedSnapshot
      (sanitizeSchedulerSnapshotForRehydration
        ((SchedulerState.run config {} commands).persistedSnapshot capturedAtUnixMs
          capturedAtMonoNs) tail) = .ok restored) ↔
      FrontierSurvives (kept tail) (SchedulerState.run config {} commands) := by
  have seating := (RepresentationInvariant.reached config commands).seating
  rcases load_sanitized seating (lists_persistedSnapshot _ capturedAtUnixMs capturedAtMonoNs) rfl
    tail with ⟨survives, loads⟩ | ⟨lost, refused⟩
  · exact ⟨fun _ => survives, fun _ => ⟨_, loads⟩⟩
  · constructor
    · rintro ⟨restored, loads⟩
      exact absurd loads (refused restored)
    · exact fun survives => absurd survives lost

/-- Confirming the middle of a ready queue makes its snapshot unloadable: the transactions with
nonces 0 and 2 both stay in the frontier, and the loader finds the second one blocked. -/
theorem sanitized_snapshot_refused : ¬ ∃ restored,
    fromPersistedSnapshot
      (sanitizeSchedulerSnapshotForRehydration
        ((SchedulerState.run {} {}
          [.admitTx (sampleValidatedTx 10 1 0 100), .admitTx (sampleValidatedTx 11 1 1 100),
            .admitTx (sampleValidatedTx 12 1 2 100)]).persistedSnapshot 0 0)
        [⟨1, 0, 0, "rpc-mainnet", .txConfirmedFinal ⟨11, 1, 7⟩⟩]) = .ok restored := by
  rintro ⟨restored, loads⟩
  have accepted : _ = true := congrArg Except.isOk loads
  exact absurd accepted (by decide +kernel)

end Mempulse.Rehydration
