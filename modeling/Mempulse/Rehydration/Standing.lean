import Mempulse.Rehydration.Restore
import Mempulse.Replay.Lifecycle
import Mempulse.Replay.Resumption

/-!
# Where a transaction stands

After a snapshot a transaction enters and leaves the live scheduler, and the chain confirms it and
takes the confirmation back. Where it stands is read off the events since the snapshot.

The replay model that is seeded with the snapshot calls pending exactly what is waiting
(`Shown.replay`), and a transaction is waiting exactly when it was pending in the snapshot or was
decoded or reopened since, and the last such event about it is not a removal (`waiting_iff`). Both
hold as long as reorgs take back confirmations that were made, and queue events are about waiting
transactions.
-/

set_option autoImplicit false

namespace Mempulse.Rehydration

open Std EventLog Library Scheduler Replay

/-! ## Standings -/

/-- Where a transaction stands with the live scheduler and the chain. -/
inductive Standing where
  /-- The live scheduler does not have it. -/
  | gone
  /-- The live scheduler has it, and the chain has not confirmed it. -/
  | waiting
  /-- The live scheduler has it, and the chain has confirmed it in a block. -/
  | included (blockHash : BlockHash)
  deriving DecidableEq

/-- Where a transaction stands after one more event. -/
def Standing.next (hash : TxHash) (standing : Standing) : EventPayload → Standing
  | .txDecoded decoded => if decoded.hash = hash then .waiting else standing
  | .txReplaced replaced => if replaced.hash = hash then .gone else standing
  | .txDropped dropped => if dropped.hash = hash then .gone else standing
  | .txConfirmedProvisional confirmed | .txConfirmedFinal confirmed =>
    if confirmed.hash = hash ∧ standing ≠ .gone then .included confirmed.blockHash else standing
  | .txReorged reorged =>
    if reorged.hash = hash ∧ standing = .included reorged.oldBlockHash then .waiting else standing
  | .txSeen _ | .txFetched _ | .candidateQueued _ | .simDispatched _ | .oppDetected _
  | .simCompleted _ | .assemblyDecisionApplied _ | .bundleSubmitted _ | .txReady _
  | .txBlocked _ => standing

/-- Where a transaction stands after some events. -/
def standingAfter (captured : SchedulerState) (payloads : List EventPayload) (hash : TxHash) :
    Standing :=
  payloads.foldl (Standing.next hash) (if captured.pending.contains hash then .waiting else .gone)

/-- A reorg is about a transaction that waits or that its old block confirmed, and a queue event is
about one that waits. -/
def FitsStanding (standing : TxHash → Standing) : EventPayload → Prop
  | .txReorged reorged =>
    standing reorged.hash = .waiting ∨ standing reorged.hash = .included reorged.oldBlockHash
  | .txReady ready => standing ready.hash = .waiting
  | .txBlocked blocked => standing blocked.hash = .waiting
  | _ => True

/-- Every reorg and every queue event is about a transaction that stands so. -/
def Orderly (captured : SchedulerState) (payloads : List EventPayload) : Prop :=
  ∀ before payload after, payloads = before ++ payload :: after →
    FitsStanding (standingAfter captured before) payload

section Standing

variable {captured : SchedulerState} {payloads : List EventPayload} {payload : EventPayload}
  {hash : TxHash} {standing : Standing}

@[simp] theorem standingAfter_append_singleton :
    standingAfter captured (payloads ++ [payload]) hash =
      (standingAfter captured payloads hash).next hash payload := by
  rw [standingAfter, List.foldl_append]
  rfl

theorem Orderly.init (orderly : Orderly captured (payloads ++ [payload])) :
    Orderly captured payloads :=
  (forall_split_append_singleton.mp orderly).2

theorem Orderly.last (orderly : Orderly captured (payloads ++ [payload])) :
    FitsStanding (standingAfter captured payloads) payload :=
  orderly payloads payload [] rfl

theorem Orderly.concat (orderly : Orderly captured payloads)
    (fits : FitsStanding (standingAfter captured payloads) payload) :
    Orderly captured (payloads ++ [payload]) :=
  forall_split_append_singleton.mpr ⟨fits, orderly⟩

theorem FitsStanding.stands {standing : TxHash → Standing} {reorged : TxReorged}
    (fits : FitsStanding standing (.txReorged reorged)) : standing reorged.hash ≠ .gone := by
  rcases fits with waits | included
  · rw [waits]
    nofun
  · rw [included]
    nofun

/-- A removal leaves nothing waiting. -/
theorem Standing.next_of_removes (removal : removes payload = some hash) :
    standing.next hash payload ≠ .waiting := by
  cases payload with
  | txDropped dropped | txReplaced replaced =>
      cases removal
      simp [Standing.next]
  | txConfirmedProvisional confirmed | txConfirmedFinal confirmed =>
      cases removal
      by_cases absent : standing = .gone <;> simp [Standing.next, absent]
  | _ => cases removal

theorem Standing.next_of_restores {standing : TxHash → Standing}
    (restoration : restores payload = some hash) (fits : FitsStanding standing payload) :
    (standing hash).next hash payload = .waiting := by
  cases payload with
  | txDecoded decoded =>
      cases restoration
      exact if_pos rfl
  | txReorged reorged =>
      cases restoration
      dsimp only [Standing.next]
      rcases fits with waits | confirmed
      · rw [waits]
        exact ite_self _
      · exact if_pos ⟨rfl, confirmed⟩
  | _ => cases restoration

theorem Standing.next_of_silent (noRemoval : removes payload ≠ some hash)
    (noRestoration : restores payload ≠ some hash) : standing.next hash payload = standing := by
  cases payload with
  | txDecoded decoded => exact if_neg fun same => noRestoration (congrArg some same)
  | txReplaced replaced => exact if_neg fun same => noRemoval (congrArg some same)
  | txDropped dropped => exact if_neg fun same => noRemoval (congrArg some same)
  | txConfirmedProvisional confirmed | txConfirmedFinal confirmed =>
      exact if_neg fun both => noRemoval (congrArg some both.1)
  | txReorged reorged => exact if_neg fun both => noRestoration (congrArg some both.1)
  | _ => rfl

/-- **What waits.** A transaction waits exactly when it was pending in the snapshot or was decoded
or reopened since, and the last such event about it is not a removal. -/
theorem waiting_iff (orderly : Orderly captured payloads) (hash : TxHash) :
    standingAfter captured payloads hash = .waiting ↔
      (captured.pending.contains hash = true ∨
          ∃ payload ∈ payloads, restores payload = some hash) ∧
        removed hash payloads = false := by
  induction payloads using List.reverseRecOn with
  | nil =>
      rw [standingAfter, List.foldl_nil]
      split <;> simp_all [removed]
  | append_singleton payloads payload ih =>
      have before := ih orderly.init
      rw [standingAfter_append_singleton, removed, flagAfter_append_singleton, ← removed]
      by_cases removal : removes payload = some hash
      · refine iff_of_false (Standing.next_of_removes removal) ?_
        simp [removal]
      · by_cases restoration : restores payload = some hash
        · refine iff_of_true (Standing.next_of_restores restoration orderly.last) ?_
          exact ⟨.inr ⟨payload, by simp, restoration⟩, by simp [removal, restoration]⟩
        · rw [Standing.next_of_silent removal restoration, before]
          simp [removal, restoration, or_and_right, exists_or]

end Standing

/-! ## The seeded replay model -/

/-- The sender queues of a snapshot as the replay model reads them, with some queue states. -/
def replaySenderQueues (queueStates : TxHash → ReplayQueueState)
    (snapshot : PersistedSchedulerSnapshot) : List ReplaySenderQueue :=
  snapshot.senderQueues.map fun queue =>
    { sender := queue.sender
      queued := queue.queued.map fun entry =>
        { hash := entry.hash, nonce := entry.nonce, state := queueStates entry.hash } }

/-- The replay model, seeded with the pending set and the sender queues of a snapshot. -/
def seededFrom (queueStates : TxHash → ReplayQueueState) (snapshot : PersistedSchedulerSnapshot) :
    MempoolState :=
  MempoolState.fromCheckpoint (snapshot.pending.map ValidatedTransaction.hash)
    (replaySenderQueues queueStates snapshot)

/-- What the status of a hash says about where it stands. -/
def Shows (status : Option TxLifecycleStatus) : Standing → Prop
  | .gone => status ≠ some .pending
  | .waiting => status = some .pending
  | .included blockHash => status.bind (·.confirmedIn) = some blockHash

theorem Shows.pending_iff {status : Option TxLifecycleStatus} {standing : Standing}
    (shows : Shows status standing) : status = some .pending ↔ standing = .waiting := by
  cases standing with
  | gone => exact iff_of_false shows nofun
  | waiting => exact iff_of_true shows rfl
  | included blockHash =>
      refine iff_of_false ?_ nofun
      rintro rfl
      cases shows

/-- The replay model shows where every transaction stands. -/
structure Shown (places : TxHash → Address × UInt64) (captured : SchedulerState)
    (payloads : List EventPayload) (state : MempoolState) : Prop where
  seats : MempoolState.Seats places state
  knows : MempoolState.Knows places state
  shows : ∀ hash, Shows (state.lifecycle hash) (standingAfter captured payloads hash)

/-- A decoded transaction finds no transaction in its slot. -/
def FindsFree (places : TxHash → Address × UInt64) (standing : TxHash → Standing) :
    EventPayload → Prop
  | .txDecoded decoded => ∀ hash, standing hash ≠ .gone → places hash ≠ slotOfDecoded decoded
  | _ => True

section Shown

variable {places : TxHash → Address × UInt64} {captured : SchedulerState}
  {payloads : List EventPayload} {payload : EventPayload} {state : MempoolState}

/-- The status an event leaves shows where its hash stands after it. -/
theorem Shown.shows_step (shown : Shown places captured payloads state)
    (fits : FitsStanding (standingAfter captured payloads) payload)
    (free : FindsFree places (standingAfter captured payloads) payload) (hash : TxHash) :
    Shows ((state.applyEvent payload).2.lifecycle hash)
      ((standingAfter captured payloads hash).next hash payload) := by
  have before := shown.shows hash
  cases payload with
  | txDecoded decoded =>
      dsimp only [MempoolState.applyEvent, Standing.next]
      rw [MempoolState.lifecycle_applyDecoded]
      split
      case isTrue => rfl
      case isFalse =>
        split
        case isTrue held =>
          -- The transaction that is displaced has left the live scheduler before.
          have left : standingAfter captured payloads hash = .gone := by
            by_contra stands
            exact free hash stands (shown.seats held).symm
          rw [left]
          cases state.lifecycle hash <;> nofun
        case isFalse => exact before
  | txReplaced replaced =>
      dsimp only [MempoolState.applyEvent, Standing.next]
      rw [MempoolState.lifecycle_applyReplaced]
      split
      case isTrue => cases state.lifecycle hash <;> nofun
      case isFalse => exact before
  | txDropped dropped =>
      dsimp only [MempoolState.applyEvent, MempoolState.applyDropped, Standing.next]
      rw [MempoolState.lifecycle_retire]
      split
      case isTrue => nofun
      case isFalse => exact before
  | txConfirmedProvisional confirmed | txConfirmedFinal confirmed =>
      dsimp only [MempoolState.applyEvent, Standing.next]
      refine Eq.mpr (congrArg (Shows · _) (MempoolState.lifecycle_retire confirmed.hash hash _)) ?_
      by_cases here : confirmed.hash = hash
      · rw [if_pos here]
        by_cases left : standingAfter captured payloads hash = .gone
        · rw [if_neg fun both => both.2 left, left]
          nofun
        · rw [if_pos ⟨here, left⟩]
          rfl
      · rw [if_neg here, if_neg fun both => here both.1]
        exact before
  | txReorged reorged =>
      dsimp only [MempoolState.applyEvent, Standing.next]
      by_cases orphans : state.Orphans reorged
      · rw [(MempoolState.applyReorg_of_orphans orphans).2]
        split
        case isTrue here =>
          subst here
          rcases fits with waits | included
          · rw [waits]
            exact Eq.mpr (congrArg (Shows _) (ite_self _)) rfl
          · rw [if_pos ⟨rfl, included⟩]
            rfl
        case isFalse elsewhere =>
          rw [if_neg fun both => elsewhere both.1]
          exact before
      · rw [MempoolState.applyReorg_of_not_orphans orphans, if_neg]
        · exact before
        · rintro ⟨rfl, included⟩
          rw [included] at before
          exact orphans before
  | txReady ready =>
      dsimp only [MempoolState.applyEvent, Standing.next]
      rw [MempoolState.lifecycle_applyReady]
      split
      case isTrue here =>
        rw [← here, show standingAfter captured payloads ready.hash = .waiting from fits]
        rfl
      case isFalse => exact before
  | txBlocked blocked =>
      dsimp only [MempoolState.applyEvent, Standing.next]
      rw [MempoolState.lifecycle_applyBlocked]
      split
      case isTrue here =>
        rw [← here, show standingAfter captured payloads blocked.hash = .waiting from fits]
        rfl
      case isFalse => exact before
  | txSeen | txFetched | candidateQueued | simDispatched | oppDetected | simCompleted
  | assemblyDecisionApplied | bundleSubmitted => exact before

theorem Shown.step (shown : Shown places captured payloads state)
    (placed : Placed places payload)
    (fits : FitsStanding (standingAfter captured payloads) payload)
    (free : FindsFree places (standingAfter captured payloads) payload) :
    Shown places captured (payloads ++ [payload]) (state.applyEvent payload).2 where
  seats := (shown.seats.reacts_applyEvent shown.knows placed).seats shown.seats
  knows := shown.knows.step placed
  shows hash := by
    rw [standingAfter_append_singleton]
    exact shown.shows_step fits free hash

/-- **The replay model shows where every transaction stands**, event after event. -/
theorem Shown.replay (shown : Shown places captured [] state)
    (placed : ∀ payload ∈ payloads, Placed places payload)
    (orderly : Orderly captured payloads)
    (free : ∀ before payload after, payloads = before ++ payload :: after →
      FindsFree places (standingAfter captured before) payload) :
    Shown places captured payloads (state.replay payloads) := by
  induction payloads using List.reverseRecOn with
  | nil => exact shown
  | append_singleton payloads payload ih =>
      obtain ⟨here, before⟩ := forall_split_append_singleton.mp free
      have earlier := ih (fun other member => placed other (List.mem_append_left _ member))
        orderly.init before
      rw [MempoolState.replay_append]
      exact earlier.step (placed payload (by simp)) orderly.last here

/-- What the replay model calls pending is what waits. -/
theorem Shown.mem_pendingHashes (shown : Shown places captured payloads state) {hash : TxHash} :
    hash ∈ state.pendingHashes ↔ standingAfter captured payloads hash = .waiting := by
  rw [MempoolState.mem_pendingHashes]
  exact (shown.shows hash).pending_iff

end Shown

section Seeded

variable {places : TxHash → Address × UInt64} {captured : SchedulerState}
  {snapshot : PersistedSchedulerSnapshot}

theorem seats_seeded {entries : List (Address × ReplaySenderQueueEntry)} {state : MempoolState}
    (seats : MempoolState.Seats places state)
    (own : ∀ entry ∈ entries, (entry.1, entry.2.nonce) = places entry.2.hash) :
    MempoolState.Seats places (entries.foldl
      (fun state entry => MempoolState.seedQueueEntry entry.1 state entry.2) state) := by
  induction entries generalizing state with
  | nil => exact seats
  | cons first rest ih =>
      obtain ⟨here, others⟩ := List.forall_mem_cons.mp own
      refine ih ?_ others
      intro sender nonce hash held
      rw [MempoolState.slot_seedQueueEntry] at held
      split at held
      case isTrue same =>
        cases held
        rw [← same.1, ← same.2]
        exact here
      case isFalse => exact seats held

/-- The entries a snapshot seeds the queues with are those of the captured queues. -/
theorem mem_reported_of_lists (lists : Lists snapshot captured)
    {queueStates : TxHash → ReplayQueueState} {entry : Address × ReplaySenderQueueEntry}
    (member : entry ∈ MempoolState.reported (replaySenderQueues queueStates snapshot)) :
    captured.slot entry.1 entry.2.nonce = some entry.2.hash := by
  rw [MempoolState.reported, replaySenderQueues, lists.senderQueues,
    SchedulerState.persistedSenderQueueSnapshots] at member
  simp only [List.map_map, List.mem_flatMap, List.mem_map, Function.comp_apply] at member
  obtain ⟨_, ⟨⟨sender, queue⟩, listed, rfl⟩, shown, inShown, rfl⟩ := member
  obtain ⟨persisted, inQueue, rfl⟩ := List.mem_map.mp inShown
  exact SchedulerState.slot_eq_some_iff.mpr ⟨queue, mem_toList.mp listed, mem_toList.mp inQueue⟩

/-- **The seeded replay model shows the snapshot.** -/
theorem shown_seededFrom (seating : Seating captured) (lists : Lists snapshot captured)
    (own : ∀ (hash : TxHash) (tx : ValidatedTransaction), captured.pending[hash]? = some tx →
      slotOfDecoded tx.decoded = places hash) (queueStates : TxHash → ReplayQueueState) :
    Shown places captured [] (seededFrom queueStates snapshot) := by
  have pending : ∀ hash, hash ∈ snapshot.pending.map ValidatedTransaction.hash ↔
      captured.pending.contains hash = true := by
    intro hash
    rw [lists.pending, List.map_map, List.mem_map, contains_eq_isSome, Option.isSome_iff_exists]
    constructor
    · rintro ⟨⟨stored, tx⟩, listed, rfl⟩
      have found := mem_toList.mp listed
      exact ⟨tx, by rw [Function.comp_apply, seating.keyed found]; exact found⟩
    · rintro ⟨tx, stored⟩
      exact ⟨(hash, tx), mem_toList.mpr stored, seating.keyed stored⟩
  have slots : ∀ entry ∈ MempoolState.reported (replaySenderQueues queueStates snapshot),
      captured.slot entry.1 entry.2.nonce = some entry.2.hash := fun _ => mem_reported_of_lists lists
  have entries : (seededFrom queueStates snapshot).txs =
      (MempoolState.fromPendingHashes (snapshot.pending.map ValidatedTransaction.hash)).txs := by
    rw [seededFrom, MempoolState.fromCheckpoint_eq]
    refine MempoolState.txs_seeded fun entry member => ?_
    obtain ⟨tx, stored, -, -⟩ := seating.occupied (slots entry member)
    rw [contains_eq_isSome, MempoolState.getElem?_fromPendingHashes, if_pos]
    · rfl
    · exact (pending _).mpr (by rw [contains_eq_isSome, stored]; rfl)
  have bare : ∀ hash, (seededFrom queueStates snapshot).txs[hash]? =
      if captured.pending.contains hash then some MempoolState.bareEntry else none := by
    intro hash
    rw [entries, MempoolState.getElem?_fromPendingHashes]
    simp only [pending]
  refine ⟨?_, fun hash sender nonce status known => ?_, fun hash => ?_⟩
  · rw [seededFrom, MempoolState.fromCheckpoint_eq]
    refine seats_seeded ?_ fun entry member => ?_
    · intro sender nonce hash held
      simp [MempoolState.slot, SchedulerState.slotOf, MempoolState.fromPendingHashes] at held
    · obtain ⟨tx, stored, sender, nonce⟩ := seating.occupied (slots entry member)
      rw [← own _ tx stored, slotOfDecoded, sender, nonce]
  · rw [MempoolState.profile, bare] at known
    split at known <;> cases known
  · rw [MempoolState.lifecycle, bare, standingAfter, List.foldl_nil]
    split
    · rfl
    · intro stands
      cases stands

end Seeded

end Mempulse.Rehydration
