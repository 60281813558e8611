import Mempulse.Replay.SlotInvariant

/-!
# The status an event leaves

The replayed status of every hash after an event, by the kind of the event.
-/

set_option autoImplicit false

namespace Mempulse.Replay.MempoolState

open Std EventLog Library

variable {state : MempoolState}

/-- A decoded transaction is pending, and the one that held its slot is replaced by it. -/
theorem lifecycle_applyDecoded (decoded : TxDecoded) (hash : TxHash) :
    (state.applyDecoded decoded).2.lifecycle hash =
      if decoded.hash = hash then some .pending
      else if state.slot decoded.sender decoded.nonce = some hash then
        (state.lifecycle hash).map fun _ => .replaced decoded.hash
      else state.lifecycle hash := by
  rw [lifecycle_eq, profile_applyDecoded, lifecycle_eq]
  split
  · rfl
  · split
    · rw [Option.map_map, Option.map_map]
      rfl
    · rfl

theorem lifecycle_retire (hash other : TxHash) (status : TxLifecycleStatus) :
    (state.retire hash status).lifecycle other =
      if hash = other then some status else state.lifecycle other := by
  rw [lifecycle_eq, profile_retire, lifecycle_eq]
  split <;> rfl

theorem lifecycle_enqueue (hash other : TxHash) (sender : Address) (nonce : UInt64) :
    (state.enqueue hash sender nonce).lifecycle other =
      if hash = other then some .pending else state.lifecycle other := by
  rw [lifecycle_eq, profile_enqueue, lifecycle_eq]
  split <;> rfl

theorem lifecycle_setQueueState (hash other : TxHash) (queueState : Option ReplayQueueState) :
    { state with txs := setQueueState state.txs hash queueState }.lifecycle other =
      state.lifecycle other := by
  rw [lifecycle_eq, lifecycle_eq]
  exact congrArg _ (profile_setQueueState state.txs hash other queueState)

theorem lifecycle_applyReady (ready : TxReady) (hash : TxHash) :
    (state.applyReady ready).2.lifecycle hash =
      if ready.hash = hash then some .pending else state.lifecycle hash := by
  dsimp only [applyReady]
  rw [lifecycle_setQueueState]
  exact lifecycle_enqueue ready.hash hash ready.sender ready.nonce

theorem lifecycle_applyBlocked (blocked : TxBlocked) (hash : TxHash) :
    (state.applyBlocked blocked).2.lifecycle hash =
      if blocked.hash = hash then some .pending else state.lifecycle hash := by
  have queued := @lifecycle_enqueue state blocked.hash hash blocked.sender blocked.nonce
  dsimp only [applyBlocked]
  split
  · rw [lifecycle_setQueueState]
    exact queued
  · exact queued

/-- A replacement reaches known hashes only. -/
theorem lifecycle_applyReplaced (replaced : TxReplaced) (hash : TxHash) :
    (state.applyReplaced replaced).2.lifecycle hash =
      if replaced.hash = hash then
        (state.lifecycle hash).map fun _ => .replaced replaced.replacedBy
      else state.lifecycle hash := by
  dsimp only [applyReplaced]
  have known : state.txs.contains replaced.hash = (state.lifecycle replaced.hash).isSome := by
    rw [contains_eq_isSome, lifecycle, Option.isSome_map]
  split
  case isTrue present =>
    rw [lifecycle_retire]
    split
    case isTrue same =>
      subst same
      rw [known] at present
      obtain ⟨status, stored⟩ := Option.isSome_iff_exists.mp present
      rw [stored, Option.map_some]
    case isFalse => rfl
  case isFalse absent =>
    split
    case isTrue same =>
      subst same
      rw [known, Bool.not_eq_true, Option.isSome_eq_false_iff, Option.isNone_iff_eq_none] at absent
      rw [absent, Option.map_none]
    case isFalse => rfl

/-- The block of the reorg has confirmed the transaction. -/
def Orphans (state : MempoolState) (reorged : TxReorged) : Prop :=
  (state.lifecycle reorged.hash).bind (·.confirmedIn) = some reorged.oldBlockHash

theorem applyReorg_of_orphans {reorged : TxReorged} (orphans : Orphans state reorged) :
    (state.applyReorg reorged).1 =
        [.reorgReopened reorged.hash reorged.oldBlockHash reorged.newBlockHash] ∧
      ∀ hash, (state.applyReorg reorged).2.lifecycle hash =
        if reorged.hash = hash then some .pending else state.lifecycle hash := by
  unfold Orphans lifecycle at orphans
  unfold applyReorg
  split
  case h_1 missing =>
    rw [missing] at orphans
    cases orphans
  case h_2 entry stored =>
    rw [stored, Option.map_some, Option.bind_some] at orphans
    rw [if_pos orphans]
    refine ⟨rfl, fun hash => ?_⟩
    have reopened : ({ state with
        txs := state.txs.insert reorged.hash { entry with status := .pending } } :
          MempoolState).lifecycle hash =
        if reorged.hash = hash then some .pending else state.lifecycle hash := by
      rw [lifecycle, getElem?_insert_eq]
      split <;> rfl
    dsimp only
    split
    · refine (lifecycle_enqueue reorged.hash hash _ _).trans ?_
      rw [reopened]
      split <;> rfl
    · exact reopened

theorem applyReorg_of_not_orphans {reorged : TxReorged} (elsewhere : ¬ Orphans state reorged) :
    state.applyReorg reorged = ([], state) := by
  unfold Orphans lifecycle at elsewhere
  unfold applyReorg
  split
  case h_1 => rfl
  case h_2 entry stored =>
    rw [stored] at elsewhere
    exact if_neg elsewhere

/-! ## Reopened transactions -/

/-- The transitions that a list of events emits. -/
def transitions (state : MempoolState) : List EventPayload → List StateTransition
  | [] => []
  | payload :: rest =>
    (state.applyEvent payload).1 ++ transitions (state.applyEvent payload).2 rest

/-- A reorg among the events has reopened the hash. -/
def Reopened (payloads : List EventPayload) (hash : TxHash) : Prop :=
  ∃ oldBlockHash newBlockHash,
    .reorgReopened hash oldBlockHash newBlockHash ∈ transitions {} payloads

theorem transitions_append (state : MempoolState) (payloads later : List EventPayload) :
    state.transitions (payloads ++ later) =
      state.transitions payloads ++ (state.replay payloads).transitions later := by
  induction payloads generalizing state with
  | nil => rfl
  | cons payload rest ih => simp only [List.cons_append, transitions, ih, List.append_assoc]; rfl

theorem reopened_append (payloads : List EventPayload) (payload : EventPayload) (hash : TxHash) :
    Reopened (payloads ++ [payload]) hash ↔ Reopened payloads hash ∨
      ∃ oldBlockHash newBlockHash, .reorgReopened hash oldBlockHash newBlockHash ∈
        ((replay {} payloads).applyEvent payload).1 := by
  unfold Reopened
  rw [transitions_append]
  simp only [transitions, List.append_nil, List.mem_append, exists_or]

end Mempulse.Replay.MempoolState
