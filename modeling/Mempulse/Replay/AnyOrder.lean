import Mempulse.Replay.Slots

/-!
# The pending set under reordered events

Workers log their events one at a time, so events about different transactions may be logged in
another order than the scheduler's decisions. The replay model then no longer follows a coherent
log: a transaction may be decoded into a slot that its incumbent has not left. What it calls
pending can still be read off the log, as long as the events about each transaction fit together:
a pending hash has a place, and the last claimant of a slot is pending as long as it has not left.
-/

set_option autoImplicit false

namespace Mempulse.Replay.MempoolState

open Std EventLog Library Scheduler

/-- What the model keeps of a log whose entries fit item by item. -/
structure Tracks (state : MempoolState) (log : List (Touch TxHash (Address × UInt64))) : Prop where
  named : Named state
  sits : ∀ ⦃sender nonce hash⦄, state.slot sender nonce = some hash →
    placeOf log hash = some (sender, nonce)
  placed : ∀ hash, state.lifecycle hash = some .pending → (placeOf log hash).isSome = true
  stays : ∀ hash place, lastClaimantOf log place = some hash → placeOf log hash = some place →
    state.lifecycle hash = some .pending

section Tracks

variable {state next : MempoolState} {log : List (Touch TxHash (Address × UInt64))}
  {hash : TxHash} {sender : Address} {nonce : UInt64}

theorem Tracks.empty : Tracks {} [] where
  named := Named.empty
  sits := by
    intro sender nonce hash held
    simp [slot, SchedulerState.slotOf] at held
  placed := by
    intro hash pending
    simp [lifecycle] at pending
  stays := by
    intro hash place claimed
    cases claimed

/-- A hash whose claim fits sits in no slot but the claimed one. -/
theorem Tracks.only (tracks : Tracks state log)
    (fits : FitsItem log (.claim hash (sender, nonce))) (other : Address) (position : UInt64)
    (held : state.slot other position = some hash) : other = sender ∧ position = nonce := by
  have placed := tracks.sits held
  rcases fits with free | own
  · cases placed.symm.trans free
  · cases placed.symm.trans own
    exact ⟨rfl, rfl⟩

/-- A claim enters its slot and makes its hash pending; it may end the hash that held the slot. -/
theorem Tracks.claim (tracks : Tracks state log) (named : Named next)
    (slots : ∀ other position, next.slot other position =
      if sender = other ∧ nonce = position then some hash else state.slot other position)
    (entered : next.lifecycle hash = some .pending)
    (others : ∀ other, hash ≠ other → next.lifecycle other = some .pending →
      state.lifecycle other = some .pending)
    (kept : ∀ other, hash ≠ other → state.slot sender nonce ≠ some other →
      next.lifecycle other = state.lifecycle other)
    (fits : FitsItem log (.claim hash (sender, nonce))) :
    Tracks next (log ++ [.claim hash (sender, nonce)]) where
  named := named
  sits := by
    intro other position holder held
    rw [slots] at held
    rw [placeOf_append_singleton]
    dsimp only [placeNext]
    split at held
    case isTrue here =>
      cases held
      rw [if_pos rfl, here.1, here.2]
    case isFalse elsewhere =>
      rw [if_neg, tracks.sits held]
      rintro rfl
      obtain ⟨rfl, rfl⟩ := tracks.only fits other position held
      exact elsewhere ⟨rfl, rfl⟩
  placed := by
    intro other pending
    rw [placeOf_append_singleton]
    dsimp only [placeNext]
    split
    case isTrue => rfl
    case isFalse differs => exact tracks.placed other (others other differs pending)
  stays := by
    intro other place claimed placed
    rw [placeOf_append_singleton] at placed
    rw [lastClaimantOf_append_claim] at claimed
    dsimp only [placeNext] at placed
    split at claimed
    case isTrue =>
      cases claimed
      exact entered
    case isFalse elsewhere =>
      split at placed
      case isTrue => exact absurd (Option.some.inj placed) elsewhere
      case isFalse differs =>
        rw [kept other differs]
        · exact tracks.stays other place claimed placed
        · intro held
          exact elsewhere (Option.some.inj ((tracks.sits held).symm.trans placed))

theorem Tracks.enqueue (tracks : Tracks state log)
    (fits : FitsItem log (.claim hash (sender, nonce))) :
    Tracks (state.enqueue hash sender nonce) (log ++ [.claim hash (sender, nonce)]) := by
  have lifecycles : ∀ other, (state.enqueue hash sender nonce).lifecycle other =
      if hash = other then some .pending else state.lifecycle other := by
    intro other
    rw [lifecycle_eq, profile_enqueue, lifecycle_eq]
    split <;> rfl
  refine tracks.claim (tracks.named.enqueue (tracks.only fits))
    (tracks.named.slot_enqueue (tracks.only fits)) ?_ ?_ ?_ fits
  · rw [lifecycles, if_pos rfl]
  · intro other differs pending
    rwa [lifecycles, if_neg differs] at pending
  · intro other differs _
    rw [lifecycles, if_neg differs]

/-- A state that differs in its queue states and its confirmations only. -/
theorem Tracks.congr (tracks : Tracks state log) (profiles : next.profile = state.profile)
    (queues : next.senderQueues = state.senderQueues) : Tracks next log := by
  have slots : next.slot = state.slot := by
    funext sender nonce
    rw [slot, slot, queues]
  have lifecycles : next.lifecycle = state.lifecycle := by
    funext hash
    rw [lifecycle_eq, lifecycle_eq, profiles]
  refine ⟨?_, ?_, ?_, ?_⟩
  · intro sender nonce hash held
    rw [slots] at held
    rw [profiles]
    exact tracks.named held
  · intro sender nonce hash held
    rw [slots] at held
    exact tracks.sits held
  · rw [lifecycles]
    exact tracks.placed
  · rw [lifecycles]
    exact tracks.stays

theorem Tracks.applyDecoded (tracks : Tracks state log) {decoded : TxDecoded}
    (fits : FitsItem log (.claim decoded.hash (decoded.sender, decoded.nonce))) :
    Tracks (state.applyDecoded decoded).2
      (log ++ [.claim decoded.hash (decoded.sender, decoded.nonce)]) := by
  have only := tracks.only fits
  have lifecycles : ∀ other, (state.applyDecoded decoded).2.lifecycle other =
      if decoded.hash = other then some .pending
      else if state.slot decoded.sender decoded.nonce = some other then
        (state.lifecycle other).map fun _ => .replaced decoded.hash
      else state.lifecycle other := by
    intro other
    rw [lifecycle_eq, profile_applyDecoded, lifecycle_eq]
    split
    · rfl
    · split
      · rw [Option.map_map, Option.map_map]
        rfl
      · rfl
  refine tracks.claim (tracks.named.applyDecoded decoded only)
    (tracks.named.slot_applyDecoded decoded only) ?_ ?_ ?_ fits
  · rw [lifecycles, if_pos rfl]
  · intro other differs pending
    rw [lifecycles, if_neg differs] at pending
    split at pending
    case isTrue here => exact tracks.named.lifecycle here
    case isFalse => exact pending
  · intro other differs elsewhere
    rw [lifecycles, if_neg differs, if_neg elsewhere]

/-! ## Retirements -/

theorem Tracks.retire (tracks : Tracks state log) (position : Address × UInt64)
    {status : TxLifecycleStatus} (ended : status ≠ .pending) :
    Tracks (state.retire hash status) (log ++ [.retire hash position]) where
  named := tracks.named.retire hash status
  sits := by
    intro other place holder held
    rw [tracks.named.slot_retire] at held
    rw [placeOf_append_singleton]
    dsimp only [placeNext]
    split at held
    case isTrue => cases held
    case isFalse elsewhere =>
      rw [if_neg, tracks.sits held]
      rintro rfl
      exact elsewhere held
  placed := by
    intro other pending
    rw [lifecycle_eq, profile_retire] at pending
    rw [placeOf_append_singleton]
    dsimp only [placeNext]
    split at pending
    case isTrue => exact absurd (Option.some.inj pending) ended
    case isFalse differs =>
      rw [← lifecycle_eq] at pending
      rw [if_neg differs]
      exact tracks.placed other pending
  stays := by
    intro other place claimed placed
    rw [lastClaimantOf_append_retire] at claimed
    rw [placeOf_append_singleton] at placed
    dsimp only [placeNext] at placed
    split at placed
    case isTrue => cases placed
    case isFalse differs =>
      rw [lifecycle_eq, profile_retire, if_neg differs, ← lifecycle_eq]
      exact tracks.stays other place claimed placed

/-- A hash the model does not know retires from nothing. -/
theorem Tracks.retire_unknown (tracks : Tracks state log) (position : Address × UInt64)
    (unknown : ¬ state.txs.contains hash = true) : Tracks state (log ++ [.retire hash position]) := by
  have absent : state.lifecycle hash = none := by
    rw [contains_eq_isSome, Option.not_isSome_iff_eq_none] at unknown
    rw [lifecycle, unknown]
    rfl
  refine ⟨tracks.named, ?_, ?_, ?_⟩
  · intro sender nonce holder held
    rw [placeOf_append_singleton]
    dsimp only [placeNext]
    rw [if_neg, tracks.sits held]
    rintro rfl
    cases absent.symm.trans (tracks.named.lifecycle held)
  · intro other pending
    rw [placeOf_append_singleton]
    dsimp only [placeNext]
    rw [if_neg]
    · exact tracks.placed other pending
    · rintro rfl
      cases absent.symm.trans pending
  · intro other place claimed placed
    rw [lastClaimantOf_append_retire] at claimed
    rw [placeOf_append_singleton] at placed
    dsimp only [placeNext] at placed
    split at placed
    case isTrue => cases placed
    case isFalse => exact tracks.stays other place claimed placed

/-! ## The run -/

/-- **An event that fits its item is tracked.** -/
theorem Tracks.step (tracks : Tracks state log) {position : Address × UInt64}
    {payload : EventPayload} {touch : Touch TxHash (Address × UInt64)}
    (touches : touchOf position payload = some touch) (fits : FitsItem log touch) :
    Tracks (state.applyEvent payload).2 (log ++ [touch]) := by
  cases payload with
  | txDecoded decoded =>
      cases touches
      exact tracks.applyDecoded fits
  | txReady ready =>
      cases touches
      exact (tracks.enqueue fits).congr (profile_applyReady ready) rfl
  | txBlocked blocked =>
      cases touches
      exact (tracks.enqueue fits).congr (profile_applyBlocked blocked)
        (senderQueues_applyBlocked blocked)
  | txDropped dropped =>
      cases touches
      exact tracks.retire position (by simp)
  | txConfirmedProvisional confirmed =>
      cases touches
      exact (tracks.retire position (by simp)).congr rfl rfl
  | txConfirmedFinal confirmed =>
      cases touches
      exact (tracks.retire position (by simp)).congr rfl rfl
  | txReplaced replaced =>
      cases touches
      dsimp only [applyEvent, applyReplaced]
      split
      case isTrue => exact tracks.retire position (by simp)
      case isFalse unknown => exact tracks.retire_unknown position unknown
  | txSeen | txFetched | candidateQueued | simDispatched | oppDetected | simCompleted
  | assemblyDecisionApplied | bundleSubmitted | txReorged => cases touches

/-- **Events that fit item by item are tracked.** -/
theorem Tracks.replay {claims : List Claim}
    (fits : ∀ before claim after, claims = before ++ claim :: after →
      FitsItem (before.map Claim.touch) claim.touch) :
    Tracks (MempoolState.replay {} (claims.map Claim.payload)) (claims.map Claim.touch) := by
  induction claims using List.reverseRecOn with
  | nil => exact .empty
  | append_singleton claims claim ih =>
      obtain ⟨last, before⟩ := forall_split_append_singleton.mp fits
      rw [List.map_append, List.map_append, replay_append]
      exact (ih before).step claim.spelled last

end Tracks

end Mempulse.Replay.MempoolState
