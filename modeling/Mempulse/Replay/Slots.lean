import Mempulse.Library.Occupancy
import Mempulse.Replay.Effects

/-!
# The replay model follows its events

An event about a transaction claims a slot for it or retires it from one. As long as the events
fit the occupancy log they spell, the replay model is that log read back: a slot holds its
occupant, and a hash is pending exactly when it has a place.
-/

set_option autoImplicit false

namespace Mempulse.Replay

open Std EventLog Library Scheduler

/-- What an event tells about the slots, for an event that names a transaction of a position. -/
def touchOf (position : Address × UInt64) : EventPayload → Option (Touch TxHash (Address × UInt64))
  | .txDecoded decoded => some (.claim decoded.hash (decoded.sender, decoded.nonce))
  | .txReady ready => some (.claim ready.hash (ready.sender, ready.nonce))
  | .txBlocked blocked => some (.claim blocked.hash (blocked.sender, blocked.nonce))
  | .txDropped dropped => some (.retire dropped.hash position)
  | .txReplaced replaced => some (.retire replaced.hash position)
  | .txConfirmedProvisional confirmed | .txConfirmedFinal confirmed =>
    some (.retire confirmed.hash position)
  | _ => none

/-- A lifecycle event with what it says about the slots. -/
structure Claim where
  touch : Touch TxHash (Address × UInt64)
  payload : EventPayload
  position : Address × UInt64
  spelled : touchOf position payload = some touch

/-- The events the replay model reads. -/
def isLifecycle : EventPayload → Bool
  | .txDecoded _ | .txReady _ | .txBlocked _ | .txDropped _ | .txReplaced _
  | .txConfirmedProvisional _ | .txConfirmedFinal _ | .txReorged _ => true
  | _ => false

namespace MempoolState

theorem applyEvent_of_not_lifecycle (state : MempoolState) {payload : EventPayload}
    (silent : isLifecycle payload = false) : (state.applyEvent payload).2 = state := by
  cases payload <;> first | rfl | cases silent

/-- The replay model goes by the lifecycle events. -/
theorem replay_filter (state : MempoolState) (payloads : List EventPayload) :
    state.replay (payloads.filter isLifecycle) = state.replay payloads := by
  induction payloads generalizing state with
  | nil => rfl
  | cons payload rest ih =>
      cases reads : isLifecycle payload with
      | true =>
          rw [List.filter_cons_of_pos reads]
          exact ih _
      | false =>
          rw [List.filter_cons_of_neg (by simp [reads]), ih, replay, replay, List.foldl_cons,
            applyEvent_of_not_lifecycle state reads]

theorem replay_append (state : MempoolState) (earlier later : List EventPayload) :
    state.replay (earlier ++ later) = (state.replay earlier).replay later :=
  List.foldl_append

/-- The state is what an occupancy log spells. -/
structure Follows (state : MempoolState) (log : List (Touch TxHash (Address × UInt64))) : Prop where
  coherent : Coherent log
  named : Named state
  full : SchedulerState.NoEmptyQueue state.senderQueues
  slots : ∀ sender nonce, state.slot sender nonce = occupantOf log (sender, nonce)
  pending : ∀ hash, state.lifecycle hash = some .pending ↔ (placeOf log hash).isSome = true

section Follows

variable {state next : MempoolState} {log : List (Touch TxHash (Address × UInt64))}
  {hash : TxHash} {sender : Address} {nonce : UInt64}

theorem Follows.empty : Follows {} [] where
  coherent := .nil
  named := Named.empty
  full := by
    intro sender queue queued
    simp at queued
  slots := by
    intro sender nonce
    simp [slot, SchedulerState.slotOf]
  pending := by
    intro hash
    simp [lifecycle]

theorem Follows.slot_eq_some_iff (follows : Follows state log) :
    state.slot sender nonce = some hash ↔ placeOf log hash = some (sender, nonce) := by
  rw [follows.slots, follows.coherent.occupantOf_eq_some_iff]

/-- A hash whose claim fits sits in no slot but the claimed one. -/
theorem Follows.only (follows : Follows state log) (fits : Fits log (.claim hash (sender, nonce)))
    (other : Address) (position : UInt64) (held : state.slot other position = some hash) :
    other = sender ∧ position = nonce := by
  rw [follows.slot_eq_some_iff] at held
  rcases fits.1 with free | own
  · rw [free] at held
    cases held
  · rw [own] at held
    cases held
    exact ⟨rfl, rfl⟩

/-- A state that differs in its queue states only. -/
theorem Follows.congr (follows : Follows state log) (profiles : next.profile = state.profile)
    (queues : next.senderQueues = state.senderQueues) : Follows next log where
  coherent := follows.coherent
  named := by
    intro sender nonce hash held
    rw [slot, queues] at held
    rw [profiles]
    exact follows.named held
  full := queues ▸ follows.full
  slots := by
    intro sender nonce
    rw [slot, queues]
    exact follows.slots sender nonce
  pending := by
    intro hash
    rw [lifecycle_eq, profiles, ← lifecycle_eq]
    exact follows.pending hash

/-- Entering a slot is a claim. -/
theorem Follows.enqueue (follows : Follows state log)
    (fits : Fits log (.claim hash (sender, nonce))) :
    Follows (state.enqueue hash sender nonce) (log ++ [.claim hash (sender, nonce)]) where
  coherent := .snoc follows.coherent fits
  named := follows.named.enqueue (follows.only fits)
  full := noEmptyQueue_enqueue follows.full
  slots := by
    intro other position
    rw [follows.named.slot_enqueue (follows.only fits), occupantOf_append_singleton, follows.slots]
    simp only [occupantNext, Prod.mk.injEq]
  pending := by
    intro other
    rw [lifecycle_eq, profile_enqueue, placeOf_append_singleton]
    dsimp only [placeNext]
    split
    case isTrue => simp
    case isFalse =>
      rw [← lifecycle_eq]
      exact follows.pending other

/-- Leaving a slot for a status that is not pending is a retirement. -/
theorem Follows.retire (follows : Follows state log) {position : Address × UInt64}
    (fits : Fits log (.retire hash position)) {status : TxLifecycleStatus}
    (ended : status ≠ .pending) :
    Follows (state.retire hash status) (log ++ [.retire hash position]) where
  coherent := .snoc follows.coherent fits
  named := follows.named.retire hash status
  full := noEmptyQueue_retire hash status follows.full
  slots := by
    intro other place
    rw [follows.named.slot_retire hash status, occupantOf_append_singleton, follows.slots]
    dsimp only [occupantNext]
    by_cases occupied : occupantOf log (other, place) = some hash
    · have placed := follows.coherent.occupantOf_eq_some_iff.mp occupied
      have here : position = (other, place) := by
        rcases fits with free | own
        · rw [free] at placed
          cases placed
        · rw [own] at placed
          exact Option.some.inj placed
      rw [if_pos occupied, if_pos ⟨here, occupied⟩]
    · rw [if_neg occupied, if_neg fun both => occupied both.2]
  pending := by
    intro other
    rw [lifecycle_eq, profile_retire, placeOf_append_singleton]
    dsimp only [placeNext]
    split
    case isTrue => simp [ended]
    case isFalse =>
      rw [← lifecycle_eq]
      exact follows.pending other

/-- A hash the model does not know retires from nothing. -/
theorem Follows.retire_unknown (follows : Follows state log) {position : Address × UInt64}
    (fits : Fits log (.retire hash position)) (unknown : ¬ state.txs.contains hash = true) :
    Follows state (log ++ [.retire hash position]) := by
  have absent : state.lifecycle hash = none := by
    rw [contains_eq_isSome, Option.not_isSome_iff_eq_none] at unknown
    rw [lifecycle, unknown]
    rfl
  have unplaced : placeOf log hash = none := by
    have silent := (follows.pending hash).not.mp (by simp [absent])
    simpa using silent
  refine ⟨.snoc follows.coherent fits, follows.named, follows.full, fun other place => ?_,
    fun other => ?_⟩
  · rw [occupantOf_append_singleton, follows.slots]
    dsimp only [occupantNext]
    rw [if_neg]
    rintro ⟨-, occupied⟩
    rw [follows.coherent.occupantOf_eq_some_iff, unplaced] at occupied
    cases occupied
  · rw [placeOf_append_singleton, follows.pending]
    dsimp only [placeNext]
    split
    case isTrue same => rw [← same, unplaced]
    case isFalse => rfl

/-- A decoded transaction whose claim fits displaces nothing. -/
theorem Follows.displace_eq (follows : Follows state log) {decoded : TxDecoded}
    (fits : Fits log (.claim decoded.hash (decoded.sender, decoded.nonce))) :
    state.displace decoded = ([], state) := by
  have held := follows.slots decoded.sender decoded.nonce
  rw [displace]
  rcases fits.2 with free | own
  · rw [free] at held
    rw [slot] at held
    rw [held]
  · rw [own] at held
    rw [slot] at held
    rw [held]
    simp

theorem Follows.applyDecoded_eq (follows : Follows state log) {decoded : TxDecoded}
    (fits : Fits log (.claim decoded.hash (decoded.sender, decoded.nonce))) :
    (state.applyDecoded decoded).2 = state.enqueue decoded.hash decoded.sender decoded.nonce := by
  rw [applyDecoded, follows.displace_eq fits]
  rfl

theorem profile_applyReady (ready : TxReady) :
    (state.applyReady ready).2.profile =
      (state.enqueue ready.hash ready.sender ready.nonce).profile := by
  funext other
  dsimp only [applyReady, profile]
  rw [profile_setQueueState]
  rfl

theorem profile_applyBlocked (blocked : TxBlocked) :
    (state.applyBlocked blocked).2.profile =
      (state.enqueue blocked.hash blocked.sender blocked.nonce).profile := by
  funext other
  dsimp only [applyBlocked]
  split
  · dsimp only [profile]
    rw [profile_setQueueState]
    rfl
  · rfl

theorem senderQueues_applyBlocked (blocked : TxBlocked) :
    (state.applyBlocked blocked).2.senderQueues =
      (state.enqueue blocked.hash blocked.sender blocked.nonce).senderQueues := by
  dsimp only [applyBlocked]
  split <;> rfl

/-- **An event that fits the log extends it.** -/
theorem Follows.step (follows : Follows state log) {position : Address × UInt64}
    {payload : EventPayload} {touch : Touch TxHash (Address × UInt64)}
    (touches : touchOf position payload = some touch) (fits : Fits log touch) :
    Follows (state.applyEvent payload).2 (log ++ [touch]) := by
  cases payload with
  | txDecoded decoded =>
      cases touches
      dsimp only [applyEvent]
      rw [follows.applyDecoded_eq fits]
      exact follows.enqueue fits
  | txReady ready =>
      cases touches
      exact (follows.enqueue fits).congr (profile_applyReady ready) rfl
  | txBlocked blocked =>
      cases touches
      exact (follows.enqueue fits).congr (profile_applyBlocked blocked)
        (senderQueues_applyBlocked blocked)
  | txDropped dropped =>
      cases touches
      exact follows.retire fits (by simp)
  | txConfirmedProvisional confirmed =>
      cases touches
      exact (follows.retire fits (by simp)).congr rfl rfl
  | txConfirmedFinal confirmed =>
      cases touches
      exact (follows.retire fits (by simp)).congr rfl rfl
  | txReplaced replaced =>
      cases touches
      dsimp only [applyEvent, applyReplaced]
      split
      case isTrue => exact follows.retire fits (by simp)
      case isFalse unknown => exact follows.retire_unknown fits unknown
  | txSeen | txFetched | candidateQueued | simDispatched | oppDetected | simCompleted
  | assemblyDecisionApplied | bundleSubmitted | txReorged => cases touches

/-- **Events that spell a coherent log extend it.** -/
theorem Follows.replay (follows : Follows state log) {claims : List Claim}
    (coherent : Coherent (log ++ claims.map Claim.touch)) :
    Follows (state.replay (claims.map Claim.payload)) (log ++ claims.map Claim.touch) := by
  induction claims generalizing state log with
  | nil =>
      simp only [List.map_nil, List.append_nil]
      exact follows
  | cons claim rest ih =>
      have fits : Fits log claim.touch := coherent.fits rfl
      have whole : log ++ (claim :: rest).map Claim.touch =
          (log ++ [claim.touch]) ++ rest.map Claim.touch := by
        rw [List.map_cons, List.append_assoc]
        rfl
      rw [whole] at coherent ⊢
      exact ih (follows.step claim.spelled fits) coherent

end Follows

/-! ## Queue states -/

/-- Every entry of the sender's queue carries the verdict of a scan. -/
def ClassifiedAt (state : MempoolState) (sender : Address) : Prop :=
  ∀ ⦃queue : SenderQueue⦄, state.senderQueues[sender]? = some queue →
    ∀ visited ∈ GapCursor.scan checkedSucc {} queue.toList,
      state.queueState visited.1.2 = some visited.2

/-- Every queued transaction carries the verdict of a scan of its queue. -/
def Classified (state : MempoolState) : Prop := ∀ sender, state.ClassifiedAt sender

section Classified

variable {state : MempoolState}

theorem slot_of_mem_scan {sender : Address} {queue : SenderQueue}
    (queued : state.senderQueues[sender]? = some queue)
    {visited : (UInt64 × TxHash) × ReplayQueueState}
    (member : visited ∈ GapCursor.scan checkedSucc {} queue.toList) :
    state.slot sender visited.1.1 = some visited.1.2 := by
  have listed : visited.1 ∈ queue.toList := by
    rw [← GapCursor.map_fst_scan checkedSucc {} queue.toList]
    exact List.mem_map_of_mem member
  rw [slot, SchedulerState.slotOf, queued, Option.bind_some]
  exact mem_toList.mp listed

theorem Named.senderQueues_recompute (named : Named state)
    (full : SchedulerState.NoEmptyQueue state.senderQueues) (sender : Address) :
    (state.recomputeSenderQueueStates sender).senderQueues = state.senderQueues :=
  SchedulerState.queues_ext (noEmptyQueue_recompute full sender) full fun other nonce =>
    named.slot_recompute sender other nonce

/-- Recomputing a sender leaves the entries of the hashes outside its queue alone. -/
theorem getElem?_recompute_of_elsewhere (sender : Address) {hash : TxHash}
    (elsewhere : ∀ nonce, state.slot sender nonce ≠ some hash) :
    (state.recomputeSenderQueueStates sender).txs[hash]? = state.txs[hash]? := by
  unfold recomputeSenderQueueStates
  split
  case h_1 => rfl
  case h_2 queue queued =>
    have absent : ∀ entry ∈ queue.toList, entry.2 ≠ hash := by
      rintro entry listed rfl
      apply elsewhere entry.1
      rw [slot, SchedulerState.slotOf, queued, Option.bind_some]
      exact mem_toList.mp listed
    dsimp only
    rw [getElem?_foldl_setQueueState_of_forall_ne
        (fun update : (UInt64 × TxHash) × ReplayQueueState => update.1.2) fun update => some update.2,
      getElem?_foldl_setQueueState_of_forall_ne (fun entry : UInt64 × TxHash => entry.2) fun _ => none]
    · exact absent
    · intro update member
      have live := List.mem_map_of_mem (f := Prod.fst) member
      rw [GapCursor.map_fst_scan] at live
      exact absent update.1 (List.mem_filter.mp live).1

theorem queueState_recompute_of_elsewhere (sender : Address) {hash : TxHash}
    (elsewhere : ∀ nonce, state.slot sender nonce ≠ some hash) :
    (state.recomputeSenderQueueStates sender).queueState hash = state.queueState hash := by
  rw [queueState, getElem?_recompute_of_elsewhere sender elsewhere]
  rfl

/-- **Recomputing a sender classifies its queue.** -/
theorem Named.classifiedAt_recompute (named : Named state)
    (full : SchedulerState.NoEmptyQueue state.senderQueues) (sender : Address) :
    (state.recomputeSenderQueueStates sender).ClassifiedAt sender := by
  intro queue queued visited member
  rw [named.senderQueues_recompute full] at queued
  have known := named (slot_of_mem_scan queued member)
  unfold recomputeSenderQueueStates
  rw [queued]
  dsimp only [queueState]
  have cleared : ∀ hash, ((queue.toList.foldl (fun txs entry => setQueueState txs entry.2 none)
      state.txs)[hash]?).map TxEntry.profile = state.profile hash :=
    profile_foldl_setQueueState (fun entry : UInt64 × TxHash => entry.2) (fun _ => none)
      queue.toList state.txs
  have live : liveEntries (queue.toList.foldl (fun txs entry => setQueueState txs entry.2 none)
      state.txs) queue = queue.toList := by
    refine List.filter_eq_self.mpr fun entry listed => ?_
    have held : state.slot sender entry.1 = some entry.2 := by
      rw [slot, SchedulerState.slotOf, queued, Option.bind_some]
      exact mem_toList.mp listed
    have statuses := congrArg (Option.map Profile.status) ((cleared entry.2).trans (named held))
    rw [Option.map_map] at statuses
    exact decide_eq_true statuses
  have distinct : (GapCursor.scan checkedSucc {} queue.toList).Pairwise
      fun earlier later => earlier.1.2 ≠ later.1.2 := by
    have nonces := toList_pairwise_ne queue
    rw [← GapCursor.map_fst_scan checkedSucc {} queue.toList, List.pairwise_map] at nonces
    refine nonces.imp_of_mem fun earlier later differ same => ?_
    have first := slot_of_mem_scan queued earlier
    rw [same] at first
    exact differ (named.unique first (slot_of_mem_scan queued later)).2
  rw [live, getElem?_foldl_setQueueState_of_mem
    (fun update : (UInt64 × TxHash) × ReplayQueueState => update.1.2) (fun update => some update.2)
    _ distinct member]
  have present := (cleared visited.1.2).trans known
  rw [Option.map_eq_some_iff] at present
  obtain ⟨entry, stored, -⟩ := present
  rw [stored]
  rfl

theorem Classified.recompute (named : Named state)
    (full : SchedulerState.NoEmptyQueue state.senderQueues) (sender : Address)
    (others : ∀ other, other ≠ sender → state.ClassifiedAt other) :
    Classified (state.recomputeSenderQueueStates sender) := by
  intro other
  by_cases same : other = sender
  · rw [same]
    exact named.classifiedAt_recompute full sender
  · intro queue queued visited member
    rw [named.senderQueues_recompute full] at queued
    rw [queueState_recompute_of_elsewhere]
    · exact others other same queued visited member
    · intro nonce held
      exact same (named.unique (slot_of_mem_scan queued member) held).1

theorem queueState_ensure_of_ne {hash other : TxHash} (sender : Address) (nonce : UInt64)
    (differs : hash ≠ other) :
    (state.ensureSenderQueueEntry hash sender nonce).queueState other = state.queueState other := by
  dsimp only [queueState, ensureSenderQueueEntry]
  rw [getElem?_insert_ne differs]

theorem Classified.enqueue (classified : Classified state) (named : Named state)
    (full : SchedulerState.NoEmptyQueue state.senderQueues) {hash : TxHash} {sender : Address}
    {nonce : UInt64} (only : ∀ other position, state.slot other position = some hash →
      other = sender ∧ position = nonce) :
    Classified (state.enqueue hash sender nonce) := by
  apply Classified.recompute (named.ensure only)
  · exact SchedulerState.noEmptyQueue_insertQueueEntry full _ _ _
  · intro other differs queue queued visited member
    have before : state.senderQueues[other]? = some queue := by
      dsimp only [ensureSenderQueueEntry] at queued
      rwa [SchedulerState.getElem?_insertQueueEntry, if_neg (Ne.symm differs)] at queued
    have elsewhere : hash ≠ visited.1.2 := by
      rintro same
      have held := slot_of_mem_scan before member
      rw [← same] at held
      exact differs (only other _ held).1
    rw [queueState_ensure_of_ne sender nonce elsewhere]
    exact classified other before visited member

theorem queueState_restatus_of_ne {hash other : TxHash} (status : TxLifecycleStatus)
    (differs : hash ≠ other) :
    (state.restatus hash status).queueState other = state.queueState other := by
  dsimp only [queueState, restatus]
  rw [getElem?_insert_ne differs]

@[simp] theorem queueState_removeSenderQueueEntry (hash other : TxHash) (sender : Address)
    (nonce : UInt64) :
    (state.removeSenderQueueEntry hash sender nonce).queueState other = state.queueState other := by
  unfold removeSenderQueueEntry
  split <;> rfl

theorem getElem?_putQueue_ne (queues : ExtTreeMap Address SenderQueue) (queue : SenderQueue)
    {sender other : Address} (differs : sender ≠ other) :
    (putQueue queues sender queue)[other]? = queues[other]? := by
  rw [putQueue]
  split
  · rw [getElem?_erase_eq, if_neg differs]
  · rw [getElem?_insert_ne differs]

theorem getElem?_removeSenderQueueEntry_of_ne {hash : TxHash} {sender other : Address}
    (nonce : UInt64) (differs : other ≠ sender) :
    (state.removeSenderQueueEntry hash sender nonce).senderQueues[other]? =
      state.senderQueues[other]? := by
  unfold removeSenderQueueEntry
  split
  · rfl
  · exact getElem?_putQueue_ne _ _ (Ne.symm differs)

/-- Taking a hash out of the slot its entry knows leaves slots that name pending transactions. -/
theorem Named.removed (named : Named state) {hash : TxHash} {sender : Address} {nonce : UInt64}
    (knowsSender : (state.profile hash).bind (·.sender) = some sender)
    (knowsNonce : (state.profile hash).bind (·.nonce) = some nonce) (status : TxLifecycleStatus) :
    Named ((state.restatus hash status).removeSenderQueueEntry hash sender nonce) := by
  intro other position holder held
  rw [slot_removeSenderQueueEntry, slot_restatus, slot_restatus] at held
  split at held
  case isTrue => cases held
  case isFalse stays =>
    have known := named held
    have differs : hash ≠ holder := by
      rintro rfl
      rw [known] at knowsSender knowsNonce
      cases knowsSender
      cases knowsNonce
      exact stays ⟨rfl, rfl, held⟩
    rw [profile_removeSenderQueueEntry, profile_restatus, if_neg differs]
    exact known

theorem Classified.retire (classified : Classified state) (named : Named state)
    (full : SchedulerState.NoEmptyQueue state.senderQueues) (hash : TxHash)
    (status : TxLifecycleStatus) : Classified (state.retire hash status) := by
  rw [retire_eq]
  unfold unqueue
  split
  case h_1 owner position knowsSender knowsNonce =>
    apply Classified.recompute (named.removed knowsSender knowsNonce status)
    · exact noEmptyQueue_removeSenderQueueEntry _ _ _ full
    · intro other differs queue queued visited member
      rw [getElem?_removeSenderQueueEntry_of_ne position differs] at queued
      have held : state.slot other visited.1.1 = some visited.1.2 := slot_of_mem_scan queued member
      have elsewhere : hash ≠ visited.1.2 := by
        rintro same
        rw [same, named held] at knowsSender
        exact differs (Option.some.inj knowsSender)
      rw [queueState_removeSenderQueueEntry, queueState_restatus_of_ne status elsewhere]
      exact classified other queued visited member
  case h_2 unknown =>
    intro sender queue queued visited member
    have held : state.slot sender visited.1.1 = some visited.1.2 := slot_of_mem_scan queued member
    have elsewhere : hash ≠ visited.1.2 := by
      rintro same
      apply unknown sender visited.1.1
      · rw [same, named held]
        rfl
      · rw [same, named held]
        rfl
    rw [queueState_restatus_of_ne status elsewhere]
    exact classified sender queued visited member

/-- Setting the queue state of a transaction to the verdict it has. -/
theorem Classified.setQueueState (classified : Classified state) {hash : TxHash}
    {verdict : ReplayQueueState}
    (right : ∀ (sender : Address) (queue : SenderQueue), state.senderQueues[sender]? = some queue →
      ∀ visited ∈ GapCursor.scan checkedSucc {} queue.toList, visited.1.2 = hash →
        visited.2 = verdict) :
    Classified { state with txs := setQueueState state.txs hash (some verdict) } := by
  intro sender queue queued visited member
  have before := classified sender queued visited member
  dsimp only [queueState] at before ⊢
  rw [getElem?_setQueueState]
  split
  case isTrue same =>
    obtain ⟨entry, stored, -⟩ := Option.bind_eq_some_iff.mp before
    rw [stored]
    exact congrArg some (right sender queue queued visited member same.symm).symm
  case isFalse => exact before

/-- The verdict a queue event announces is the one its slot has. -/
def Announces (state : MempoolState) (hash : TxHash) (verdict : ReplayQueueState) : Prop :=
  ∀ (sender : Address) (queue : SenderQueue), state.senderQueues[sender]? = some queue →
    ∀ visited ∈ GapCursor.scan checkedSucc {} queue.toList, visited.1.2 = hash →
      visited.2 = verdict

/-- What a queue event announces, in the state its transaction has entered. -/
def AnnouncesRight (state : MempoolState) : EventPayload → Prop
  | .txReady ready => (state.enqueue ready.hash ready.sender ready.nonce).Announces ready.hash .ready
  | .txBlocked blocked =>
    ∀ expected, blocked.expectedNonce = some expected →
      (state.enqueue blocked.hash blocked.sender blocked.nonce).Announces blocked.hash
        (.blocked expected)
  | _ => True

/-- **An event that fits the log keeps the queue states right**, if it announces the right one. -/
theorem Follows.classified_step {log : List (Touch TxHash (Address × UInt64))}
    (follows : Follows state log) (classified : Classified state) {position : Address × UInt64}
    {payload : EventPayload} {touch : Touch TxHash (Address × UInt64)}
    (touches : touchOf position payload = some touch) (fits : Fits log touch)
    (announces : state.AnnouncesRight payload) : Classified (state.applyEvent payload).2 := by
  cases payload with
  | txDecoded decoded =>
      cases touches
      dsimp only [applyEvent]
      rw [follows.applyDecoded_eq fits]
      exact classified.enqueue follows.named follows.full (follows.only fits)
  | txReady ready =>
      cases touches
      exact (classified.enqueue follows.named follows.full (follows.only fits)).setQueueState
        announces
  | txBlocked blocked =>
      cases touches
      have entered : Classified (state.enqueue blocked.hash blocked.sender blocked.nonce) :=
        classified.enqueue follows.named follows.full (follows.only fits)
      dsimp only [applyEvent, applyBlocked]
      split
      case h_1 expected known => exact entered.setQueueState (announces expected known)
      case h_2 => exact entered
  | txDropped dropped =>
      exact classified.retire follows.named follows.full dropped.hash _
  | txConfirmedProvisional confirmed =>
      exact classified.retire follows.named follows.full confirmed.hash _
  | txConfirmedFinal confirmed =>
      exact classified.retire follows.named follows.full confirmed.hash _
  | txReplaced replaced =>
      dsimp only [applyEvent, applyReplaced]
      split
      case isTrue => exact classified.retire follows.named follows.full replaced.hash _
      case isFalse => exact classified
  | txSeen | txFetched | candidateQueued | simDispatched | oppDetected | simCompleted
  | assemblyDecisionApplied | bundleSubmitted | txReorged => cases touches

/-- Events that announce nothing, and spell a coherent log, keep the queue states right. -/
theorem Follows.classified_replay {log : List (Touch TxHash (Address × UInt64))}
    (follows : Follows state log) (classified : Classified state) {claims : List Claim}
    (coherent : Coherent (log ++ claims.map Claim.touch))
    (quiet : ∀ claim ∈ claims, ∀ state : MempoolState, state.AnnouncesRight claim.payload) :
    Classified (state.replay (claims.map Claim.payload)) := by
  induction claims generalizing state log with
  | nil => exact classified
  | cons claim rest ih =>
      obtain ⟨first, others⟩ := List.forall_mem_cons.mp quiet
      have fits : Fits log claim.touch := coherent.fits rfl
      have whole : log ++ (claim :: rest).map Claim.touch =
          (log ++ [claim.touch]) ++ rest.map Claim.touch := by
        rw [List.map_cons, List.append_assoc]
        rfl
      rw [whole] at coherent
      exact ih (follows.step claim.spelled fits)
        (follows.classified_step classified claim.spelled fits (first state)) coherent others

end Classified

end MempoolState

end Mempulse.Replay
