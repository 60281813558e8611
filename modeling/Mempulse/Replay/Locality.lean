import Mempulse.Replay.QueueReport
import Mempulse.Replay.SlotInvariant

/-!
# An event touches one sender

Every slot of the replay model belongs to the sender and the nonce of the hash in it, so an event
about a hash changes slots and entries of that hash's sender only. Recomputing a sender gives every
live entry of its queue the verdict of a scan.
-/

set_option autoImplicit false

namespace Mempulse.Replay

open Std EventLog Library Scheduler

namespace MempoolState

/-- The sender and the nonce the entry of a hash knows. -/
def place (state : MempoolState) (hash : TxHash) : Option (Address × UInt64) :=
  match state.profile hash with
  | some ⟨some sender, some nonce, _⟩ => some (sender, nonce)
  | _ => none

/-- Every slot belongs to the sender and the nonce of the hash in it. -/
def Seats (places : TxHash → Address × UInt64) (state : MempoolState) : Prop :=
  ∀ ⦃sender : Address⦄ ⦃nonce : UInt64⦄ ⦃hash : TxHash⦄,
    state.slot sender nonce = some hash → (sender, nonce) = places hash

/-- Two states differ only in the slots of one sender and in the entries of its hashes. -/
structure AgreesOff (places : TxHash → Address × UInt64) (owner : Address)
    (before after : MempoolState) : Prop where
  slots : ∀ sender, sender ≠ owner → ∀ nonce, after.slot sender nonce = before.slot sender nonce
  entries : ∀ hash, (places hash).1 ≠ owner → after.txs[hash]? = before.txs[hash]?

section Places

variable {places : TxHash → Address × UInt64} {state : MempoolState} {hash : TxHash}
  {sender owner : Address} {nonce : UInt64}

theorem place_eq_some_iff :
    state.place hash = some (sender, nonce) ↔
      ∃ status, state.profile hash = some ⟨some sender, some nonce, status⟩ := by
  rw [place]
  split
  case h_1 holder position status known =>
    rw [known]
    constructor
    · intro same
      cases same
      exact ⟨status, rfl⟩
    · rintro ⟨_, same⟩
      cases same
      rfl
  case h_2 unknown =>
    refine iff_of_false nofun ?_
    rintro ⟨status, known⟩
    exact unknown sender nonce status known

theorem retire_of_place (known : state.place hash = some (sender, nonce))
    (status : TxLifecycleStatus) :
    state.retire hash status =
      ((state.restatus hash status).removeSenderQueueEntry hash sender
        nonce).recomputeSenderQueueStates sender := by
  obtain ⟨earlier, profiled⟩ := place_eq_some_iff.mp known
  rw [retire_eq, profiled]
  rfl

/-- A hash whose sender or nonce is not known is in no queue. -/
theorem retire_of_place_eq_none (unknown : state.place hash = none) (status : TxLifecycleStatus) :
    state.retire hash status = state.restatus hash status := by
  rw [retire_eq]
  unfold unqueue
  split
  case h_1 owner position knowsSender knowsNonce =>
    obtain ⟨⟨_, _, earlier⟩, profiled, rfl⟩ := Option.bind_eq_some_iff.mp knowsSender
    rw [profiled] at knowsNonce
    obtain rfl : _ = some position := knowsNonce
    rw [place_eq_some_iff.mpr ⟨earlier, profiled⟩] at unknown
    cases unknown
  case h_2 => rfl

theorem place_congr {other : MempoolState} (same : other.profile hash = state.profile hash) :
    other.place hash = state.place hash := by
  rw [place, place, same]

theorem Knows.place_eq (knows : Knows places state) (known : state.place hash = some (sender, nonce)) :
    (sender, nonce) = places hash := by
  obtain ⟨status, profiled⟩ := place_eq_some_iff.mp known
  exact knows profiled

theorem Named.place_eq (named : Named state) (held : state.slot sender nonce = some hash) :
    state.place hash = some (sender, nonce) := place_eq_some_iff.mpr ⟨.pending, named held⟩

theorem Named.seats (named : Named state) (knows : Knows places state) : Seats places state :=
  fun _ _ _ held => knows (named held)

/-! ## Slots -/

theorem Seats.unique (seats : Seats places state) {other : Address} {position : UInt64}
    (held : state.slot sender nonce = some hash) (alsoHeld : state.slot other position = some hash) :
    sender = other ∧ nonce = position := by
  have same := (seats held).trans (seats alsoHeld).symm
  exact ⟨congrArg Prod.fst same, congrArg Prod.snd same⟩

/-- A hash of another sender is in none of a sender's slots. -/
theorem Seats.elsewhere (seats : Seats places state) (foreign : (places hash).1 ≠ sender)
    (nonce : UInt64) : state.slot sender nonce ≠ some hash :=
  fun held => foreign (congrArg Prod.fst (seats held)).symm

theorem Seats.of_slots {other : MempoolState} (seats : Seats places state)
    (kept : ∀ sender nonce hash, other.slot sender nonce = some hash →
      state.slot sender nonce = some hash) : Seats places other :=
  fun _ _ _ held => seats (kept _ _ _ held)

theorem Seats.ensure (seats : Seats places state) (own : (sender, nonce) = places hash) :
    Seats places (state.ensureSenderQueueEntry hash sender nonce) := by
  intro other position holder held
  rw [slot_ensure] at held
  split at held
  case isTrue here =>
    obtain ⟨rfl, rfl⟩ := here
    cases held
    exact own
  case isFalse => exact seats held

theorem Seats.displace (seats : Seats places state) (decoded : TxDecoded) :
    Seats places (state.displace decoded).2 :=
  seats.of_slots fun _ _ _ held => by rwa [slot_displace] at held

theorem Seats.restatus (seats : Seats places state) (hash : TxHash) (status : TxLifecycleStatus) :
    Seats places (state.restatus hash status) :=
  seats.of_slots fun _ _ _ held => held

theorem Seats.removed (seats : Seats places state) (hash : TxHash) (owner : Address)
    (position : UInt64) : Seats places (state.removeSenderQueueEntry hash owner position) :=
  seats.of_slots fun _ _ _ held => by
    rw [slot_removeSenderQueueEntry] at held
    split at held
    case isTrue => cases held
    case isFalse => exact held

end Places

/-! ## What is left alone -/

section AgreesOff

variable {places : TxHash → Address × UInt64} {state middle after : MempoolState} {hash : TxHash}
  {sender owner : Address} {nonce : UInt64}

theorem AgreesOff.refl (owner : Address) (state : MempoolState) : AgreesOff places owner state state :=
  ⟨fun _ _ _ => rfl, fun _ _ => rfl⟩

theorem AgreesOff.trans (first : AgreesOff places owner state middle)
    (second : AgreesOff places owner middle after) : AgreesOff places owner state after :=
  ⟨fun sender differs nonce => (second.slots sender differs nonce).trans
      (first.slots sender differs nonce),
    fun hash differs => (second.entries hash differs).trans (first.entries hash differs)⟩

theorem Seats.agreesOff_recompute (seats : Seats places state) (sender : Address) :
    AgreesOff places sender state (state.recomputeSenderQueueStates sender) where
  slots other differs nonce := by rw [slot_recompute, if_neg (Ne.symm differs)]
  entries _ foreign := getElem?_recompute_of_elsewhere sender (seats.elsewhere foreign)

theorem agreesOff_ensure (own : (sender, nonce) = places hash) :
    AgreesOff places sender state (state.ensureSenderQueueEntry hash sender nonce) where
  slots other differs position := by rw [slot_ensure, if_neg fun both => differs both.1.symm]
  entries other foreign := by
    dsimp only [ensureSenderQueueEntry]
    rw [getElem?_insert_ne]
    rintro rfl
    exact foreign (congrArg Prod.fst own).symm

theorem agreesOff_txs {txs : ExtTreeMap TxHash TxEntry}
    (kept : ∀ other, (places other).1 ≠ owner → txs[other]? = state.txs[other]?) :
    AgreesOff places owner state { state with txs := txs } :=
  ⟨fun _ _ _ => rfl, kept⟩

theorem ne_of_foreign {other : TxHash} (foreign : (places other).1 ≠ (places hash).1) :
    hash ≠ other := fun same => foreign (by rw [same])

theorem agreesOff_restatus (status : TxLifecycleStatus) :
    AgreesOff places (places hash).1 state (state.restatus hash status) :=
  agreesOff_txs fun _ foreign => getElem?_insert_ne (ne_of_foreign foreign)

theorem agreesOff_removed (hash : TxHash) (sender : Address) (nonce : UInt64) :
    AgreesOff places sender state (state.removeSenderQueueEntry hash sender nonce) where
  slots other differs position := by
    rw [slot_removeSenderQueueEntry, if_neg fun all => differs all.1.symm]
  entries other _ := by
    unfold removeSenderQueueEntry
    split <;> rfl

theorem Seats.agreesOff_displace (seats : Seats places state) (decoded : TxDecoded) :
    AgreesOff places decoded.sender state (state.displace decoded).2 := by
  refine ⟨fun other _ position => slot_displace decoded other position, fun other foreign => ?_⟩
  unfold MempoolState.displace
  split
  case h_1 oldHash held =>
    split
    case isTrue =>
      dsimp only
      rw [ExtTreeMap.getElem?_modify, if_neg]
      intro same
      rw [Std.compare_eq_iff_eq] at same
      subst same
      exact seats.elsewhere foreign decoded.nonce held
    case isFalse => rfl
  case h_2 => rfl

theorem Seats.agreesOff_enqueue (seats : Seats places state) (own : (sender, nonce) = places hash) :
    AgreesOff places sender state (state.enqueue hash sender nonce) :=
  (agreesOff_ensure own).trans ((seats.ensure own).agreesOff_recompute sender)

theorem Seats.agreesOff_applyDecoded (seats : Seats places state) {decoded : TxDecoded}
    (own : (decoded.sender, decoded.nonce) = places decoded.hash) :
    AgreesOff places decoded.sender state (state.applyDecoded decoded).2 :=
  (seats.agreesOff_displace decoded).trans ((seats.displace decoded).agreesOff_enqueue own)

theorem Seats.agreesOff_retire (seats : Seats places state) (knows : Knows places state)
    (status : TxLifecycleStatus) :
    AgreesOff places (places hash).1 state (state.retire hash status) := by
  cases known : state.place hash with
  | none =>
      rw [retire_of_place_eq_none known]
      exact agreesOff_restatus status
  | some position =>
      obtain ⟨owner, position⟩ := position
      have same : (places hash).1 = owner := (congrArg Prod.fst (knows.place_eq known)).symm
      rw [retire_of_place known, same]
      refine (same ▸ agreesOff_restatus status).trans
        ((agreesOff_removed hash owner position).trans ?_)
      exact ((seats.restatus hash status).removed hash owner position).agreesOff_recompute owner

theorem agreesOff_reopened (entry : TxEntry) :
    AgreesOff places (places hash).1 state (state.reopened hash entry) :=
  agreesOff_txs fun _ foreign => getElem?_insert_ne (ne_of_foreign foreign)

theorem AgreesOff.profile (agrees : AgreesOff places owner state after)
    (foreign : (places hash).1 ≠ owner) : after.profile hash = state.profile hash := by
  rw [MempoolState.profile, MempoolState.profile, agrees.entries hash foreign]

theorem AgreesOff.lifecycle (agrees : AgreesOff places owner state after)
    (foreign : (places hash).1 ≠ owner) : after.lifecycle hash = state.lifecycle hash := by
  rw [MempoolState.lifecycle, MempoolState.lifecycle, agrees.entries hash foreign]

theorem AgreesOff.queueState (agrees : AgreesOff places owner state after)
    (foreign : (places hash).1 ≠ owner) : after.queueState hash = state.queueState hash := by
  rw [MempoolState.queueState, MempoolState.queueState, agrees.entries hash foreign]

theorem AgreesOff.liveQueue (agrees : AgreesOff places owner state after)
    (seats : Seats places state) (differs : sender ≠ owner) :
    after.liveQueue sender = state.liveQueue sender := by
  rw [liveQueue_eq_iff]
  intro nonce hash
  rw [mem_liveQueue, mem_liveQueue, agrees.slots sender differs]
  refine and_congr_right fun held => ?_
  rw [agrees.lifecycle]
  rwa [← congrArg Prod.fst (seats held)]

end AgreesOff

/-! ## Scanning a sender -/

section Scan

variable {places : TxHash → Address × UInt64} {state : MempoolState} {sender : Address}

theorem isPending_cleared (queue : SenderQueue) (txs : ExtTreeMap TxHash TxEntry) (hash : TxHash) :
    isPending (queue.toList.foldl (fun txs entry => setQueueState txs entry.2 none) txs) hash =
      isPending txs hash := by
  have same := congrArg (Option.map Profile.status) (profile_foldl_setQueueState
    (fun entry : UInt64 × TxHash => entry.2) (fun _ => none) queue.toList txs hash)
  rw [Option.map_map, Option.map_map] at same
  exact congrArg (fun status => decide (status = some TxLifecycleStatus.pending)) same

/-- **Recomputing a sender gives its live entries the verdicts of a scan.** -/
theorem Seats.queueState_recompute (seats : Seats places state)
    {visited : (UInt64 × TxHash) × ReplayQueueState} (member : visited ∈ state.verdicts sender) :
    (state.recomputeSenderQueueStates sender).queueState visited.1.2 = some visited.2 := by
  have listed := mem_liveQueue_of_mem_verdicts member
  unfold recomputeSenderQueueStates
  cases queued : state.senderQueues[sender]? with
  | none =>
      rw [liveQueue, queued] at listed
      cases listed
  | some queue =>
      let cleared := queue.toList.foldl (fun txs entry => setQueueState txs entry.2 none) state.txs
      have live : liveEntries cleared queue = state.liveQueue sender := by
        rw [liveQueue, queued]
        exact List.filter_congr fun entry _ => isPending_cleared queue state.txs entry.2
      have distinct : (state.verdicts sender).Pairwise fun earlier later =>
          earlier.1.2 ≠ later.1.2 := by
        have nonces := increasing_liveQueue state sender
        rw [← map_fst_verdicts, List.pairwise_map] at nonces
        refine nonces.imp_of_mem fun earlier later below same => ?_
        have first := mem_liveQueue.mp (mem_liveQueue_of_mem_verdicts earlier)
        have second := mem_liveQueue.mp (mem_liveQueue_of_mem_verdicts later)
        rw [same] at first
        rw [(seats.unique first.1 second.1).2] at below
        cases below.symm.trans ReflCmp.compare_self
      have present : ∃ entry, cleared[visited.1.2]? = some entry := by
        have pending := (mem_liveQueue.mp listed).2
        rw [← isPending_iff, ← isPending_cleared queue, isPending, decide_eq_true_eq,
          Option.map_eq_some_iff] at pending
        exact ⟨_, pending.choose_spec.1⟩
      obtain ⟨entry, stored⟩ := present
      dsimp only [queueState]
      rw [live]
      change ((List.foldl _ cleared (state.verdicts sender))[visited.1.2]?).bind _ = _
      rw [getElem?_foldl_setQueueState_of_mem
        (fun update : (UInt64 × TxHash) × ReplayQueueState => update.1.2)
        (fun update => some update.2) _ distinct member, stored]
      rfl

theorem liveQueue_recompute (state : MempoolState) (sender other : Address) :
    (state.recomputeSenderQueueStates sender).liveQueue other = state.liveQueue other := by
  rw [liveQueue_eq_iff]
  intro nonce hash
  rw [mem_liveQueue, mem_liveQueue, lifecycle_recompute, slot_recompute]
  split
  case isTrue =>
    rw [Option.filter_eq_some_iff, decide_eq_true_eq, and_assoc, and_self]
  case isFalse => rfl

end Scan

end MempoolState

end Mempulse.Replay
