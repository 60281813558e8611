import Mempulse.Replay.MempoolState
import Mempulse.Scheduler.Admission

/-!
# What an event does to the replay model

Three things of the replay model are followed: the profile of a hash (its sender, its nonce and
its status), the hash in a slot, and the queue state kept for a hash. Recomputing a sender's
queue states leaves every profile alone, empties the slots that name no pending transaction, and
gives every other entry of the queue the verdict of a scan.
-/

set_option autoImplicit false

namespace Mempulse.Replay

open Std EventLog Library Scheduler

/-- What the replay model knows of a hash, its queue state apart. -/
structure Profile where
  sender : Option Address
  nonce : Option UInt64
  status : TxLifecycleStatus
  deriving DecidableEq

/-- What an entry says of its transaction, without the state of its queue. -/
def TxEntry.profile (entry : TxEntry) : Profile := ⟨entry.sender, entry.nonce, entry.status⟩

namespace MempoolState

/-- What the state says of a hash. -/
def profile (state : MempoolState) (hash : TxHash) : Option Profile :=
  (state.txs[hash]?).map TxEntry.profile

/-- The hash at a nonce of a sender. -/
def slot (state : MempoolState) (sender : Address) (nonce : UInt64) : Option TxHash :=
  SchedulerState.slotOf state.senderQueues sender nonce

/-- The queue state of a hash. -/
def queueState (state : MempoolState) (hash : TxHash) : Option ReplayQueueState :=
  (state.txs[hash]?).bind (·.queueState)

theorem lifecycle_eq (state : MempoolState) (hash : TxHash) :
    state.lifecycle hash = (state.profile hash).map (·.status) := by
  rw [lifecycle, profile, Option.map_map]
  rfl

theorem mem_pendingHashes {state : MempoolState} {hash : TxHash} :
    hash ∈ state.pendingHashes ↔ state.lifecycle hash = some .pending := by
  rw [pendingHashes, List.mem_map, lifecycle, Option.map_eq_some_iff]
  constructor
  · rintro ⟨⟨_, entry⟩, listed, rfl⟩
    obtain ⟨stored, pending⟩ := List.mem_filter.mp listed
    exact ⟨entry, mem_toList.mp stored, of_decide_eq_true pending⟩
  · rintro ⟨entry, stored, pending⟩
    exact ⟨(hash, entry), List.mem_filter.mpr ⟨mem_toList.mpr stored, decide_eq_true pending⟩, rfl⟩

theorem isPending_iff {state : MempoolState} {hash : TxHash} :
    isPending state.txs hash = true ↔ state.lifecycle hash = some .pending := by
  rw [isPending, decide_eq_true_eq, lifecycle]

/-! ## Queue states -/

theorem getElem?_setQueueState (txs : ExtTreeMap TxHash TxEntry) (hash other : TxHash)
    (queueState : Option ReplayQueueState) :
    (setQueueState txs hash queueState)[other]? =
      if hash = other then (txs[other]?).map fun entry : TxEntry => { entry with queueState := queueState }
      else txs[other]? := by
  rw [setQueueState, ExtTreeMap.getElem?_modify]
  simp only [Std.compare_eq_iff_eq]
  split
  case isTrue same => rw [same]
  case isFalse => rfl

@[simp] theorem profile_setQueueState (txs : ExtTreeMap TxHash TxEntry) (hash other : TxHash)
    (queueState : Option ReplayQueueState) :
    ((setQueueState txs hash queueState)[other]?).map TxEntry.profile =
      (txs[other]?).map TxEntry.profile := by
  rw [getElem?_setQueueState]
  split
  case isTrue => rw [Option.map_map]; rfl
  case isFalse => rfl

section Fold

variable {α : Type} (hashOf : α → TxHash) (stateOf : α → Option ReplayQueueState)

theorem profile_foldl_setQueueState (updates : List α) (txs : ExtTreeMap TxHash TxEntry)
    (hash : TxHash) :
    ((updates.foldl (fun txs update => setQueueState txs (hashOf update) (stateOf update))
        txs)[hash]?).map TxEntry.profile = (txs[hash]?).map TxEntry.profile := by
  induction updates generalizing txs with
  | nil => rfl
  | cons update rest ih => rw [List.foldl_cons, ih, profile_setQueueState]

theorem getElem?_foldl_setQueueState_of_forall_ne {updates : List α}
    (txs : ExtTreeMap TxHash TxEntry) {hash : TxHash}
    (elsewhere : ∀ update ∈ updates, hashOf update ≠ hash) :
    (updates.foldl (fun txs update => setQueueState txs (hashOf update) (stateOf update))
      txs)[hash]? = txs[hash]? := by
  induction updates generalizing txs with
  | nil => rfl
  | cons update rest ih =>
      obtain ⟨first, others⟩ := List.forall_mem_cons.mp elsewhere
      rw [List.foldl_cons, ih _ others, getElem?_setQueueState, if_neg first]

/-- An update of distinct hashes gives each of them its state. -/
theorem getElem?_foldl_setQueueState_of_mem {updates : List α} (txs : ExtTreeMap TxHash TxEntry)
    (distinct : updates.Pairwise fun earlier later => hashOf earlier ≠ hashOf later) {update : α}
    (member : update ∈ updates) :
    (updates.foldl (fun txs update => setQueueState txs (hashOf update) (stateOf update))
        txs)[hashOf update]? =
      (txs[hashOf update]?).map fun entry : TxEntry => { entry with queueState := stateOf update } := by
  induction updates generalizing txs with
  | nil => cases member
  | cons first rest ih =>
      obtain ⟨apart, distinct⟩ := List.pairwise_cons.mp distinct
      rw [List.foldl_cons]
      rcases List.mem_cons.mp member with rfl | later
      · rw [getElem?_foldl_setQueueState_of_forall_ne hashOf stateOf _ fun other listed =>
          (apart other listed).symm, getElem?_setQueueState, if_pos rfl]
      · rw [ih _ distinct later, getElem?_setQueueState, if_neg (apart update later)]

end Fold

/-! ## Slots -/

theorem slotOf_putQueue (queues : ExtTreeMap Address SenderQueue) (sender other : Address)
    (queue : SenderQueue) (nonce : UInt64) :
    SchedulerState.slotOf (putQueue queues sender queue) other nonce =
      if sender = other then queue[nonce]? else SchedulerState.slotOf queues other nonce := by
  rw [putQueue, SchedulerState.slotOf, SchedulerState.slotOf]
  split
  case isTrue empty =>
    rw [getElem?_erase_eq]
    split
    case isTrue => simp [ExtTreeMap.isEmpty_iff.mp empty]
    case isFalse => rfl
  case isFalse =>
    rw [getElem?_insert_eq]
    split
    case isTrue => rfl
    case isFalse => rfl

theorem noEmptyQueue_putQueue {queues : ExtTreeMap Address SenderQueue}
    (full : SchedulerState.NoEmptyQueue queues) (sender : Address) (queue : SenderQueue) :
    SchedulerState.NoEmptyQueue (putQueue queues sender queue) := by
  intro other stored found
  rw [putQueue] at found
  split at found
  case isTrue =>
    rw [getElem?_erase_eq] at found
    split at found
    case isTrue => cases found
    case isFalse => exact full other stored found
  case isFalse nonempty =>
    rw [getElem?_insert_eq] at found
    split at found
    case isTrue =>
      rw [← Option.some.inj found]
      intro empty
      exact nonempty (ExtTreeMap.isEmpty_iff.mpr empty)
    case isFalse => exact full other stored found

theorem getElem?_foldl_erase (nonces : List UInt64) (queue : SenderQueue) (nonce : UInt64) :
    (nonces.foldl (·.erase ·) queue)[nonce]? = if nonce ∈ nonces then none else queue[nonce]? := by
  induction nonces generalizing queue with
  | nil => simp
  | cons first rest ih =>
      rw [List.foldl_cons, ih, getElem?_erase_eq]
      by_cases later : nonce ∈ rest
      · simp [later]
      · by_cases here : first = nonce
        · simp [here]
        · simp [later, here, Ne.symm here]

/-! ## Recomputing a sender -/

section Recompute

variable (state : MempoolState) (sender : Address)

@[simp] theorem profile_recompute (hash : TxHash) :
    (state.recomputeSenderQueueStates sender).profile hash = state.profile hash := by
  unfold recomputeSenderQueueStates
  split
  · rfl
  · dsimp only [profile]
    rw [profile_foldl_setQueueState
        (fun update : (UInt64 × TxHash) × ReplayQueueState => update.1.2) fun update => some update.2,
      profile_foldl_setQueueState (fun entry : UInt64 × TxHash => entry.2) fun _ => none]

@[simp] theorem lifecycle_recompute (hash : TxHash) :
    (state.recomputeSenderQueueStates sender).lifecycle hash = state.lifecycle hash := by
  rw [lifecycle_eq, lifecycle_eq, profile_recompute]

/-- Recomputing empties the sender's slots that name no pending transaction. -/
theorem slot_recompute (other : Address) (nonce : UInt64) :
    (state.recomputeSenderQueueStates sender).slot other nonce =
      if sender = other then
        (state.slot other nonce).filter fun hash => state.lifecycle hash = some .pending
      else state.slot other nonce := by
  unfold recomputeSenderQueueStates
  split
  case h_1 missing =>
    split
    case isTrue same =>
      rw [slot, SchedulerState.slotOf, ← same, missing]
      rfl
    case isFalse => rfl
  case h_2 queue queued =>
    dsimp only [slot]
    rw [slotOf_putQueue]
    split
    case isTrue same =>
      subst same
      rw [getElem?_foldl_erase, SchedulerState.slotOf, queued, Option.bind_some]
      have pendingAfter : ∀ hash : TxHash, isPending (queue.toList.foldl
          (fun txs entry => setQueueState txs entry.2 none) state.txs) hash =
          decide (state.lifecycle hash = some .pending) := by
        intro hash
        have same := profile_foldl_setQueueState (fun entry : UInt64 × TxHash => entry.2)
          (fun _ => none) queue.toList state.txs hash
        have statuses := congrArg (Option.map Profile.status) same
        rw [Option.map_map, Option.map_map] at statuses
        rw [isPending, lifecycle]
        exact congrArg (fun status => decide (status = some .pending)) statuses
      simp only [pendingAfter, List.mem_map, List.mem_filter, mem_toList, Prod.exists,
        exists_and_right, exists_eq_right, Bool.not_eq_true', decide_eq_false_iff_not]
      cases named : queue[nonce]? with
      | none => simp
      | some hash =>
          by_cases pending : state.lifecycle hash = some .pending
          · simp [pending, Option.filter_some]
          · simp [pending, Option.filter_some]
    case isFalse => rfl

end Recompute

theorem noEmptyQueue_recompute {state : MempoolState} (full : SchedulerState.NoEmptyQueue
    state.senderQueues) (sender : Address) :
    SchedulerState.NoEmptyQueue (state.recomputeSenderQueueStates sender).senderQueues := by
  unfold recomputeSenderQueueStates
  split
  · exact full
  · exact noEmptyQueue_putQueue full _ _

/-! ## Entering and leaving a queue -/

section Queue

variable (state : MempoolState) (hash : TxHash) (sender : Address) (nonce : UInt64)

theorem profile_ensure (other : TxHash) :
    (state.ensureSenderQueueEntry hash sender nonce).profile other =
      if hash = other then some ⟨some sender, some nonce, .pending⟩ else state.profile other := by
  dsimp only [profile, ensureSenderQueueEntry]
  rw [getElem?_insert_eq]
  split
  case isTrue => rfl
  case isFalse => rfl

theorem slot_ensure (other : Address) (position : UInt64) :
    (state.ensureSenderQueueEntry hash sender nonce).slot other position =
      if sender = other ∧ nonce = position then some hash else state.slot other position :=
  SchedulerState.slotOf_insertQueueEntry state.senderQueues sender other nonce position hash

@[simp] theorem profile_removeSenderQueueEntry (other : TxHash) :
    (state.removeSenderQueueEntry hash sender nonce).profile other = state.profile other := by
  unfold removeSenderQueueEntry
  split <;> rfl

theorem slot_removeSenderQueueEntry (other : Address) (position : UInt64) :
    (state.removeSenderQueueEntry hash sender nonce).slot other position =
      if sender = other ∧ nonce = position ∧ state.slot sender nonce = some hash then none
      else state.slot other position := by
  unfold removeSenderQueueEntry
  split
  case h_1 missing =>
    have vacant : state.slot sender nonce = none := by
      rw [slot, SchedulerState.slotOf, missing]
      rfl
    rw [vacant]
    simp
  case h_2 queue queued =>
    have here : state.slot sender nonce = queue[nonce]? := by
      rw [slot, SchedulerState.slotOf, queued, Option.bind_some]
    rw [here]
    dsimp only [slot]
    rw [slotOf_putQueue]
    by_cases sameSender : sender = other
    · subst sameSender
      have whole : SchedulerState.slotOf state.senderQueues sender position = queue[position]? := by
        rw [SchedulerState.slotOf, queued, Option.bind_some]
      rw [if_pos rfl, whole]
      by_cases held : queue[nonce]? = some hash
      · rw [if_pos held, getElem?_erase_eq]
        by_cases sameNonce : nonce = position
        · rw [if_pos sameNonce, if_pos ⟨rfl, sameNonce, held⟩]
        · rw [if_neg sameNonce, if_neg fun all => sameNonce all.2.1]
      · rw [if_neg held, if_neg fun all => held all.2.2]
    · rw [if_neg sameSender, if_neg fun all => sameSender all.1]

theorem noEmptyQueue_removeSenderQueueEntry {state : MempoolState}
    (full : SchedulerState.NoEmptyQueue state.senderQueues) :
    SchedulerState.NoEmptyQueue
      (state.removeSenderQueueEntry hash sender nonce).senderQueues := by
  unfold removeSenderQueueEntry
  split
  · exact full
  · exact noEmptyQueue_putQueue full _ _

end Queue

/-! ## Retiring a transaction -/

section Retire

variable (state : MempoolState) (hash : TxHash) (status : TxLifecycleStatus)

/-- The state in which a hash has just got its new status. -/
def restatus : MempoolState :=
  let entry := state.entryOr hash status
  { state with txs := state.txs.insert hash { entry with status := status, queueState := none } }

theorem profile_restatus (other : TxHash) :
    (state.restatus hash status).profile other =
      if hash = other then
        some { (state.profile hash).getD ⟨none, none, status⟩ with status := status }
      else state.profile other := by
  dsimp only [profile, restatus]
  rw [getElem?_insert_eq]
  split
  case isTrue =>
    rw [Option.map_some, entryOr]
    cases state.txs[hash]? <;> rfl
  case isFalse => rfl

@[simp] theorem slot_restatus (sender : Address) (nonce : UInt64) :
    (state.restatus hash status).slot sender nonce = state.slot sender nonce := rfl

theorem retire_eq :
    state.retire hash status =
      (state.restatus hash status).unqueue hash ((state.profile hash).bind (·.sender))
        ((state.profile hash).bind (·.nonce)) := by
  dsimp only [retire, restatus, profile, entryOr]
  cases state.txs[hash]? <;> rfl

@[simp] theorem profile_unqueue (sender : Option Address) (nonce : Option UInt64)
    (other : TxHash) : (state.unqueue hash sender nonce).profile other = state.profile other := by
  unfold unqueue
  split
  · rw [profile_recompute, profile_removeSenderQueueEntry]
  · rfl

/-- The retired hash has its new status, and every other profile is kept. -/
theorem profile_retire (other : TxHash) :
    (state.retire hash status).profile other =
      if hash = other then
        some { (state.profile hash).getD ⟨none, none, status⟩ with status := status }
      else state.profile other := by
  rw [retire_eq, profile_unqueue, profile_restatus]

theorem noEmptyQueue_retire {state : MempoolState}
    (full : SchedulerState.NoEmptyQueue state.senderQueues) :
    SchedulerState.NoEmptyQueue (state.retire hash status).senderQueues := by
  have restated : SchedulerState.NoEmptyQueue (state.restatus hash status).senderQueues := full
  rw [retire_eq]
  unfold unqueue
  split
  · exact noEmptyQueue_recompute (noEmptyQueue_removeSenderQueueEntry _ _ _ restated) _
  · exact restated

end Retire

/-! ## Slots that name pending transactions -/

/-- Every slot names a pending transaction whose entry knows the slot. -/
def Named (state : MempoolState) : Prop :=
  ∀ ⦃sender : Address⦄ ⦃nonce : UInt64⦄ ⦃hash : TxHash⦄, state.slot sender nonce = some hash →
    state.profile hash = some ⟨some sender, some nonce, .pending⟩

section Named

variable {state : MempoolState}

theorem Named.lifecycle (named : Named state) {sender : Address} {nonce : UInt64} {hash : TxHash}
    (held : state.slot sender nonce = some hash) : state.lifecycle hash = some .pending := by
  rw [lifecycle_eq, named held]
  rfl

/-- A hash is in one slot only. -/
theorem Named.unique (named : Named state) {sender other : Address} {nonce position : UInt64}
    {hash : TxHash} (held : state.slot sender nonce = some hash)
    (alsoHeld : state.slot other position = some hash) : sender = other ∧ nonce = position := by
  have same := (named held).symm.trans (named alsoHeld)
  simp only [Option.some.injEq, Profile.mk.injEq, and_true] at same
  exact same

theorem Named.empty : Named {} := by
  intro sender nonce hash held
  simp [slot, SchedulerState.slotOf] at held

/-- Recomputing empties no slot when every slot names a pending transaction. -/
theorem Named.slot_recompute (named : Named state) (sender other : Address) (nonce : UInt64) :
    (state.recomputeSenderQueueStates sender).slot other nonce = state.slot other nonce := by
  rw [MempoolState.slot_recompute]
  split
  case isTrue =>
    cases held : state.slot other nonce with
    | none => rfl
    | some hash => rw [Option.filter_some, if_pos (decide_eq_true (named.lifecycle held))]
  case isFalse => rfl

theorem Named.recompute (named : Named state) (sender : Address) :
    Named (state.recomputeSenderQueueStates sender) := by
  intro other nonce hash held
  rw [named.slot_recompute] at held
  rw [profile_recompute]
  exact named held

/-- **Retiring a transaction empties its slot and no other.** -/
theorem Named.slot_retire (named : Named state) (hash : TxHash) (status : TxLifecycleStatus)
    (sender : Address) (nonce : UInt64) :
    (state.retire hash status).slot sender nonce =
      if state.slot sender nonce = some hash then none else state.slot sender nonce := by
  have others : ∀ {other : TxHash}, other ≠ hash → state.slot sender nonce = some other →
      ((state.restatus hash status).lifecycle other = some .pending) := by
    intro other differs held
    rw [lifecycle_eq, profile_restatus, if_neg (Ne.symm differs), ← lifecycle_eq]
    exact named.lifecycle held
  rw [retire_eq]
  unfold unqueue
  split
  case h_1 owner position knowsSender knowsNonce =>
    rw [MempoolState.slot_recompute, slot_removeSenderQueueEntry, slot_restatus, slot_restatus]
    have lifecycleKept : ∀ other : TxHash,
        ((state.restatus hash status).removeSenderQueueEntry hash owner position).lifecycle other =
          (state.restatus hash status).lifecycle other := by
      intro other
      rw [lifecycle_eq, lifecycle_eq, profile_removeSenderQueueEntry]
    by_cases held : state.slot sender nonce = some hash
    · have known := named held
      rw [known] at knowsSender knowsNonce
      cases knowsSender
      cases knowsNonce
      rw [if_pos rfl, if_pos ⟨rfl, rfl, held⟩, if_pos held]
      rfl
    · have stays : ¬ (owner = sender ∧ position = nonce ∧
          state.slot owner position = some hash) := by
        rintro ⟨rfl, rfl, there⟩
        exact held there
      rw [if_neg stays, if_neg held]
      split
      case isTrue =>
        cases holder : state.slot sender nonce with
        | none => rfl
        | some other =>
            have differs : other ≠ hash := fun same => held (same ▸ holder)
            rw [Option.filter_some, lifecycleKept, if_pos (decide_eq_true (others differs holder))]
      case isFalse => rfl
  case h_2 unknown =>
    rw [slot_restatus, if_neg]
    intro held
    have known := named held
    exact unknown sender nonce (by rw [known]; rfl) (by rw [known]; rfl)

theorem Named.retire (named : Named state) (hash : TxHash) (status : TxLifecycleStatus) :
    Named (state.retire hash status) := by
  intro sender nonce other held
  rw [named.slot_retire hash status] at held
  split at held
  case isTrue => cases held
  case isFalse elsewhere =>
    have differs : hash ≠ other := fun same => elsewhere (same ▸ held)
    rw [profile_retire, if_neg differs]
    exact named held

/-- A hash that enters a slot and sits in no other. -/
theorem Named.ensure (named : Named state) {hash : TxHash} {sender : Address} {nonce : UInt64}
    (only : ∀ other position, state.slot other position = some hash →
      other = sender ∧ position = nonce) :
    Named (state.ensureSenderQueueEntry hash sender nonce) := by
  intro other position holder held
  rw [slot_ensure] at held
  rw [profile_ensure]
  split at held
  case isTrue here =>
    cases held
    rw [if_pos rfl, here.1, here.2]
  case isFalse elsewhere =>
    have differs : hash ≠ holder := by
      rintro rfl
      obtain ⟨rfl, rfl⟩ := only other position held
      exact elsewhere ⟨rfl, rfl⟩
    rw [if_neg differs]
    exact named held

end Named

/-- What entering a slot does, its sender recomputed. -/
def enqueue (state : MempoolState) (hash : TxHash) (sender : Address) (nonce : UInt64) :
    MempoolState :=
  (state.ensureSenderQueueEntry hash sender nonce).recomputeSenderQueueStates sender

section Enqueue

variable {state : MempoolState} {hash : TxHash} {sender : Address} {nonce : UInt64}

theorem profile_enqueue (other : TxHash) :
    (state.enqueue hash sender nonce).profile other =
      if hash = other then some ⟨some sender, some nonce, .pending⟩ else state.profile other := by
  rw [enqueue, profile_recompute, profile_ensure]

theorem Named.slot_enqueue (named : Named state)
    (only : ∀ other position, state.slot other position = some hash →
      other = sender ∧ position = nonce) (other : Address) (position : UInt64) :
    (state.enqueue hash sender nonce).slot other position =
      if sender = other ∧ nonce = position then some hash else state.slot other position := by
  rw [enqueue, (named.ensure only).slot_recompute, slot_ensure]

theorem Named.enqueue (named : Named state)
    (only : ∀ other position, state.slot other position = some hash →
      other = sender ∧ position = nonce) : Named (state.enqueue hash sender nonce) :=
  (named.ensure only).recompute sender

theorem noEmptyQueue_enqueue (full : SchedulerState.NoEmptyQueue state.senderQueues) :
    SchedulerState.NoEmptyQueue (state.enqueue hash sender nonce).senderQueues :=
  noEmptyQueue_recompute (SchedulerState.noEmptyQueue_insertQueueEntry full _ _ _) _

end Enqueue

/-! ## Decoded transactions -/

section Decoded

variable {state : MempoolState}

theorem slot_displace (decoded : TxDecoded) (other : Address) (position : UInt64) :
    (state.displace decoded).2.slot other position = state.slot other position := by
  unfold displace
  split
  · split <;> rfl
  · rfl

theorem senderQueues_displace (decoded : TxDecoded) :
    (state.displace decoded).2.senderQueues = state.senderQueues := by
  unfold displace
  split
  · split <;> rfl
  · rfl

/-- The displaced hash is replaced, and every other profile is kept. -/
theorem profile_displace (decoded : TxDecoded) (other : TxHash) :
    (state.displace decoded).2.profile other =
      if state.slot decoded.sender decoded.nonce = some other ∧ other ≠ decoded.hash then
        (state.profile other).map fun known => { known with status := .replaced decoded.hash }
      else state.profile other := by
  unfold displace slot
  split
  case h_1 oldHash held =>
    rw [held]
    split
    case isTrue differs =>
      dsimp only [profile]
      rw [ExtTreeMap.getElem?_modify]
      simp only [Std.compare_eq_iff_eq]
      by_cases same : oldHash = other
      · subst same
        rw [if_pos rfl, if_pos ⟨rfl, differs⟩, Option.map_map, Option.map_map]
        rfl
      · rw [if_neg same, if_neg fun both => same (Option.some.inj both.1)]
    case isFalse same =>
      rw [if_neg]
      rintro ⟨here, differs⟩
      cases here
      exact same differs
  case h_2 vacant =>
    rw [vacant, if_neg]
    rintro ⟨here, -⟩
    cases here

/-- The decoded hash is pending in its slot, and the hash that held the slot is replaced. -/
theorem profile_applyDecoded (decoded : TxDecoded) (other : TxHash) :
    (state.applyDecoded decoded).2.profile other =
      if decoded.hash = other then some ⟨some decoded.sender, some decoded.nonce, .pending⟩
      else if state.slot decoded.sender decoded.nonce = some other then
        (state.profile other).map fun known => { known with status := .replaced decoded.hash }
      else state.profile other := by
  dsimp only [applyDecoded]
  rw [profile_recompute, profile_ensure]
  split
  case isTrue => rfl
  case isFalse differs =>
    rw [profile_displace]
    by_cases here : state.slot decoded.sender decoded.nonce = some other
    · rw [if_pos ⟨here, Ne.symm differs⟩, if_pos here]
    · rw [if_neg fun both => here both.1, if_neg here]

/-- Entering a slot over the hash that has just been displaced from it. -/
theorem Named.ensure_displace (named : Named state) (decoded : TxDecoded)
    (only : ∀ other position, state.slot other position = some decoded.hash →
      other = decoded.sender ∧ position = decoded.nonce) :
    Named ((state.displace decoded).2.ensureSenderQueueEntry decoded.hash decoded.sender
      decoded.nonce) := by
  intro other position holder held
  rw [slot_ensure, slot_displace] at held
  rw [profile_ensure, profile_displace]
  split at held
  case isTrue here =>
    cases held
    rw [if_pos rfl, here.1, here.2]
  case isFalse elsewhere =>
    have differs : decoded.hash ≠ holder := by
      rintro rfl
      obtain ⟨rfl, rfl⟩ := only other position held
      exact elsewhere ⟨rfl, rfl⟩
    rw [if_neg differs, if_neg]
    · exact named held
    · rintro ⟨here, -⟩
      obtain ⟨rfl, rfl⟩ := named.unique here held
      exact elsewhere ⟨rfl, rfl⟩

theorem Named.applyDecoded (named : Named state) (decoded : TxDecoded)
    (only : ∀ other position, state.slot other position = some decoded.hash →
      other = decoded.sender ∧ position = decoded.nonce) :
    Named (state.applyDecoded decoded).2 :=
  (named.ensure_displace decoded only).recompute decoded.sender

theorem Named.slot_applyDecoded (named : Named state) (decoded : TxDecoded)
    (only : ∀ other position, state.slot other position = some decoded.hash →
      other = decoded.sender ∧ position = decoded.nonce) (other : Address) (position : UInt64) :
    (state.applyDecoded decoded).2.slot other position =
      if decoded.sender = other ∧ decoded.nonce = position then some decoded.hash
      else state.slot other position := by
  dsimp only [MempoolState.applyDecoded]
  rw [(named.ensure_displace decoded only).slot_recompute, slot_ensure, slot_displace]

theorem noEmptyQueue_applyDecoded (full : SchedulerState.NoEmptyQueue state.senderQueues)
    (decoded : TxDecoded) :
    SchedulerState.NoEmptyQueue (state.applyDecoded decoded).2.senderQueues := by
  apply noEmptyQueue_recompute
  apply SchedulerState.noEmptyQueue_insertQueueEntry
  rw [senderQueues_displace]
  exact full

end Decoded

end MempoolState

end Mempulse.Replay
