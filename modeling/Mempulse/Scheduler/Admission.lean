import Mempulse.Scheduler.State
import Mempulse.Library.TreeMaps

/-!
# What an admission can do

Each operation of the scheduler changes few fields, and `admit` has five outcomes. The lemmas
here say so once: the frame of every helper, the effect of seating a transaction on the slots
and the pending map, and a case analysis of `admit` that later proofs use in place of its
definition.
-/

set_option autoImplicit false

namespace Mempulse.Scheduler

open Std Library

namespace SchedulerState

/-! ## Frames -/

section Frames

variable (state : SchedulerState) (sender : Address)

@[simp] theorem pending_refreshSenderCounts :
    (state.refreshSenderCounts sender).pending = state.pending := rfl

@[simp] theorem senderQueues_refreshSenderCounts :
    (state.refreshSenderCounts sender).senderQueues = state.senderQueues := rfl

@[simp] theorem candidates_refreshSenderCounts :
    (state.refreshSenderCounts sender).candidates = state.candidates := rfl

@[simp] theorem headBlockNumber_refreshSenderCounts :
    (state.refreshSenderCounts sender).headBlockNumber = state.headBlockNumber := rfl

@[simp] theorem admittedTotal_refreshSenderCounts :
    (state.refreshSenderCounts sender).admittedTotal = state.admittedTotal := rfl

@[simp] theorem replacementTotal_refreshSenderCounts :
    (state.refreshSenderCounts sender).replacementTotal = state.replacementTotal := rfl

@[simp] theorem slot_refreshSenderCounts (owner : Address) (nonce : UInt64) :
    (state.refreshSenderCounts sender).slot owner nonce = state.slot owner nonce := rfl

variable (pending : ExtTreeMap TxHash ValidatedTransaction) (tx : ValidatedTransaction)

@[simp] theorem pending_seat : (state.seat pending tx).pending = pending.insert tx.hash tx := rfl

@[simp] theorem senderQueues_seat :
    (state.seat pending tx).senderQueues =
      insertQueueEntry state.senderQueues tx.decoded.sender tx.decoded.nonce tx.hash := rfl

@[simp] theorem candidates_seat : (state.seat pending tx).candidates = state.candidates := rfl

@[simp] theorem headBlockNumber_seat :
    (state.seat pending tx).headBlockNumber = state.headBlockNumber := rfl

@[simp] theorem admittedTotal_seat :
    (state.seat pending tx).admittedTotal = saturatingAdd u64Max state.admittedTotal 1 := rfl

@[simp] theorem replacementTotal_seat :
    (state.seat pending tx).replacementTotal = state.replacementTotal := rfl

end Frames

/-! ## Slots -/

theorem slot_eq_some_iff {state : SchedulerState} {sender : Address} {nonce : UInt64}
    {hash : TxHash} :
    state.slot sender nonce = some hash ↔
      ∃ queue, state.senderQueues[sender]? = some queue ∧ queue[nonce]? = some hash := by
  simp only [slot, slotOf, Option.bind_eq_some_iff]

theorem getElem?_insertQueueEntry (queues : ExtTreeMap Address SenderQueue)
    (sender other : Address) (nonce : UInt64) (hash : TxHash) :
    (insertQueueEntry queues sender nonce hash)[other]? =
      if sender = other then some (((queues[sender]?).getD (∅ : SenderQueue)).insert nonce hash)
      else queues[other]? := by
  rw [insertQueueEntry, getElem?_insert_eq]

/-- Inserting an entry fills its own slot and no other. -/
theorem slotOf_insertQueueEntry (queues : ExtTreeMap Address SenderQueue) (sender other : Address)
    (nonce position : UInt64) (hash : TxHash) :
    slotOf (insertQueueEntry queues sender nonce hash) other position =
      if sender = other ∧ nonce = position then some hash else slotOf queues other position := by
  rw [slotOf, getElem?_insertQueueEntry]
  by_cases sameSender : sender = other
  · subst sameSender
    rw [if_pos rfl, Option.bind_some, getElem?_insert_eq]
    by_cases sameNonce : nonce = position
    · rw [if_pos sameNonce, if_pos ⟨rfl, sameNonce⟩]
    · rw [if_neg sameNonce, if_neg fun both => sameNonce both.2, slotOf]
      cases queues[sender]? with
      | none => simp
      | some queue => rfl
  · rw [if_neg sameSender, if_neg fun both => sameSender both.1, slotOf]

theorem slot_seat (state : SchedulerState) (pending : ExtTreeMap TxHash ValidatedTransaction)
    (tx : ValidatedTransaction) (sender : Address) (nonce : UInt64) :
    (state.seat pending tx).slot sender nonce =
      if tx.decoded.sender = sender ∧ tx.decoded.nonce = nonce then some tx.hash
      else state.slot sender nonce :=
  slotOf_insertQueueEntry state.senderQueues tx.decoded.sender sender tx.decoded.nonce nonce tx.hash

/-! ## The outcomes of an admission -/

/-- Admits transactions one after another. -/
def admitAll (state : SchedulerState) (config : SchedulerConfig) :
    List ValidatedTransaction → List SchedulerAdmissionOutcome × SchedulerState
  | [] => ([], state)
  | tx :: rest =>
    let admitted := state.admitTx tx config
    let later := admitted.2.admitAll config rest
    (admitted.1 :: later.1, later.2)

/-- The number of transactions queued for a sender. -/
def senderQueueLen (state : SchedulerState) (sender : Address) : Nat :=
  ((state.senderQueues[sender]?).map (·.size)).getD 0

/-- The outcome of an admission that changed the sender's queue. -/
def seatedOutcome (state next : SchedulerState) (tx : ValidatedTransaction)
    (admission : SchedulerAdmission) : SchedulerAdmissionOutcome where
  admission := admission
  queueTransitions :=
    next.queueTransitions tx.decoded.sender (state.senderQueuePositions tx.decoded.sender)

/-- **The outcomes of `admit`**, with what each one checked and what it changed. -/
theorem admit_cases {state : SchedulerState} {tx : ValidatedTransaction} {config : SchedulerConfig}
    {motive : SchedulerAdmissionOutcome × SchedulerState → Prop}
    (duplicate : (∃ held, state.pending[tx.hash]? = some held) →
      motive (⟨.duplicate, []⟩,
        { state with duplicateTotal := saturatingAdd u64Max state.duplicateTotal 1 }))
    (dangling : ∀ hash, state.pending[tx.hash]? = none →
      state.slot tx.decoded.sender tx.decoded.nonce = some hash → state.pending[hash]? = none →
      motive (state.seatedOutcome (state.seat state.pending tx) tx .admitted,
        state.seat state.pending tx))
    (replaced : ∀ hash incumbent, state.pending[tx.hash]? = none →
      state.slot tx.decoded.sender tx.decoded.nonce = some hash →
      state.pending[hash]? = some incumbent →
      replacementThresholdFee incumbent config.replacementFeeBumpBps ≤ tx.replacementFee →
      ∀ next, next = SchedulerState.seat
          { state with replacementTotal := saturatingAdd u64Max state.replacementTotal 1 }
          (state.pending.erase hash) tx →
        motive (state.seatedOutcome next tx (.replaced hash), next))
    (underpriced : ∀ hash incumbent, state.pending[tx.hash]? = none →
      state.slot tx.decoded.sender tx.decoded.nonce = some hash →
      state.pending[hash]? = some incumbent →
      tx.replacementFee < replacementThresholdFee incumbent config.replacementFeeBumpBps →
      motive (⟨.underpricedReplacement, []⟩,
        { state with
          underpricedReplacementTotal := saturatingAdd u64Max state.underpricedReplacementTotal 1 }))
    (limited : state.pending[tx.hash]? = none →
      state.slot tx.decoded.sender tx.decoded.nonce = none →
      config.maxPendingPerSender ≤ state.senderQueueLen tx.decoded.sender →
      motive (⟨.senderLimitReached, []⟩,
        { state with senderLimitDropTotal := saturatingAdd u64Max state.senderLimitDropTotal 1 }))
    (admitted : state.pending[tx.hash]? = none →
      state.slot tx.decoded.sender tx.decoded.nonce = none →
      state.senderQueueLen tx.decoded.sender < config.maxPendingPerSender →
      motive (state.seatedOutcome (state.seat state.pending tx) tx .admitted,
        state.seat state.pending tx)) :
    motive (state.admitTx tx config) := by
  unfold admitTx
  split
  case isTrue held => exact duplicate (contains_iff_exists.mp held)
  case isFalse fresh =>
    have absent : state.pending[tx.hash]? = none := by
      rw [contains_eq_isSome] at fresh
      simpa using fresh
    dsimp only
    split
    case h_1 hash occupied =>
      split
      case h_1 missing => exact dangling hash absent occupied missing
      case h_2 incumbent stored =>
        split
        case isTrue pays => exact replaced hash incumbent absent occupied stored pays _ rfl
        case isFalse short =>
          exact underpriced hash incumbent absent occupied stored (Nat.lt_of_not_le short)
    case h_2 vacant =>
      split
      case isTrue full => exact limited absent vacant full
      case isFalse room => exact admitted absent vacant (Nat.lt_of_not_le room)

section Branches

variable {state : SchedulerState} {tx : ValidatedTransaction} {config : SchedulerConfig}
  {hash : TxHash} {incumbent : ValidatedTransaction}

theorem admitTx_duplicate (held : (state.pending[tx.hash]?).isSome = true) :
    (state.admitTx tx config).1 = ⟨.duplicate, []⟩ := by
  unfold admitTx
  rw [if_pos (by rw [contains_eq_isSome, held])]

variable (fresh : state.pending[tx.hash]? = none)

include fresh

theorem admitTx_replaced (taken : state.slot tx.decoded.sender tx.decoded.nonce = some hash)
    (stored : state.pending[hash]? = some incumbent)
    (pays : replacementThresholdFee incumbent config.replacementFeeBumpBps ≤ tx.replacementFee) :
    let next := SchedulerState.seat
      { state with replacementTotal := saturatingAdd u64Max state.replacementTotal 1 }
      (state.pending.erase hash) tx
    state.admitTx tx config = (state.seatedOutcome next tx (.replaced hash), next) := by
  unfold admitTx
  rw [if_neg (by rw [contains_eq_isSome, fresh]; exact Bool.false_ne_true)]
  simp only [taken, stored, if_pos pays]
  rfl

theorem admitTx_underpriced (taken : state.slot tx.decoded.sender tx.decoded.nonce = some hash)
    (stored : state.pending[hash]? = some incumbent)
    (short : tx.replacementFee < replacementThresholdFee incumbent config.replacementFeeBumpBps) :
    (state.admitTx tx config).1 = ⟨.underpricedReplacement, []⟩ := by
  unfold admitTx
  rw [if_neg (by rw [contains_eq_isSome, fresh]; exact Bool.false_ne_true)]
  simp only [taken, stored, if_neg (Nat.not_le_of_lt short)]

theorem admitTx_limited (vacant : state.slot tx.decoded.sender tx.decoded.nonce = none)
    (full : config.maxPendingPerSender ≤ state.senderQueueLen tx.decoded.sender) :
    (state.admitTx tx config).1 = ⟨.senderLimitReached, []⟩ := by
  unfold admitTx
  rw [if_neg (by rw [contains_eq_isSome, fresh]; exact Bool.false_ne_true)]
  rw [senderQueueLen] at full
  simp only [vacant, if_pos full]

theorem admitTx_admitted (vacant : state.slot tx.decoded.sender tx.decoded.nonce = none)
    (room : state.senderQueueLen tx.decoded.sender < config.maxPendingPerSender) :
    let next := state.seat state.pending tx
    state.admitTx tx config = (state.seatedOutcome next tx .admitted, next) := by
  unfold admitTx
  rw [if_neg (by rw [contains_eq_isSome, fresh]; exact Bool.false_ne_true)]
  rw [senderQueueLen] at room
  simp only [vacant, if_neg (Nat.not_le_of_lt room)]
  rfl

end Branches

/-- The pending entry of a hash after a decision about a transaction. -/
def entryAfter (tx : ValidatedTransaction) (hash : TxHash) (before : Option ValidatedTransaction) :
    SchedulerAdmission → Option ValidatedTransaction
  | .admitted => if tx.hash = hash then some tx else before
  | .replaced replacedHash =>
    if tx.hash = hash then some tx else if replacedHash = hash then none else before
  | .duplicate | .underpricedReplacement | .senderLimitReached => before

/-- The pending set after an admission is determined by the one before and the decision. -/
theorem getElem?_pending_admitTx (state : SchedulerState) (tx : ValidatedTransaction)
    (config : SchedulerConfig) (hash : TxHash) :
    (state.admitTx tx config).2.pending[hash]? =
      entryAfter tx hash state.pending[hash]? (state.admitTx tx config).1.admission := by
  refine admit_cases (motive := fun admitted => admitted.2.pending[hash]? =
      entryAfter tx hash state.pending[hash]? admitted.1.admission)
    ?duplicate ?dangling ?replaced ?underpriced ?limited ?admitted
  case duplicate => exact fun _ => rfl
  case dangling => exact fun _ _ _ _ => getElem?_insert_eq _ _ _ _
  case replaced =>
    rintro replacedHash incumbent - - - - next rfl
    exact (getElem?_insert_eq _ _ _ _).trans (by rw [getElem?_erase_eq]; rfl)
  case underpriced => exact fun _ _ _ _ _ _ => rfl
  case limited => exact fun _ _ _ => rfl
  case admitted => exact fun _ _ _ => getElem?_insert_eq _ _ _ _

/-- What is pending after an admission was pending before it or is the transaction admitted. -/
theorem eq_or_pending_of_admitTx {state : SchedulerState} {tx held : ValidatedTransaction}
    {config : SchedulerConfig} {hash : TxHash}
    (stored : (state.admitTx tx config).2.pending[hash]? = some held) :
    held = tx ∨ state.pending[hash]? = some held := by
  rw [getElem?_pending_admitTx] at stored
  unfold entryAfter at stored
  split at stored
  · split at stored
    · exact .inl (Option.some.inj stored).symm
    · exact .inr stored
  · split at stored
    · exact .inl (Option.some.inj stored).symm
    · split at stored
      · cases stored
      · exact .inr stored
  all_goals exact .inr stored

/-- An admission that replaces a transaction takes the holder of the slot out of the pending set
and puts the new one in. -/
theorem pending_of_replaced {state : SchedulerState} {tx : ValidatedTransaction}
    {config : SchedulerConfig} {replacedHash : TxHash}
    (replaces : (state.admitTx tx config).1.admission = .replaced replacedHash) :
    state.pending[tx.hash]? = none ∧
      state.slot tx.decoded.sender tx.decoded.nonce = some replacedHash ∧
      (∃ incumbent, state.pending[replacedHash]? = some incumbent) ∧
      (state.admitTx tx config).2.pending = (state.pending.erase replacedHash).insert tx.hash tx := by
  revert replaces
  refine admit_cases (motive := fun admitted => admitted.1.admission = .replaced replacedHash →
    state.pending[tx.hash]? = none ∧
      state.slot tx.decoded.sender tx.decoded.nonce = some replacedHash ∧
      (∃ incumbent, state.pending[replacedHash]? = some incumbent) ∧
      admitted.2.pending = (state.pending.erase replacedHash).insert tx.hash tx)
    ?duplicate ?dangling ?replaced ?underpriced ?limited ?admitted
  case replaced =>
    rintro hash incumbent fresh taken stored - next rfl replaces
    cases replaces
    exact ⟨fresh, taken, ⟨incumbent, stored⟩, rfl⟩
  case duplicate => exact fun _ replaces => nomatch replaces
  case dangling => exact fun _ _ _ _ replaces => nomatch replaces
  case underpriced => exact fun _ _ _ _ _ _ replaces => nomatch replaces
  case limited => exact fun _ _ _ replaces => nomatch replaces
  case admitted => exact fun _ _ _ replaces => nomatch replaces

section Replaced

variable {state : SchedulerState} {tx : ValidatedTransaction} {config : SchedulerConfig}
  {replacedHash : TxHash}
  (replaces : (state.admitTx tx config).1.admission = .replaced replacedHash)

include replaces

theorem replaced_ne_hash : replacedHash ≠ tx.hash := by
  obtain ⟨fresh, -, ⟨incumbent, stored⟩, -⟩ := pending_of_replaced replaces
  rintro rfl
  exact Option.some_ne_none _ (stored.symm.trans fresh)

theorem getElem?_pending_of_replaced (hash : TxHash) :
    (state.admitTx tx config).2.pending[hash]? =
      if tx.hash = hash then some tx
      else if replacedHash = hash then none else state.pending[hash]? := by
  rw [(pending_of_replaced replaces).2.2.2, getElem?_insert_eq, getElem?_erase_eq]

/-- A replacement changes the pending status of two hashes. -/
theorem contains_ne_iff_of_replaced (hash : TxHash) :
    state.pending.contains hash ≠ (state.admitTx tx config).2.pending.contains hash ↔
      hash = replacedHash ∨ hash = tx.hash := by
  obtain ⟨fresh, -, ⟨incumbent, stored⟩, -⟩ := pending_of_replaced replaces
  rw [contains_eq_isSome, contains_eq_isSome, getElem?_pending_of_replaced replaces]
  by_cases new : tx.hash = hash
  · rw [if_pos new, ← new, fresh]
    simp
  · rw [if_neg new]
    by_cases old : replacedHash = hash
    · rw [if_pos old, ← old, stored]
      simp
    · rw [if_neg old]
      simp [Ne.symm new, Ne.symm old]

end Replaced

/-! ## Queue maps and their slots -/

/-- No sender has an empty queue. -/
def NoEmptyQueue (queues : ExtTreeMap Address SenderQueue) : Prop :=
  ∀ (sender : Address) (queue : SenderQueue), queues[sender]? = some queue → queue ≠ ∅

theorem noEmptyQueue_insertQueueEntry {queues : ExtTreeMap Address SenderQueue}
    (full : NoEmptyQueue queues) (sender : Address) (nonce : UInt64) (hash : TxHash) :
    NoEmptyQueue (insertQueueEntry queues sender nonce hash) := by
  intro other queue queued
  rw [getElem?_insertQueueEntry] at queued
  split at queued
  case isTrue =>
    rw [← Option.some.inj queued]
    exact ExtTreeMap.insert_ne_empty
  case isFalse => exact full other queue queued

theorem exists_slotOf_of_ne_empty {queue : SenderQueue} (nonempty : queue ≠ ∅) :
    ∃ (nonce : UInt64) (hash : TxHash), queue[nonce]? = some hash := by
  have listed : queue.toList ≠ [] := fun none => nonempty (ExtTreeMap.toList_eq_nil_iff.mp none)
  obtain ⟨entry, rest, entries⟩ := List.exists_cons_of_ne_nil listed
  exact ⟨entry.1, entry.2, mem_toList.mp (by rw [entries]; exact List.mem_cons_self)⟩

theorem getElem?_eq_none_of_slots {left right : ExtTreeMap Address SenderQueue} {sender : Address}
    (full : ∀ queue, right[sender]? = some queue → queue ≠ ∅)
    (same : ∀ nonce, slotOf left sender nonce = slotOf right sender nonce)
    (missing : left[sender]? = none) : right[sender]? = none := by
  cases queued : right[sender]? with
  | none => rfl
  | some queue =>
      obtain ⟨nonce, hash, entry⟩ := exists_slotOf_of_ne_empty (full queue queued)
      have differs := same nonce
      rw [slotOf, slotOf, missing, queued, Option.bind_some, entry] at differs
      cases differs

/-- A sender's queue is determined by its slots, unless it is there and empty. -/
theorem queue_ext {left right : ExtTreeMap Address SenderQueue} {sender : Address}
    (leftFull : ∀ queue, left[sender]? = some queue → queue ≠ ∅)
    (rightFull : ∀ queue, right[sender]? = some queue → queue ≠ ∅)
    (slots : ∀ nonce, slotOf left sender nonce = slotOf right sender nonce) :
    left[sender]? = right[sender]? := by
  cases queuedLeft : left[sender]? with
  | none => exact (getElem?_eq_none_of_slots rightFull slots queuedLeft).symm
  | some queue =>
      cases queuedRight : right[sender]? with
      | none =>
          rw [getElem?_eq_none_of_slots leftFull (fun nonce => (slots nonce).symm) queuedRight]
            at queuedLeft
          cases queuedLeft
      | some other =>
          congr 1
          apply ExtTreeMap.ext_getElem?
          intro nonce
          have same := slots nonce
          rw [slotOf, slotOf, queuedLeft, queuedRight] at same
          exact same

/-- Queue maps without empty queues are determined by their slots. -/
theorem queues_ext {left right : ExtTreeMap Address SenderQueue} (leftFull : NoEmptyQueue left)
    (rightFull : NoEmptyQueue right)
    (slots : ∀ sender nonce, slotOf left sender nonce = slotOf right sender nonce) :
    left = right := by
  apply ExtTreeMap.ext_getElem?
  intro sender
  exact queue_ext (leftFull sender) (rightFull sender) (slots sender)

end SchedulerState

end Mempulse.Scheduler
