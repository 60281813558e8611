import Mempulse.Scheduler.Admission

/-!
# The representation invariant

The scheduler keeps one set of transactions in two shapes: the pending map, keyed by hash, and
the sender queues, keyed by sender and nonce. `Seating` says that the shapes agree, and `Tally`
that the counts kept beside them are those of a classification from scratch. Both hold of the
empty state, every command preserves them, and so they hold after every run
(`run_representationInvariant`).
-/

set_option autoImplicit false

namespace Mempulse.Scheduler

open Std Library

/-! ## Seating -/

/-- The pending map and the sender queues hold the same transactions: every pending transaction
sits in the slot of its sender and nonce, and every slot names such a transaction. -/
structure Seating (state : SchedulerState) : Prop where
  keyed : ∀ {hash : TxHash} {tx : ValidatedTransaction},
    state.pending[hash]? = some tx → tx.hash = hash
  seated : ∀ {hash : TxHash} {tx : ValidatedTransaction}, state.pending[hash]? = some tx →
    state.slot tx.decoded.sender tx.decoded.nonce = some hash
  occupied : ∀ {sender : Address} {nonce : UInt64} {hash : TxHash},
    state.slot sender nonce = some hash →
      ∃ tx, state.pending[hash]? = some tx ∧ tx.decoded.sender = sender ∧ tx.decoded.nonce = nonce
  nonempty : ∀ {sender : Address} {queue : SenderQueue},
    state.senderQueues[sender]? = some queue → queue ≠ ∅

/-- At most one pending transaction has a given sender and nonce. -/
def OnePerSlot (state : SchedulerState) : Prop :=
  ∀ ⦃first second : TxHash⦄ ⦃tx other : ValidatedTransaction⦄,
    state.pending[first]? = some tx → state.pending[second]? = some other →
      tx.decoded.sender = other.decoded.sender → tx.decoded.nonce = other.decoded.nonce →
        first = second

/-- No slot names a transaction that is not pending. -/
def NoDanglingSlot (state : SchedulerState) : Prop :=
  ∀ ⦃sender : Address⦄ ⦃nonce : UInt64⦄ ⦃hash : TxHash⦄,
    state.slot sender nonce = some hash → state.pending[hash]? ≠ none

namespace Seating

theorem empty : Seating {} where
  keyed := by simp
  seated := by simp
  occupied := by simp [SchedulerState.slot, SchedulerState.slotOf]
  nonempty := by simp

/-- Seating is about the pending map and the queues only. -/
theorem congr {state other : SchedulerState} (seating : Seating state)
    (pending : other.pending = state.pending) (queues : other.senderQueues = state.senderQueues) :
    Seating other := by
  have slots : other.slot = state.slot := by
    funext sender nonce
    rw [SchedulerState.slot, SchedulerState.slot, queues]
  refine ⟨?_, ?_, ?_, ?_⟩
  · rw [pending]; exact seating.keyed
  · rw [pending, slots]; exact seating.seated
  · rw [pending, slots]; exact seating.occupied
  · rw [queues]; exact seating.nonempty

section

variable {state : SchedulerState} (seating : Seating state)
include seating

theorem onePerSlot : OnePerSlot state := by
  intro first second tx other stored alsoStored sameSender sameNonce
  have one := seating.seated stored
  rw [sameSender, sameNonce, seating.seated alsoStored] at one
  exact (Option.some.inj one).symm

/-- The guard of `admit` against a slot without a pending transaction never fires. -/
theorem noDanglingSlot : NoDanglingSlot state := by
  intro sender nonce hash named
  obtain ⟨tx, stored, -, -⟩ := seating.occupied named
  simp [stored]

/-- Every entry of a queue is pending. -/
theorem contains_of_queued {sender : Address} {queue : SenderQueue}
    (queued : state.senderQueues[sender]? = some queue) {nonce : UInt64} {hash : TxHash}
    (entry : queue[nonce]? = some hash) : state.pending.contains hash = true := by
  obtain ⟨tx, stored, -, -⟩ :=
    seating.occupied (SchedulerState.slot_eq_some_iff.mpr ⟨queue, queued, entry⟩)
  exact contains_iff_exists.mpr ⟨tx, stored⟩

/-- Seating a transaction keeps the seating, when the pending map it joins has lost exactly the
transaction that held the slot. -/
theorem seat {tx : ValidatedTransaction} {pending : ExtTreeMap TxHash ValidatedTransaction}
    (fresh : state.pending[tx.hash]? = none)
    (evicted : ∀ (hash : TxHash) (stored : ValidatedTransaction), pending[hash]? = some stored ↔
      state.pending[hash]? = some stored ∧
        state.slot tx.decoded.sender tx.decoded.nonce ≠ some hash) :
    Seating (state.seat pending tx) where
  keyed := by
    intro hash stored found
    rw [SchedulerState.pending_seat, getElem?_insert_eq] at found
    split at found
    case isTrue same =>
      rw [← Option.some.inj found, same]
    case isFalse differs => exact seating.keyed ((evicted hash stored).mp found).1
  seated := by
    intro hash stored found
    rw [SchedulerState.pending_seat, getElem?_insert_eq] at found
    rw [SchedulerState.slot_seat]
    split at found
    case isTrue same =>
      rw [← Option.some.inj found, if_pos ⟨rfl, rfl⟩, same]
    case isFalse differs =>
      obtain ⟨before, elsewhere⟩ := (evicted hash stored).mp found
      have sits := seating.seated before
      rw [if_neg]
      · exact sits
      · rintro ⟨sameSender, sameNonce⟩
        rw [← sameSender, ← sameNonce] at sits
        exact elsewhere sits
  occupied := by
    intro sender nonce hash named
    rw [SchedulerState.slot_seat] at named
    rw [SchedulerState.pending_seat]
    split at named
    case isTrue same =>
      refine ⟨tx, ?_, same.1, same.2⟩
      rw [← Option.some.inj named, getElem?_insert_eq, if_pos rfl]
    case isFalse elsewhere =>
      obtain ⟨stored, before, sameSender, sameNonce⟩ := seating.occupied named
      refine ⟨stored, ?_, sameSender, sameNonce⟩
      have differs : tx.hash ≠ hash := by
        rintro rfl
        rw [fresh] at before
        cases before
      rw [getElem?_insert_eq, if_neg differs, evicted]
      refine ⟨before, fun taken => elsewhere ?_⟩
      obtain ⟨other, found, atSender, atNonce⟩ := seating.occupied taken
      rw [before] at found
      cases found
      exact ⟨atSender.symm.trans sameSender, atNonce.symm.trans sameNonce⟩
  nonempty := by
    intro sender queue queued
    rw [SchedulerState.senderQueues_seat, SchedulerState.getElem?_insertQueueEntry] at queued
    split at queued
    case isTrue same =>
      rw [← Option.some.inj queued]
      exact ExtTreeMap.insert_ne_empty
    case isFalse differs => exact seating.nonempty queued

/-- Seating in a vacant slot. -/
theorem seat_vacant {tx : ValidatedTransaction} (fresh : state.pending[tx.hash]? = none)
    (vacant : state.slot tx.decoded.sender tx.decoded.nonce = none) :
    Seating (state.seat state.pending tx) :=
  seating.seat fresh fun hash stored => by simp [vacant]

/-- Seating in the place of the incumbent. -/
theorem seat_over {tx : ValidatedTransaction} (fresh : state.pending[tx.hash]? = none)
    {incumbent : TxHash}
    (taken : state.slot tx.decoded.sender tx.decoded.nonce = some incumbent) :
    Seating (state.seat (state.pending.erase incumbent) tx) :=
  seating.seat fresh fun hash stored => by
    rw [getElem?_erase_eq, taken]
    by_cases same : incumbent = hash <;> simp [same]

end

end Seating

/-! ## Classifying a seated queue -/

/-- The positions of a queue all of whose entries are pending. -/
def queuePositions (queue : SenderQueue) : List SenderQueuePosition :=
  (GapCursor.scan checkedSucc {} queue.toList).map fun visited =>
    { hash := visited.1.2, nonce := visited.1.1, state := visited.2 }

/-- Adds one position to a sender's counts. -/
def SenderQueueCounts.add (counts : SenderQueueCounts) (position : SenderQueuePosition) :
    SenderQueueCounts :=
  match position.state with
  | .ready => { counts with ready := saturatingAdd usizeMax counts.ready 1 }
  | .blocked _ => { counts with blocked := saturatingAdd usizeMax counts.blocked 1 }

/-- The counts of a queue all of whose entries are pending. -/
def queueCounts (queue : SenderQueue) : SenderQueueCounts :=
  (queuePositions queue).foldl SenderQueueCounts.add {}

theorem Seating.walkQueue_eq {state : SchedulerState} (seating : Seating state)
    {sender : Address} {queue : SenderQueue} (queued : state.senderQueues[sender]? = some queue) :
    state.walkQueue queue = queuePositions queue := by
  have whole : queue.toList.filter (fun entry => state.pending.contains entry.2) = queue.toList :=
    List.filter_eq_self.mpr fun entry member =>
      seating.contains_of_queued queued (mem_toList.mp member)
  rw [SchedulerState.walkQueue, whole, queuePositions]

theorem Seating.classify_eq {state : SchedulerState} (seating : Seating state)
    {sender : Address} {queue : SenderQueue} (queued : state.senderQueues[sender]? = some queue) :
    state.classifySenderQueueCounts queue = queueCounts queue := by
  rw [SchedulerState.classifySenderQueueCounts, seating.walkQueue_eq queued]
  rfl

theorem Seating.map_classify_eq {state : SchedulerState} (seating : Seating state)
    (sender : Address) :
    (state.senderQueues[sender]?).map state.classifySenderQueueCounts =
      (state.senderQueues[sender]?).map queueCounts := by
  cases queued : state.senderQueues[sender]? with
  | none => rfl
  | some queue => rw [Option.map_some, Option.map_some, seating.classify_eq queued]

theorem SenderQueueCounts.foldl_add_le (positions : List SenderQueuePosition)
    (counts : SenderQueueCounts) :
    (positions.foldl add counts).ready + (positions.foldl add counts).blocked ≤
      counts.ready + counts.blocked + positions.length := by
  induction positions generalizing counts with
  | nil => exact le_rfl
  | cons position rest ih =>
      have step : (counts.add position).ready + (counts.add position).blocked ≤
          counts.ready + counts.blocked + 1 := by
        cases state : position.state <;>
          simp only [add, state, saturatingAdd] <;> omega
      have onward := ih (counts.add position)
      rw [List.foldl_cons, List.length_cons]
      omega

theorem queueCounts_le_size (queue : SenderQueue) :
    (queueCounts queue).ready + (queueCounts queue).blocked ≤ queue.size := by
  have bound := SenderQueueCounts.foldl_add_le (queuePositions queue) {}
  rw [queuePositions, List.length_map, GapCursor.length_scan, ExtTreeMap.length_toList] at bound
  simpa [queueCounts, queuePositions] using bound

theorem SenderQueueCounts.ready_le_foldl_add (positions : List SenderQueuePosition)
    (counts : SenderQueueCounts) (fits : counts.ready ≤ usizeMax) :
    counts.ready ≤ (positions.foldl add counts).ready := by
  induction positions generalizing counts with
  | nil => exact le_rfl
  | cons position rest ih =>
      have step : counts.ready ≤ (counts.add position).ready ∧
          (counts.add position).ready ≤ usizeMax := by
        cases state : position.state <;>
          simp only [add, state, saturatingAdd] <;> omega
      exact step.1.trans (ih _ step.2)

/-- The first entry of a queue is ready. -/
theorem queueCounts_ready_pos {queue : SenderQueue} (nonempty : queue ≠ ∅) :
    0 < (queueCounts queue).ready := by
  have listed : queue.toList ≠ [] := fun none => nonempty (ExtTreeMap.toList_eq_nil_iff.mp none)
  obtain ⟨entry, rest, entries⟩ := List.exists_cons_of_ne_nil listed
  have grows := SenderQueueCounts.ready_le_foldl_add
    ((GapCursor.scan checkedSucc ⟨checkedSucc entry.1, false⟩ rest).map fun visited =>
      { hash := visited.1.2, nonce := visited.1.1, state := visited.2 })
    { ready := 1 } (by decide)
  rw [queueCounts, queuePositions, entries]
  exact grows

/-! ## The tallies -/

namespace SchedulerState

/-- One of the two totals, recounted from scratch over every queue. -/
def recount (part : SenderQueueCounts → Nat) (state : SchedulerState) : Nat :=
  weightOf (fun _ queue => part (state.classifySenderQueueCounts queue)) state.senderQueues

end SchedulerState

/-- The counts beside the queues are those of a classification from scratch. The two totals
are `usize` sums over the pending transactions, so they are exact as long as the number of
pending transactions is itself a `usize`. -/
structure Tally (state : SchedulerState) : Prop where
  counted : ∀ sender : Address, state.senderQueueCounts[sender]? =
    (state.senderQueues[sender]?).map state.classifySenderQueueCounts
  ready : state.pending.size ≤ usizeMax → state.readyTotal = state.recount (·.ready)
  blocked : state.pending.size ≤ usizeMax → state.blockedTotal = state.recount (·.blocked)

/-- No more entries are queued than transactions are pending. -/
theorem Seating.weightOf_size_le {state : SchedulerState} (seating : Seating state) :
    weightOf (fun _ queue => queue.size) state.senderQueues ≤ state.pending.size := by
  have length : (state.senderQueues.toList.flatMap fun entry => entry.2.toList.map Prod.snd).length =
      weightOf (fun _ queue => queue.size) state.senderQueues := by
    simp [List.length_flatMap, weightOf, ExtTreeMap.length_toList]
  rw [← length]
  have entryPending : ∀ entry ∈ state.senderQueues.toList, ∀ (nonce : UInt64) (hash : TxHash),
      entry.2[nonce]? = some hash → ∃ tx, state.pending[hash]? = some tx ∧
        tx.decoded.sender = entry.1 ∧ tx.decoded.nonce = nonce := by
    intro entry member nonce hash queued
    exact seating.occupied
      (SchedulerState.slot_eq_some_iff.mpr ⟨entry.2, mem_toList.mp member, queued⟩)
  refine length_le_size (List.nodup_flatMap.mpr ⟨?_, ?_⟩) ?_
  · intro entry member
    refine (toList_nodup entry.2).map_on ?_
    rintro ⟨nonce, hash⟩ first ⟨other, otherHash⟩ second rfl
    obtain ⟨tx, stored, -, atNonce⟩ := entryPending entry member nonce hash (mem_toList.mp first)
    obtain ⟨tx', stored', -, atOther⟩ := entryPending entry member other hash (mem_toList.mp second)
    rw [stored] at stored'
    cases stored'
    rw [← atNonce, ← atOther]
  · refine (toList_pairwise_ne state.senderQueues).imp_of_mem ?_
    intro first second inFirst inSecond distinct
    rw [Function.onFun, List.disjoint_left]
    intro hash fromFirst fromSecond
    obtain ⟨⟨nonce, _⟩, queued, rfl⟩ := List.mem_map.mp fromFirst
    obtain ⟨⟨other, _⟩, alsoQueued, same⟩ := List.mem_map.mp fromSecond
    obtain ⟨tx, stored, atSender, -⟩ := entryPending first inFirst nonce _ (mem_toList.mp queued)
    obtain ⟨tx', stored', atOther, -⟩ :=
      entryPending second inSecond other _ (mem_toList.mp alsoQueued)
    dsimp only at same stored stored'
    rw [same, stored] at stored'
    cases stored'
    exact distinct (atSender.symm.trans atOther)
  · intro hash member
    obtain ⟨entry, inQueues, inEntry⟩ := List.mem_flatMap.mp member
    obtain ⟨⟨nonce, _⟩, queued, rfl⟩ := List.mem_map.mp inEntry
    obtain ⟨tx, stored, -⟩ := entryPending entry inQueues nonce _ (mem_toList.mp queued)
    exact ⟨tx, stored⟩

theorem Seating.recount_eq {state : SchedulerState} (seating : Seating state)
    (part : SenderQueueCounts → Nat) :
    state.recount part = weightOf (fun _ queue => part (queueCounts queue)) state.senderQueues := by
  refine congrArg List.sum (List.map_congr_left fun entry member => ?_)
  exact congrArg part (seating.classify_eq (mem_toList.mp member))

theorem Seating.recount_le {state : SchedulerState} (seating : Seating state)
    {part : SenderQueueCounts → Nat}
    (isPart : ∀ counts, part counts ≤ counts.ready + counts.blocked) :
    state.recount part ≤ state.pending.size := by
  rw [seating.recount_eq]
  refine (weightOf_le_of_present _ fun sender queue queued => ⟨queue, queued, ?_⟩).trans
    seating.weightOf_size_le
  exact (isPart _).trans (queueCounts_le_size queue)

/-- The totals are those of the counts kept for each sender. -/
theorem weightOf_counts_eq_recount {state : SchedulerState}
    (counted : ∀ sender : Address, state.senderQueueCounts[sender]? =
      (state.senderQueues[sender]?).map state.classifySenderQueueCounts)
    (part : SenderQueueCounts → Nat) :
    weightOf (fun _ counts => part counts) state.senderQueueCounts = state.recount part := by
  have mapped : state.senderQueueCounts =
      state.senderQueues.map fun _ queue => state.classifySenderQueueCounts queue := by
    apply ExtTreeMap.ext_getElem?
    intro sender
    rw [counted, ExtTreeMap.getElem?_map]
  rw [mapped, weightOf_map, SchedulerState.recount]

/-! ## Refreshing one sender -/

section Refresh

variable (state : SchedulerState) (sender : Address)

/-- The counts a refresh gives its sender. -/
def SchedulerState.classifiedCounts : SenderQueueCounts :=
  ((state.senderQueues[sender]?).map state.classifySenderQueueCounts).getD {}

theorem getElem?_senderQueueCounts_refresh (other : Address) :
    (state.refreshSenderCounts sender).senderQueueCounts[other]? =
      if sender = other then
        if state.classifiedCounts sender = {} then none else some (state.classifiedCounts sender)
      else state.senderQueueCounts[other]? := by
  have nonzero : ((state.classifiedCounts sender).ready ≠ 0 ∨
      (state.classifiedCounts sender).blocked ≠ 0) ↔ ¬ state.classifiedCounts sender = {} := by
    rw [SenderQueueCounts.mk.injEq, not_and_or]
  change (if (state.classifiedCounts sender).ready ≠ 0 ∨
      (state.classifiedCounts sender).blocked ≠ 0 then
      (state.senderQueueCounts.erase sender).insert sender (state.classifiedCounts sender)
    else state.senderQueueCounts.erase sender)[other]? = _
  by_cases empty : state.classifiedCounts sender = {}
  · rw [if_neg fun counts => nonzero.mp counts empty, if_pos empty, getElem?_erase_eq]
  · rw [if_pos (nonzero.mpr empty), if_neg empty, getElem?_insert_eq, getElem?_erase_eq]
    by_cases same : sender = other <;> simp [same]

/-- Exchanging a sender's part of a total keeps the total the sum over the counts. -/
theorem total_refresh (part : SenderQueueCounts → Nat) (zero : part {} = 0)
    (fits : weightOf (fun _ counts => part counts)
      (state.refreshSenderCounts sender).senderQueueCounts ≤ usizeMax) :
    saturatingAdd usizeMax
        (weightOf (fun _ counts => part counts) state.senderQueueCounts -
          part ((state.senderQueueCounts[sender]?).getD {}))
        (part (state.classifiedCounts sender)) =
      weightOf (fun _ counts => part counts)
        (state.refreshSenderCounts sender).senderQueueCounts := by
  have before : part ((state.senderQueueCounts[sender]?).getD {}) =
      optionWeight part state.senderQueueCounts[sender]? := by
    cases state.senderQueueCounts[sender]? with
    | none => exact zero
    | some counts => rfl
  have after : part (state.classifiedCounts sender) =
      optionWeight part (state.refreshSenderCounts sender).senderQueueCounts[sender]? := by
    rw [getElem?_senderQueueCounts_refresh, if_pos rfl]
    split
    case isTrue empty => rw [empty, zero]; rfl
    case isFalse => rfl
  have exchanged : weightOf (fun _ counts => part counts)
        (state.refreshSenderCounts sender).senderQueueCounts +
          optionWeight part state.senderQueueCounts[sender]? =
      weightOf (fun _ counts => part counts) state.senderQueueCounts +
        optionWeight part (state.refreshSenderCounts sender).senderQueueCounts[sender]? :=
    weightOf_exchange _ fun other differs => by
      rw [getElem?_senderQueueCounts_refresh, if_neg differs.symm]
  have enough : optionWeight part state.senderQueueCounts[sender]? ≤
      weightOf (fun _ counts => part counts) state.senderQueueCounts :=
    optionWeight_le_weightOf (fun _ counts => part counts) state.senderQueueCounts sender
  rw [before, after, saturatingAdd_of_le] <;> omega

end Refresh

/-- A queue that is not empty is counted. -/
theorem Seating.classifiedCounts_ne {state : SchedulerState} (seating : Seating state)
    {sender : Address} {queue : SenderQueue} (queued : state.senderQueues[sender]? = some queue) :
    state.classifiedCounts sender ≠ {} := by
  rw [SchedulerState.classifiedCounts, queued, Option.map_some, Option.getD_some,
    seating.classify_eq queued]
  intro empty
  have positive := queueCounts_ready_pos (seating.nonempty queued)
  rw [empty] at positive
  exact Nat.lt_irrefl 0 positive

/-- A refresh counts its sender. -/
theorem Seating.counted_refresh {state : SchedulerState} (seating : Seating state)
    (sender : Address) :
    (state.refreshSenderCounts sender).senderQueueCounts[sender]? =
      (state.senderQueues[sender]?).map state.classifySenderQueueCounts := by
  rw [getElem?_senderQueueCounts_refresh, if_pos rfl]
  cases queued : state.senderQueues[sender]? with
  | none => simp [SchedulerState.classifiedCounts, queued]
  | some queue =>
      rw [if_neg (seating.classifiedCounts_ne queued), SchedulerState.classifiedCounts, queued]
      rfl

namespace Tally

theorem empty : Tally {} where
  counted := by simp
  ready := by simp [SchedulerState.recount]
  blocked := by simp [SchedulerState.recount]

/-- The tallies are about the queues, the pending map and the counts only. -/
theorem congr {state other : SchedulerState} (tally : Tally state)
    (pending : other.pending = state.pending) (queues : other.senderQueues = state.senderQueues)
    (counts : other.senderQueueCounts = state.senderQueueCounts)
    (ready : other.readyTotal = state.readyTotal)
    (blocked : other.blockedTotal = state.blockedTotal) : Tally other := by
  have classify : other.classifySenderQueueCounts = state.classifySenderQueueCounts := by
    funext queue
    rw [SchedulerState.classifySenderQueueCounts, SchedulerState.classifySenderQueueCounts,
      SchedulerState.walkQueue, SchedulerState.walkQueue, pending]
  have recounts : ∀ part : SenderQueueCounts → Nat, other.recount part = state.recount part := by
    intro part
    rw [SchedulerState.recount, SchedulerState.recount, classify, queues]
  refine ⟨?_, ?_, ?_⟩
  · rw [counts, queues, classify]; exact tally.counted
  · rw [pending, ready, recounts]; exact tally.ready
  · rw [pending, blocked, recounts]; exact tally.blocked

/-- Seating a transaction keeps the tallies. -/
theorem seat {state : SchedulerState} {tx : ValidatedTransaction}
    {pending : ExtTreeMap TxHash ValidatedTransaction} (seating : Seating state)
    (tally : Tally state) (reseated : Seating (state.seat pending tx))
    (grows : state.pending.size ≤ (state.seat pending tx).pending.size) :
    Tally (state.seat pending tx) := by
  have counted : ∀ sender : Address, (state.seat pending tx).senderQueueCounts[sender]? =
      ((state.seat pending tx).senderQueues[sender]?).map
        (state.seat pending tx).classifySenderQueueCounts := by
    intro sender
    by_cases same : tx.decoded.sender = sender
    · subst same
      have placed : Seating (state.place pending tx) := reseated.congr rfl rfl
      exact placed.counted_refresh tx.decoded.sender
    · have kept : (state.seat pending tx).senderQueues[sender]? = state.senderQueues[sender]? := by
        rw [SchedulerState.senderQueues_seat, SchedulerState.getElem?_insertQueueEntry, if_neg same]
      rw [reseated.map_classify_eq, kept, ← seating.map_classify_eq, ← tally.counted,
        SchedulerState.seat, getElem?_senderQueueCounts_refresh, if_neg same]
      rfl
  have total : ∀ part : SenderQueueCounts → Nat, part {} = 0 →
      (∀ counts, part counts ≤ counts.ready + counts.blocked) →
      (state.seat pending tx).pending.size ≤ usizeMax →
      saturatingAdd usizeMax
          (state.recount part - part ((state.senderQueueCounts[tx.decoded.sender]?).getD {}))
          (part ((state.seat pending tx).classifiedCounts tx.decoded.sender)) =
        (state.seat pending tx).recount part := by
    intro part zero isPart fits
    have bounded := (reseated.recount_le isPart).trans fits
    rw [← weightOf_counts_eq_recount counted] at bounded ⊢
    rw [← weightOf_counts_eq_recount tally.counted]
    exact total_refresh _ tx.decoded.sender part zero bounded
  refine ⟨counted, fun fits => ?_, fun fits => ?_⟩
  · rw [← total (·.ready) rfl (fun _ => Nat.le_add_right _ _) fits,
      ← tally.ready (grows.trans fits)]
    rfl
  · rw [← total (·.blocked) rfl (fun _ => Nat.le_add_left _ _) fits,
      ← tally.blocked (grows.trans fits)]
    rfl

end Tally

/-! ## The invariant -/

/-- No sender queues more transactions than the configured limit. -/
def WithinLimit (config : SchedulerConfig) (state : SchedulerState) : Prop :=
  ∀ (sender : Address) (queue : SenderQueue), state.senderQueues[sender]? = some queue →
    queue.size ≤ config.maxPendingPerSender

/-- While the admission counter has not saturated, each admission has either added a pending
transaction or replaced one. -/
def Conserved (state : SchedulerState) : Prop :=
  state.admittedTotal < u64Max → state.pending.size + state.replacementTotal = state.admittedTotal

/-- The representation invariant of the scheduler. -/
structure RepresentationInvariant (config : SchedulerConfig) (state : SchedulerState) : Prop where
  seating : Seating state
  tally : Tally state
  withinLimit : WithinLimit config state
  conserved : Conserved state

namespace RepresentationInvariant

variable {config : SchedulerConfig} {state : SchedulerState}

theorem empty (config : SchedulerConfig) : RepresentationInvariant config {} where
  seating := .empty
  tally := .empty
  withinLimit := by simp [WithinLimit]
  conserved := by simp [Conserved]

/-- A command that leaves the queues, the pending map and the counters alone keeps the
invariant. -/
theorem congr {other : SchedulerState} (invariant : RepresentationInvariant config state)
    (pending : other.pending = state.pending) (queues : other.senderQueues = state.senderQueues)
    (counts : other.senderQueueCounts = state.senderQueueCounts)
    (ready : other.readyTotal = state.readyTotal)
    (blocked : other.blockedTotal = state.blockedTotal)
    (admitted : other.admittedTotal = state.admittedTotal)
    (replaced : other.replacementTotal = state.replacementTotal) :
    RepresentationInvariant config other where
  seating := invariant.seating.congr pending queues
  tally := invariant.tally.congr pending queues counts ready blocked
  withinLimit := by
    rw [WithinLimit, queues]
    exact invariant.withinLimit
  conserved := by
    rw [Conserved, pending, admitted, replaced]
    exact invariant.conserved

/-- The queue a transaction joins. -/
theorem queue_seat {pending : ExtTreeMap TxHash ValidatedTransaction} {tx : ValidatedTransaction}
    {sender : Address} {queue : SenderQueue}
    (queued : (state.seat pending tx).senderQueues[sender]? = some queue) :
    state.senderQueues[sender]? = some queue ∨ tx.decoded.sender = sender ∧
      queue = ((state.senderQueues[sender]?).getD (∅ : SenderQueue)).insert
        tx.decoded.nonce tx.hash := by
  rw [SchedulerState.senderQueues_seat, SchedulerState.getElem?_insertQueueEntry] at queued
  split at queued
  case isTrue same =>
    subst same
    exact Or.inr ⟨rfl, (Option.some.inj queued).symm⟩
  case isFalse => exact Or.inl queued

/-- A queue grows by one entry, and by none when the slot was taken. -/
theorem size_insert_slot (state : SchedulerState) (sender : Address) (nonce : UInt64) (hash : TxHash) :
    (((state.senderQueues[sender]?).getD (∅ : SenderQueue)).insert nonce hash).size =
      if (state.slot sender nonce).isSome then state.senderQueueLen sender
      else state.senderQueueLen sender + 1 := by
  cases queued : state.senderQueues[sender]? with
  | none =>
      simp [SchedulerState.slot, SchedulerState.slotOf, SchedulerState.senderQueueLen, queued,
        ExtTreeMap.size_insert]
  | some queue =>
      simp only [SchedulerState.slot, SchedulerState.slotOf, SchedulerState.senderQueueLen, queued,
        Option.getD_some, Option.bind_some, Option.map_some, ExtTreeMap.size_insert,
        contains_eq_isSome]

/-- Seating in a vacant slot below the limit keeps the invariant. -/
theorem seat_vacant (invariant : RepresentationInvariant config state) {tx : ValidatedTransaction}
    (fresh : state.pending[tx.hash]? = none)
    (vacant : state.slot tx.decoded.sender tx.decoded.nonce = none)
    (room : state.senderQueueLen tx.decoded.sender < config.maxPendingPerSender) :
    RepresentationInvariant config (state.seat state.pending tx) := by
  have seating := invariant.seating.seat_vacant fresh vacant
  have size : (state.seat state.pending tx).pending.size = state.pending.size + 1 := by
    rw [SchedulerState.pending_seat, ExtTreeMap.size_insert, contains_eq_isSome, fresh]
    rfl
  refine ⟨seating, invariant.tally.seat invariant.seating seating (by omega), ?_, ?_⟩
  · intro sender queue queued
    rcases queue_seat queued with before | ⟨rfl, rfl⟩
    · exact invariant.withinLimit sender queue before
    · rw [size_insert_slot, vacant]
      exact room
  · intro unsaturated
    rw [SchedulerState.admittedTotal_seat] at unsaturated ⊢
    have counts := saturatingAdd_lt_bound unsaturated
    have before := invariant.conserved (by omega)
    rw [size, SchedulerState.replacementTotal_seat, counts]
    omega

/-- Seating in the place of an incumbent keeps the invariant. -/
theorem seat_over (invariant : RepresentationInvariant config state) {tx : ValidatedTransaction}
    (fresh : state.pending[tx.hash]? = none) {hash : TxHash} {incumbent : ValidatedTransaction}
    (taken : state.slot tx.decoded.sender tx.decoded.nonce = some hash)
    (stored : state.pending[hash]? = some incumbent) :
    RepresentationInvariant config
      (SchedulerState.seat
        { state with replacementTotal := saturatingAdd u64Max state.replacementTotal 1 }
        (state.pending.erase hash) tx) := by
  have seating : Seating (SchedulerState.seat
      { state with replacementTotal := saturatingAdd u64Max state.replacementTotal 1 }
      (state.pending.erase hash) tx) :=
    (invariant.seating.seat_over fresh taken).congr rfl rfl
  have positive := size_pos_of_getElem? stored
  have size : ((state.pending.erase hash).insert tx.hash tx).size = state.pending.size := by
    have held : state.pending.contains hash = true := contains_iff_exists.mpr ⟨incumbent, stored⟩
    have gone : ¬ (state.pending.erase hash).contains tx.hash = true := by
      rw [contains_eq_isSome, getElem?_erase_eq, fresh, ite_self]
      exact Bool.false_ne_true
    have erased : (state.pending.erase hash).size = state.pending.size - 1 := by
      rw [ExtTreeMap.size_erase]
      exact if_pos held
    rw [ExtTreeMap.size_insert]
    refine (if_neg gone).trans ?_
    omega
  have counted : Seating { state with
      replacementTotal := saturatingAdd u64Max state.replacementTotal 1 } :=
    invariant.seating.congr rfl rfl
  have tally := Tally.seat counted (invariant.tally.congr rfl rfl rfl rfl rfl) seating
    (Nat.le_of_eq size.symm)
  refine ⟨seating, tally, ?_, ?_⟩
  · intro sender queue queued
    rcases queue_seat queued with before | ⟨rfl, rfl⟩
    · exact invariant.withinLimit sender queue before
    · obtain ⟨queue, queued, entry⟩ := SchedulerState.slot_eq_some_iff.mp taken
      have within := invariant.withinLimit _ queue queued
      refine Nat.le_trans (Nat.le_of_eq (size_insert_slot state _ _ _)) ?_
      rw [taken, SchedulerState.senderQueueLen, queued]
      exact within
  · intro (unsaturated : saturatingAdd u64Max state.admittedTotal 1 < u64Max)
    have counts := saturatingAdd_lt_bound unsaturated
    have before := invariant.conserved (by omega)
    change ((state.pending.erase hash).insert tx.hash tx).size +
      saturatingAdd u64Max state.replacementTotal 1 = saturatingAdd u64Max state.admittedTotal 1
    rw [size, counts, saturatingAdd_of_le (by omega)]
    omega

theorem admitTx (invariant : RepresentationInvariant config state) (tx : ValidatedTransaction) :
    RepresentationInvariant config (state.admitTx tx config).2 := by
  refine SchedulerState.admit_cases (motive := fun outcome =>
    RepresentationInvariant config outcome.2) ?duplicate ?dangling ?replaced ?underpriced ?limited
    ?admitted
  case duplicate =>
    intro _
    exact invariant.congr rfl rfl rfl rfl rfl rfl rfl
  case dangling =>
    intro hash _ named missing
    exact absurd missing (invariant.seating.noDanglingSlot named)
  case replaced =>
    rintro hash incumbent fresh taken stored - next rfl
    exact invariant.seat_over fresh taken stored
  case underpriced =>
    intro _ _ _ _ _ _
    exact invariant.congr rfl rfl rfl rfl rfl rfl rfl
  case limited =>
    intro _ _ _
    exact invariant.congr rfl rfl rfl rfl rfl rfl rfl
  case admitted =>
    intro fresh vacant room
    exact invariant.seat_vacant fresh vacant room

end RepresentationInvariant

/-! ## Commands that leave admission alone -/

/-- What a candidate command leaves alone: everything but the candidates, the head and the
count of stale results. -/
def SchedulerState.SameAdmission (state other : SchedulerState) : Prop :=
  ∃ candidates head stale, other =
    { state with
      candidates := candidates, headBlockNumber := head, staleSimulationDropTotal := stale }

theorem SchedulerState.sameAdmission_registerCandidates (state : SchedulerState)
    (candidates : List SchedulerCandidate) :
    state.SameAdmission (state.registerCandidates candidates).2 := by
  induction candidates generalizing state with
  | nil => exact ⟨_, _, _, rfl⟩
  | cons candidate rest ih =>
      obtain ⟨registered, head, stale, later⟩ := ih (state.registerCandidate candidate).2
      exact ⟨registered, head, stale, later⟩

theorem SchedulerState.sameAdmission_applySimulationResult (state : SchedulerState)
    (result : SchedulerSimulationResult) :
    state.SameAdmission (state.applySimulationResult result).2 := by
  unfold applySimulationResult
  split
  · exact ⟨_, _, _, rfl⟩
  · dsimp only
    split
    · exact ⟨_, _, _, rfl⟩
    · exact ⟨_, _, _, rfl⟩

/-- Every command but an admission leaves the pending map, the queues and their counts alone. -/
theorem SchedulerState.sameAdmission_execute (config : SchedulerConfig) (state : SchedulerState)
    {command : SchedulerCommand} (other : ∀ tx, command ≠ .admitTx tx) :
    state.SameAdmission (state.execute config command).2 := by
  cases command with
  | admitTx tx => exact absurd rfl (other tx)
  | registerCandidates candidates => exact state.sameAdmission_registerCandidates candidates
  | applySimulationResult result => exact state.sameAdmission_applySimulationResult result
  | invalidateCandidateHash hash => exact ⟨_, _, _, rfl⟩
  | advanceHead blockNumber => exact ⟨_, _, _, rfl⟩

/-! ## Runs -/

/-- **What one command preserves.** -/
theorem RepresentationInvariant.execute {config : SchedulerConfig} {state : SchedulerState}
    (invariant : RepresentationInvariant config state) (command : SchedulerCommand) :
    RepresentationInvariant config (state.execute config command).2 := by
  by_cases admission : ∃ tx, command = .admitTx tx
  · obtain ⟨tx, rfl⟩ := admission
    exact invariant.admitTx tx
  · obtain ⟨candidates, head, stale, same⟩ :=
      state.sameAdmission_execute config fun tx is => admission ⟨tx, is⟩
    rw [same]
    exact invariant.congr rfl rfl rfl rfl rfl rfl rfl

theorem RepresentationInvariant.run {config : SchedulerConfig} {state : SchedulerState}
    (invariant : RepresentationInvariant config state) (commands : List SchedulerCommand) :
    RepresentationInvariant config (state.run config commands) := by
  induction commands generalizing state with
  | nil => exact invariant
  | cons command rest ih => exact ih (invariant.execute command)

theorem RepresentationInvariant.reached (config : SchedulerConfig)
    (commands : List SchedulerCommand) :
    RepresentationInvariant config (SchedulerState.run config {} commands) :=
  (RepresentationInvariant.empty config).run commands

/-- **The representation invariant holds after every run from the empty state.** No two pending
transactions share a slot, and no slot names a transaction that is not pending. -/
theorem run_representationInvariant (config : SchedulerConfig) (commands : List SchedulerCommand) :
    RepresentationInvariant config (SchedulerState.run config {} commands) ∧
      OnePerSlot (SchedulerState.run config {} commands) ∧
      NoDanglingSlot (SchedulerState.run config {} commands) :=
  have invariant := RepresentationInvariant.reached config commands
  ⟨invariant, invariant.seating.onePerSlot, invariant.seating.noDanglingSlot⟩

end Mempulse.Scheduler
