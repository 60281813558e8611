import Mempulse.Scheduler.Frontier
import Mempulse.Scheduler.Snapshot

/-!
# Queue transitions

An admission reports what it changed in its sender's queue as a list of transitions: the
positions after the admission whose state differs from the one their hash had before. Applied to
the states before, less the transaction replaced, the transitions give the states after
(`queueTransitions_exact`), and the states are those of the nonces queued: an entry is ready when
no nonce is missing between the sender's lowest and its own, and blocked on the first missing one
otherwise.

All of this needs less than the representation invariant. A scheduler restored from a snapshot
may hold pending transactions that no queue lists; its slots still name pending transactions
of their own sender and nonce (`Slotted`), and that is enough.
-/

set_option autoImplicit false

namespace Mempulse.Scheduler

open Std Library SchedulerState

/-! ## Reachable schedulers -/

/-- The states of a scheduler that was started, empty or from a persisted snapshot, and has taken
commands since. -/
def Reachable (config : SchedulerConfig) (state : SchedulerState) : Prop :=
  ∃ snapshot replayTransactions start commands,
    schedulerChannelWithRehydration config snapshot replayTransactions = .ok start ∧
      start.run config commands = state

/-- Every slot names a pending transaction of its sender and nonce. -/
structure Slotted (state : SchedulerState) : Prop where
  keyed : ∀ {hash : TxHash} {tx : ValidatedTransaction},
    state.pending[hash]? = some tx → tx.hash = hash
  occupied : ∀ {sender : Address} {nonce : UInt64} {hash : TxHash},
    state.slot sender nonce = some hash →
      ∃ tx, state.pending[hash]? = some tx ∧ tx.decoded.sender = sender ∧ tx.decoded.nonce = nonce

theorem Seating.slotted {state : SchedulerState} (seating : Seating state) : Slotted state :=
  ⟨seating.keyed, seating.occupied⟩

namespace Slotted

/-- Being slotted is about the pending map and the queues only. -/
theorem congr {state other : SchedulerState} (slotted : Slotted state)
    (pending : other.pending = state.pending) (queues : other.senderQueues = state.senderQueues) :
    Slotted other := by
  have slots : other.slot = state.slot := by
    funext sender nonce
    rw [slot, slot, queues]
  refine ⟨?_, ?_⟩
  · rw [pending]
    exact slotted.keyed
  · rw [pending, slots]
    exact slotted.occupied

section

variable {state : SchedulerState} (slotted : Slotted state)

include slotted

/-- A hash sits in one slot at most. -/
theorem slot_unique {sender other : Address} {nonce position : UInt64} {hash : TxHash}
    (named : state.slot sender nonce = some hash) (alsoNamed : state.slot other position = some hash) :
    sender = other ∧ nonce = position := by
  obtain ⟨tx, stored, atSender, atNonce⟩ := slotted.occupied named
  obtain ⟨same, alsoStored, atOther, atPosition⟩ := slotted.occupied alsoNamed
  cases stored.symm.trans alsoStored
  exact ⟨atSender.symm.trans atOther, atNonce.symm.trans atPosition⟩

/-- Seating a transaction keeps the slots, when the pending map it joins has lost nothing but the
transaction that held the slot. -/
theorem seat {tx : ValidatedTransaction} {pending : ExtTreeMap TxHash ValidatedTransaction}
    (fresh : state.pending[tx.hash]? = none)
    (known : ∀ (hash : TxHash) (stored : ValidatedTransaction), pending[hash]? = some stored →
      state.pending[hash]? = some stored)
    (kept : ∀ (hash : TxHash) (stored : ValidatedTransaction), state.pending[hash]? = some stored →
      state.slot tx.decoded.sender tx.decoded.nonce ≠ some hash → pending[hash]? = some stored) :
    Slotted (state.seat pending tx) where
  keyed := by
    intro hash stored found
    rw [pending_seat, getElem?_insert_eq] at found
    split at found
    case isTrue same => rw [← Option.some.inj found, same]
    case isFalse differs => exact slotted.keyed (known hash stored found)
  occupied := by
    intro sender nonce hash named
    rw [slot_seat] at named
    rw [pending_seat]
    split at named
    case isTrue same =>
      cases named
      exact ⟨tx, by rw [getElem?_insert_eq, if_pos rfl], same.1, same.2⟩
    case isFalse elsewhere =>
      obtain ⟨stored, before, sameSender, sameNonce⟩ := slotted.occupied named
      have differs : tx.hash ≠ hash := by
        rintro rfl
        exact Option.some_ne_none _ (before.symm.trans fresh)
      refine ⟨stored, ?_, sameSender, sameNonce⟩
      rw [getElem?_insert_eq, if_neg differs]
      exact kept hash stored before fun taken => elsewhere (slotted.slot_unique taken named)

theorem seat_vacant {tx : ValidatedTransaction} (fresh : state.pending[tx.hash]? = none) :
    Slotted (state.seat state.pending tx) :=
  slotted.seat fresh (fun _ _ stored => stored) fun _ _ stored _ => stored

theorem seat_over {tx : ValidatedTransaction} (fresh : state.pending[tx.hash]? = none)
    {incumbent : TxHash}
    (taken : state.slot tx.decoded.sender tx.decoded.nonce = some incumbent) :
    Slotted (state.seat (state.pending.erase incumbent) tx) := by
  refine slotted.seat fresh (fun hash stored found => ?_) fun hash stored found elsewhere => ?_
  · rw [getElem?_erase_eq] at found
    split at found
    · cases found
    · exact found
  · rw [getElem?_erase_eq, if_neg]
    · exact found
    · rintro rfl
      exact elsewhere taken

theorem admitTx (tx : ValidatedTransaction) (config : SchedulerConfig) :
    Slotted (state.admitTx tx config).2 := by
  refine admit_cases (motive := fun admitted => Slotted admitted.2)
    ?duplicate ?dangling ?replaced ?underpriced ?limited ?admitted
  case duplicate => exact fun _ => slotted.congr rfl rfl
  case dangling => exact fun _ fresh _ _ => slotted.seat_vacant fresh
  case replaced =>
    rintro hash incumbent fresh taken - - next rfl
    exact (slotted.seat_over fresh taken).congr rfl rfl
  case underpriced => exact fun _ _ _ _ _ _ => slotted.congr rfl rfl
  case limited => exact fun _ _ _ => slotted.congr rfl rfl
  case admitted => exact fun fresh _ _ => slotted.seat_vacant fresh

theorem execute (config : SchedulerConfig) (command : SchedulerCommand) :
    Slotted (state.execute config command).2 := by
  by_cases admission : ∃ tx, command = .admitTx tx
  · obtain ⟨tx, rfl⟩ := admission
    exact slotted.admitTx tx config
  · obtain ⟨candidates, head, stale, same⟩ :=
      state.sameAdmission_execute config fun tx is => admission ⟨tx, is⟩
    rw [same]
    exact slotted.congr rfl rfl

end

theorem run {state : SchedulerState} (slotted : Slotted state) (config : SchedulerConfig)
    (commands : List SchedulerCommand) : Slotted (state.run config commands) := by
  induction commands generalizing state with
  | nil => exact slotted
  | cons command rest ih => exact ih (slotted.execute config command)

theorem admitAll {state : SchedulerState} (slotted : Slotted state) (config : SchedulerConfig)
    (txs : List ValidatedTransaction) :
    Slotted (txs.foldl (fun state tx => (state.admitTx tx config).2) state) := by
  induction txs generalizing state with
  | nil => exact slotted
  | cons tx rest ih => exact ih (slotted.admitTx tx config)

theorem started {config : SchedulerConfig} {snapshot : Option PersistedSchedulerSnapshot}
    {replayTransactions : List ValidatedTransaction} {start : SchedulerState}
    (starts : schedulerChannelWithRehydration config snapshot replayTransactions = .ok start) :
    Slotted start := by
  unfold schedulerChannelWithRehydration at starts
  cases valid : config.validate with
  | error refusal => simp [valid, Except.mapError, bind, Except.bind] at starts
  | ok checked =>
      cases snapshot with
      | none =>
          simp only [valid, Except.mapError, bind, Except.bind, pure, Except.pure,
            Except.ok.injEq] at starts
          rw [← starts]
          exact Seating.empty.slotted.admitAll checked replayTransactions
      | some snapshot =>
          cases loads : fromPersistedSnapshot snapshot with
          | error refusal => simp [valid, loads, Except.mapError, bind, Except.bind] at starts
          | ok restored =>
              simp only [valid, loads, Except.mapError, bind, Except.bind, pure, Except.pure,
                Except.ok.injEq] at starts
              have loaded := loaded_of_fromPersistedSnapshot loads
              rw [← starts]
              exact admitAll ⟨loaded.keyed, loaded.occupied⟩ checked replayTransactions

theorem reached {config : SchedulerConfig} {state : SchedulerState}
    (reachable : Reachable config state) : Slotted state := by
  obtain ⟨snapshot, replayTransactions, start, commands, starts, rfl⟩ := reachable
  exact (started starts).run config commands

end Slotted

/-! ## The positions of a sender -/

namespace SchedulerState

/-- A sender's queue, empty when there is none. -/
def senderQueue (state : SchedulerState) (sender : Address) : SenderQueue :=
  (state.senderQueues[sender]?).getD ∅

theorem getElem?_senderQueue (state : SchedulerState) (sender : Address) (nonce : UInt64) :
    (state.senderQueue sender)[nonce]? = state.slot sender nonce := by
  rw [senderQueue, slot, slotOf]
  cases state.senderQueues[sender]? with
  | none => simp
  | some queue => rfl

end SchedulerState

section Positions

variable {state : SchedulerState} (slotted : Slotted state)

include slotted

/-- No entry of a queue is skipped. -/
theorem Slotted.senderQueuePositions_eq (sender : Address) :
    state.senderQueuePositions sender = queuePositions (state.senderQueue sender) := by
  have slots := state.getElem?_senderQueue sender
  unfold senderQueuePositions senderQueue at *
  cases queued : state.senderQueues[sender]? with
  | none =>
      have unlisted : (∅ : SenderQueue).toList = [] := ExtTreeMap.toList_eq_nil_iff.mpr rfl
      simp only [Option.getD_none, queuePositions, unlisted, GapCursor.scan, List.map_nil]
  | some queue =>
      have whole : queue.toList.filter (fun entry => state.pending.contains entry.2) =
          queue.toList := by
        refine List.filter_eq_self.mpr fun entry member => ?_
        rw [queued, Option.getD_some] at slots
        obtain ⟨tx, stored, -, -⟩ :=
          slotted.occupied ((slots entry.1).symm.trans (mem_toList.mp member))
        exact contains_iff_exists.mpr ⟨tx, stored⟩
      simp only [Option.getD_some, walkQueue, whole, queuePositions]

theorem Slotted.map_entry_senderQueuePositions (sender : Address) :
    (state.senderQueuePositions sender).map (fun position => (position.nonce, position.hash)) =
      (state.senderQueue sender).toList := by
  rw [slotted.senderQueuePositions_eq, queuePositions, List.map_map]
  exact GapCursor.map_fst_scan checkedSucc {} _

theorem Slotted.map_hash_senderQueuePositions (sender : Address) :
    (state.senderQueuePositions sender).map (·.hash) =
      (state.senderQueue sender).toList.map Prod.snd := by
  rw [← slotted.map_entry_senderQueuePositions sender, List.map_map]
  rfl

theorem Slotted.mem_hashes_iff {sender : Address} {hash : TxHash} :
    hash ∈ (state.senderQueuePositions sender).map (·.hash) ↔
      ∃ nonce, state.slot sender nonce = some hash := by
  rw [slotted.map_hash_senderQueuePositions, List.mem_map]
  simp only [← state.getElem?_senderQueue]
  constructor
  · rintro ⟨entry, member, rfl⟩
    exact ⟨entry.1, mem_toList.mp member⟩
  · rintro ⟨nonce, stored⟩
    exact ⟨(nonce, hash), mem_toList.mpr stored, rfl⟩

/-- A hash stands at one position at most. -/
theorem Slotted.hashes_nodup (sender : Address) :
    ((state.senderQueuePositions sender).map (·.hash)).Nodup := by
  rw [slotted.map_hash_senderQueuePositions]
  refine (toList_nodup _).map_on ?_
  rintro ⟨nonce, hash⟩ first ⟨other, _⟩ second rfl
  have named := (state.getElem?_senderQueue sender nonce).symm.trans (mem_toList.mp first)
  have alsoNamed := (state.getElem?_senderQueue sender other).symm.trans (mem_toList.mp second)
  rw [(slotted.slot_unique named alsoNamed).2]

end Positions

/-! ## The states of a queue -/

/-- The states of a sender's queue, by hash. -/
def SchedulerState.queueStates (state : SchedulerState) (sender : Address) :
    ExtTreeMap TxHash SchedulerQueueState :=
  ExtTreeMap.ofList ((state.senderQueuePositions sender).map fun position =>
    (position.hash, position.state))

/-- The states without that of the hash an admission replaced. -/
def SchedulerAdmission.withoutReplaced (states : ExtTreeMap TxHash SchedulerQueueState) :
    SchedulerAdmission → ExtTreeMap TxHash SchedulerQueueState
  | .replaced hash => states.erase hash
  | .admitted | .duplicate | .underpricedReplacement | .senderLimitReached => states

/-- What a reader of an admission makes of the states it knew: the hash replaced is deleted and
the transitions are applied in order. -/
def SchedulerAdmissionOutcome.applyTo (outcome : SchedulerAdmissionOutcome)
    (states : ExtTreeMap TxHash SchedulerQueueState) : ExtTreeMap TxHash SchedulerQueueState :=
  outcome.queueTransitions.foldl
    (fun states transition => states.insert transition.hash transition.state)
    (outcome.admission.withoutReplaced states)

theorem map_queueTransitions (next : SchedulerState) (sender : Address)
    (previousPositions : List SenderQueuePosition) :
    (next.queueTransitions sender previousPositions).map (fun transition =>
        (transition.hash, transition.state)) =
      changesOf
        (ExtTreeMap.ofList (previousPositions.map fun position => (position.hash, position.state)))
        ((next.senderQueuePositions sender).map fun position =>
          (position.hash, position.state)) := by
  unfold queueTransitions changesOf
  induction next.senderQueuePositions sender with
  | nil => rfl
  | cons position rest ih =>
      rw [List.filterMap_cons, List.map_cons, List.filter_cons]
      by_cases same : (ExtTreeMap.ofList (previousPositions.map fun position =>
          (position.hash, position.state)) : ExtTreeMap TxHash SchedulerQueueState)[position.hash]? =
            some position.state
      · rw [if_pos same, if_neg (by simpa using same)]
        exact ih
      · rw [if_neg same, if_pos (by simpa using same)]
        exact congrArg (_ :: ·) ih

section Exact

variable {state next : SchedulerState} {tx : ValidatedTransaction}

theorem Slotted.getElem?_queueStates (slotted : Slotted state) {sender : Address} {hash : TxHash}
    {verdict : SchedulerQueueState} : (state.queueStates sender)[hash]? = some verdict ↔
      ∃ position ∈ state.senderQueuePositions sender,
        position.hash = hash ∧ position.state = verdict := by
  have distinct : (((state.senderQueuePositions sender).map fun position =>
      (position.hash, position.state)).map Prod.fst).Nodup := by
    rw [List.map_map]
    exact slotted.hashes_nodup sender
  rw [queueStates, getElem?_ofList_eq_some_iff distinct, List.mem_map]
  simp only [Prod.mk.injEq]

theorem Slotted.exists_slot_of_queueStates (slotted : Slotted state) {sender : Address}
    {hash : TxHash} {verdict : SchedulerQueueState}
    (held : (state.queueStates sender)[hash]? = some verdict) :
    ∃ nonce, state.slot sender nonce = some hash := by
  obtain ⟨position, member, rfl, -⟩ := slotted.getElem?_queueStates.mp held
  exact slotted.mem_hashes_iff.mp (List.mem_map.mpr ⟨position, member, rfl⟩)

/-- The transitions from the positions before to the positions after, applied to what is kept of
the states before, give the states after. -/
theorem foldl_queueTransitions (nextSlotted : Slotted next)
    {kept : ExtTreeMap TxHash SchedulerQueueState}
    (agree : ∀ nonce hash, next.slot tx.decoded.sender nonce = some hash →
      kept[hash]? = (state.queueStates tx.decoded.sender)[hash]?)
    (within : ∀ hash verdict, kept[hash]? = some verdict →
      ∃ nonce, next.slot tx.decoded.sender nonce = some hash) :
    (next.queueTransitions tx.decoded.sender
        (state.senderQueuePositions tx.decoded.sender)).foldl
      (fun states transition => states.insert transition.hash transition.state) kept =
        next.queueStates tx.decoded.sender := by
  have hashes : ((next.senderQueuePositions tx.decoded.sender).map fun position =>
      (position.hash, position.state)).map Prod.fst =
        (next.senderQueuePositions tx.decoded.sender).map (·.hash) := List.map_map
  rw [queueStates, ← insertMany_changesOf (state.queueStates tx.decoded.sender) kept
    (hashes ▸ nextSlotted.hashes_nodup _), queueStates, ← map_queueTransitions,
    ExtTreeMap.insertMany_list_eq_foldl, List.foldl_map]
  · intro hash listed
    rw [hashes] at listed
    obtain ⟨nonce, named⟩ := nextSlotted.mem_hashes_iff.mp listed
    exact agree nonce hash named
  · intro hash verdict held
    rw [hashes]
    exact nextSlotted.mem_hashes_iff.mpr (within hash verdict held)

/-- Seating in a vacant slot. -/
theorem Slotted.applyTo_vacant (slotted : Slotted state) (fresh : state.pending[tx.hash]? = none)
    (vacant : state.slot tx.decoded.sender tx.decoded.nonce = none) :
    (state.seatedOutcome (state.seat state.pending tx) tx .admitted).applyTo
        (state.queueStates tx.decoded.sender) =
      (state.seat state.pending tx).queueStates tx.decoded.sender := by
  refine foldl_queueTransitions (slotted.seat_vacant fresh) (fun _ _ _ => rfl) ?_
  intro hash verdict held
  obtain ⟨nonce, named⟩ := slotted.exists_slot_of_queueStates held
  refine ⟨nonce, ?_⟩
  rw [slot_seat, if_neg]
  · exact named
  · rintro ⟨-, rfl⟩
    exact Option.some_ne_none _ (named.symm.trans vacant)

/-- Seating in the place of the incumbent. -/
theorem Slotted.applyTo_over (slotted : Slotted state) (nextSlotted : Slotted next)
    (fresh : state.pending[tx.hash]? = none) {incumbent : TxHash}
    (taken : state.slot tx.decoded.sender tx.decoded.nonce = some incumbent)
    (slots : ∀ nonce, next.slot tx.decoded.sender nonce =
      if tx.decoded.nonce = nonce then some tx.hash else state.slot tx.decoded.sender nonce) :
    (state.seatedOutcome next tx (.replaced incumbent)).applyTo
        (state.queueStates tx.decoded.sender) =
      next.queueStates tx.decoded.sender := by
  have kept : (SchedulerAdmission.replaced incumbent).withoutReplaced
      (state.queueStates tx.decoded.sender) =
        (state.queueStates tx.decoded.sender).erase incumbent := rfl
  refine foldl_queueTransitions nextSlotted ?_ ?_
  · intro nonce hash named
    rw [seatedOutcome, kept, getElem?_erase_eq, if_neg]
    rintro rfl
    rw [slots] at named
    split at named
    case isTrue =>
      obtain ⟨held, stored, -⟩ := slotted.occupied taken
      rw [← Option.some.inj named, fresh] at stored
      cases stored
    case isFalse elsewhere => exact elsewhere (slotted.slot_unique taken named).2
  · intro hash verdict held
    rw [seatedOutcome, kept, getElem?_erase_eq] at held
    split at held
    case isTrue => cases held
    case isFalse differs =>
      obtain ⟨nonce, named⟩ := slotted.exists_slot_of_queueStates held
      refine ⟨nonce, ?_⟩
      rw [slots, if_neg]
      · exact named
      · rintro rfl
        exact differs (Option.some.inj (taken.symm.trans named))

/-- **The transitions of an admission are complete.** -/
theorem Slotted.applyTo_admitTx (slotted : Slotted state) (tx : ValidatedTransaction)
    (config : SchedulerConfig) :
    (state.admitTx tx config).1.applyTo (state.queueStates tx.decoded.sender) =
      (state.admitTx tx config).2.queueStates tx.decoded.sender := by
  refine admit_cases (motive := fun admitted =>
      admitted.1.applyTo (state.queueStates tx.decoded.sender) =
        admitted.2.queueStates tx.decoded.sender)
    ?duplicate ?dangling ?replaced ?underpriced ?limited ?admitted
  case duplicate => exact fun _ => rfl
  case dangling =>
    intro hash _ named missing
    obtain ⟨tx, stored, -⟩ := slotted.occupied named
    exact absurd (stored.symm.trans missing) (Option.some_ne_none tx)
  case replaced =>
    rintro hash incumbent fresh taken - - next rfl
    refine slotted.applyTo_over ((slotted.seat_over fresh taken).congr rfl rfl) fresh taken ?_
    intro nonce
    rw [slot_seat]
    simp only [true_and]
  case underpriced => exact fun _ _ _ _ _ _ => rfl
  case limited => exact fun _ _ _ => rfl
  case admitted => exact fun fresh vacant _ => slotted.applyTo_vacant fresh vacant

/-- Every transition is a change, of an entry the queue has after the admission. -/
theorem Slotted.changes_of_mem_queueTransitions (slotted : Slotted next) {sender : Address}
    {transition : SchedulerQueueTransition}
    (member : transition ∈ next.queueTransitions sender (state.senderQueuePositions sender)) :
    transition.sender = sender ∧ next.slot sender transition.nonce = some transition.hash ∧
      (state.queueStates sender)[transition.hash]? ≠ some transition.state := by
  obtain ⟨position, listed, reported⟩ := List.mem_filterMap.mp member
  split at reported
  case isTrue => cases reported
  case isFalse changed =>
    cases reported
    refine ⟨rfl, ?_, changed⟩
    have entry : (position.nonce, position.hash) ∈ (next.senderQueue sender).toList := by
      rw [← slotted.map_entry_senderQueuePositions]
      exact List.mem_map.mpr ⟨position, listed, rfl⟩
    rw [← getElem?_senderQueue]
    exact mem_toList.mp entry

/-- No hash is reported twice. -/
theorem Slotted.nodup_queueTransitions (slotted : Slotted next) (sender : Address)
    (previousPositions : List SenderQueuePosition) :
    ((next.queueTransitions sender previousPositions).map (·.hash)).Nodup := by
  have hashes : (next.queueTransitions sender previousPositions).map (·.hash) =
      ((next.queueTransitions sender previousPositions).map fun transition =>
        (transition.hash, transition.state)).map Prod.fst := by
    rw [List.map_map]
    rfl
  have positions : ((next.senderQueuePositions sender).map fun position =>
      (position.hash, position.state)).map Prod.fst =
        (next.senderQueuePositions sender).map (·.hash) := List.map_map
  rw [hashes, map_queueTransitions]
  exact (positions ▸ slotted.hashes_nodup sender).sublist (List.filter_sublist.map Prod.fst)

/-- The transitions of an admission are none, or those from the positions before it to the
positions after it. -/
theorem queueTransitions_admitTx (state : SchedulerState) (tx : ValidatedTransaction)
    (config : SchedulerConfig) :
    (state.admitTx tx config).1.queueTransitions = [] ∨
      (state.admitTx tx config).1.queueTransitions =
        (state.admitTx tx config).2.queueTransitions tx.decoded.sender
          (state.senderQueuePositions tx.decoded.sender) := by
  refine admit_cases (motive := fun admitted => admitted.1.queueTransitions = [] ∨
      admitted.1.queueTransitions = admitted.2.queueTransitions tx.decoded.sender
        (state.senderQueuePositions tx.decoded.sender))
    ?duplicate ?dangling ?replaced ?underpriced ?limited ?admitted
  case duplicate => exact fun _ => .inl rfl
  case dangling => exact fun _ _ _ _ => .inr rfl
  case replaced => exact fun _ _ _ _ _ _ _ _ => .inr rfl
  case underpriced => exact fun _ _ _ _ _ _ => .inl rfl
  case limited => exact fun _ _ _ => .inl rfl
  case admitted => exact fun _ _ _ => .inr rfl

theorem senderQueue_admitTx_of_ne (state : SchedulerState) {tx : ValidatedTransaction}
    (config : SchedulerConfig) {other : Address} (apart : other ≠ tx.decoded.sender) :
    (state.admitTx tx config).2.senderQueue other = state.senderQueue other := by
  have seated : ∀ (start : SchedulerState) pending, start.senderQueues = state.senderQueues →
      (start.seat pending tx).senderQueue other = state.senderQueue other := by
    intro start pending same
    rw [senderQueue, senderQueues_seat, getElem?_insertQueueEntry, if_neg (Ne.symm apart), same]
    rfl
  refine admit_cases (motive := fun admitted =>
      admitted.2.senderQueue other = state.senderQueue other)
    ?duplicate ?dangling ?replaced ?underpriced ?limited ?admitted
  case duplicate => exact fun _ => rfl
  case dangling => exact fun _ _ _ _ => seated state _ rfl
  case replaced =>
    rintro _ _ - - - - next rfl
    exact seated _ _ rfl
  case underpriced => exact fun _ _ _ _ _ _ => rfl
  case limited => exact fun _ _ _ => rfl
  case admitted => exact fun _ _ _ => seated state _ rfl

end Exact

/-! ## Ready and blocked nonces -/

/-- Every nonce of a range is queued. -/
def Unbroken (queue : SenderQueue) (low high : UInt64) : Prop :=
  ∀ nonce, low ≤ nonce → nonce ≤ high → queue.contains nonce = true

/-- The lowest nonce of a queue. -/
def IsLowest (queue : SenderQueue) (low : UInt64) : Prop :=
  queue.contains low = true ∧ ∀ nonce, queue.contains nonce = true → low ≤ nonce

/-- The first nonce that is missing above the lowest. -/
def IsFirstMissing (queue : SenderQueue) (low gap : UInt64) : Prop :=
  low < gap ∧ queue.contains gap = false ∧
    ∀ nonce, low ≤ nonce → nonce < gap → queue.contains nonce = true

/-- The positions of a queue: one for every entry, in nonce order, ready on the unbroken run from
the lowest nonce and blocked on the first missing nonce beyond it. -/
structure Classifies (queue : SenderQueue) (positions : List SenderQueuePosition) : Prop where
  listed : positions.map (fun position => (position.nonce, position.hash)) = queue.toList
  ready : ∀ {low}, IsLowest queue low → ∀ position ∈ positions,
    (position.state = .ready ↔ Unbroken queue low position.nonce)
  blocked : ∀ {low}, IsLowest queue low → ∀ position ∈ positions, position.state ≠ .ready →
    ∃ gap, position.state = .blocked gap ∧ IsFirstMissing queue low gap

theorem contains_iff_exists_mem_toList {queue : SenderQueue} {nonce : UInt64} :
    queue.contains nonce = true ↔ ∃ entry ∈ queue.toList, entry.1 = nonce := by
  rw [contains_iff_exists]
  constructor
  · rintro ⟨hash, stored⟩
    exact ⟨(nonce, hash), mem_toList.mpr stored, rfl⟩
  · rintro ⟨entry, member, rfl⟩
    exact ⟨entry.2, mem_toList.mp member⟩

/-- The ranks of a queue are the numbers of its nonces. -/
theorem contains_iff_exists_rank {queue : SenderQueue} {nonce : UInt64} :
    queue.contains nonce = true ↔ ∃ entry ∈ queue.toList, entry.1.toNat = nonce.toNat := by
  simp only [contains_iff_exists_mem_toList, UInt64.toNat_inj]

theorem filled_iff_unbroken {queue : SenderQueue} {low high : UInt64} :
    Filled UInt64.toNat queue.toList low.toNat high.toNat ↔ Unbroken queue low high := by
  constructor
  · intro filled nonce above below
    exact contains_iff_exists_rank.mpr
      (filled nonce.toNat (UInt64.le_iff_toNat_le.mp above) (UInt64.le_iff_toNat_le.mp below))
  · intro unbroken number above below
    have fits : number < UInt64.size := Nat.lt_of_le_of_lt below high.toNat_lt_size
    have ranked : (UInt64.ofNatLT number fits).toNat = number := UInt64.toNat_ofNatLT
    rw [← ranked]
    exact contains_iff_exists_rank.mp (unbroken _
      (UInt64.le_iff_toNat_le.mpr (by rwa [ranked])) (UInt64.le_iff_toNat_le.mpr (by rwa [ranked])))

/-- The head of a queue is its lowest nonce. -/
theorem IsLowest.eq_head {queue : SenderQueue} {low : UInt64} (lowest : IsLowest queue low)
    {first : UInt64 × TxHash} {rest : List (UInt64 × TxHash)}
    (entries : queue.toList = first :: rest) : first.1 = low := by
  have ascending := ascending_toList queue
  rw [entries] at ascending
  obtain ⟨entry, member, same⟩ := contains_iff_exists_mem_toList.mp lowest.1
  have least : low ≤ first.1 := lowest.2 first.1
    (contains_iff_exists_mem_toList.mpr ⟨first, by rw [entries]; exact List.mem_cons_self, rfl⟩)
  rw [entries] at member
  rcases List.mem_cons.mp member with rfl | later
  · exact same
  · have above : first.1.toNat < entry.1.toNat := (List.pairwise_cons.mp ascending).1 entry later
    have below := UInt64.le_iff_toNat_le.mp least
    rw [same] at above
    omega

theorem isLowest_head {queue : SenderQueue} {first : UInt64 × TxHash}
    {rest : List (UInt64 × TxHash)} (entries : queue.toList = first :: rest) :
    IsLowest queue first.1 := by
  have ascending := ascending_toList queue
  rw [entries] at ascending
  constructor
  · exact contains_iff_exists_mem_toList.mpr
      ⟨first, by rw [entries]; exact List.mem_cons_self, rfl⟩
  · intro nonce held
    obtain ⟨entry, member, rfl⟩ := contains_iff_exists_mem_toList.mp held
    rw [entries] at member
    rcases List.mem_cons.mp member with rfl | later
    · exact UInt64.le_refl _
    · exact UInt64.le_iff_toNat_le.mpr ((List.pairwise_cons.mp ascending).1 entry later).le

theorem IsFirstMissing.not_unbroken {queue : SenderQueue} {low gap nonce : UInt64}
    (missing : IsFirstMissing queue low gap) (beyond : gap ≤ nonce) :
    ¬ Unbroken queue low nonce := by
  intro unbroken
  have held := unbroken gap (UInt64.le_of_lt missing.1) beyond
  exact Bool.false_ne_true (missing.2.1.symm.trans held)

/-- What the scan says of an entry, in terms of the nonces queued. -/
theorem verdict_of_mem_queuePositions {queue : SenderQueue} {low : UInt64}
    (lowest : IsLowest queue low) {position : SenderQueuePosition}
    (member : position ∈ queuePositions queue) :
    position.state = .ready ∧ Unbroken queue low position.nonce ∨
      ∃ gap, position.state = .blocked gap ∧ IsFirstMissing queue low gap ∧
        gap ≤ position.nonce := by
  obtain ⟨visited, scanned, rfl⟩ := List.mem_map.mp member
  obtain ⟨entry, inQueue, -⟩ := contains_iff_exists_mem_toList.mp lowest.1
  obtain ⟨first, rest, entries⟩ := List.exists_cons_of_ne_nil (List.ne_nil_of_mem inQueue)
  have accurate : visited.2.Accurate UInt64.toNat queue.toList low.toNat visited.1.1 := by
    rw [← lowest.eq_head entries, entries]
    rw [entries] at scanned
    exact GapCursor.scan_accurate nonceNumbering (entries ▸ ascending_toList queue) visited scanned
  cases verdict : visited.2 with
  | ready =>
      rw [verdict] at accurate
      exact .inl ⟨rfl, filled_iff_unbroken.mp accurate⟩
  | blocked gap =>
      rw [verdict] at accurate
      obtain ⟨above, below, absent, filled⟩ := accurate
      refine .inr ⟨gap, rfl, ⟨UInt64.lt_iff_toNat_lt.mpr above, ?_, ?_⟩,
        UInt64.le_iff_toNat_le.mpr below.le⟩
      · rw [Bool.eq_false_iff]
        intro held
        obtain ⟨other, listed, same⟩ := contains_iff_exists_mem_toList.mp held
        exact absent other listed same
      · intro nonce low below
        have under := UInt64.lt_iff_toNat_lt.mp below
        exact contains_iff_exists_rank.mpr
          (filled nonce.toNat (UInt64.le_iff_toNat_le.mp low) (by omega))

/-- **The positions of a queue classify it.** -/
theorem Slotted.classifies {state : SchedulerState} (slotted : Slotted state) (sender : Address) :
    Classifies (state.senderQueue sender) (state.senderQueuePositions sender) := by
  refine ⟨slotted.map_entry_senderQueuePositions sender, ?_, ?_⟩
  · intro low lowest position member
    rw [slotted.senderQueuePositions_eq] at member
    rcases verdict_of_mem_queuePositions lowest member with
      ⟨ready, unbroken⟩ | ⟨gap, blocked, missing, beyond⟩
    · exact iff_of_true ready unbroken
    · refine iff_of_false ?_ (missing.not_unbroken beyond)
      rw [blocked]
      exact nofun
  · intro low lowest position member unready
    rw [slotted.senderQueuePositions_eq] at member
    rcases verdict_of_mem_queuePositions lowest member with
      ⟨ready, -⟩ | ⟨gap, blocked, missing, -⟩
    · exact absurd ready unready
    · exact ⟨gap, blocked, missing⟩

/-! ## The theorem -/

/-- **Queue transitions are exact.** In every reachable scheduler, deleting the hash an admission
replaced and applying the transitions it returned turns the states of the sender's queue before
it into those after it; no transition repeats a state that was there; no other sender's queue
changes; and every queue stands classified by its nonces. -/
theorem queueTransitions_exact {config : SchedulerConfig} {state : SchedulerState}
    (reachable : Reachable config state) (tx : ValidatedTransaction) :
    let admitted := state.admitTx tx config
    let sender := tx.decoded.sender
    admitted.1.applyTo (state.queueStates sender) = admitted.2.queueStates sender ∧
      (admitted.1.queueTransitions.map (·.hash)).Nodup ∧
      (∀ transition ∈ admitted.1.queueTransitions, transition.sender = sender ∧
        admitted.2.slot sender transition.nonce = some transition.hash ∧
        (state.queueStates sender)[transition.hash]? ≠ some transition.state) ∧
      (∀ other, other ≠ sender →
        admitted.2.senderQueuePositions other = state.senderQueuePositions other) ∧
      ∀ owner, Classifies (admitted.2.senderQueue owner) (admitted.2.senderQueuePositions owner) := by
  intro admitted sender
  have slotted := Slotted.reached reachable
  have after : Slotted admitted.2 := slotted.admitTx tx config
  refine ⟨slotted.applyTo_admitTx tx config, ?_, ?_, ?_, after.classifies⟩
  · rcases queueTransitions_admitTx state tx config with none | diff
    · simp only [admitted, none, List.map_nil, List.nodup_nil]
    · simp only [admitted, diff]
      exact after.nodup_queueTransitions sender _
  · intro transition member
    rcases queueTransitions_admitTx state tx config with none | diff
    · simp only [admitted, none, List.not_mem_nil] at member
    · simp only [admitted, diff] at member
      exact after.changes_of_mem_queueTransitions member
  · intro other apart
    rw [after.senderQueuePositions_eq, slotted.senderQueuePositions_eq,
      senderQueue_admitTx_of_ne state config apart]

/-- A sender's queue with a gap at nonce 8. -/
def gappedQueue : SchedulerState :=
  SchedulerState.run {} {}
    [.admitTx (sampleValidatedTx 10 1 7 100), .admitTx (sampleValidatedTx 11 1 9 100)]

/-- Filling the gap makes the transaction beyond it ready. -/
theorem queueTransitions_exact_gapFilled :
    let admitted := gappedQueue.admitTx (sampleValidatedTx 12 1 8 100) {}
    admitted.1.queueTransitions = [⟨12, 1, 8, .ready⟩, ⟨11, 1, 9, .ready⟩] ∧
      (gappedQueue.queueStates 1)[(11 : TxHash)]? = some (.blocked 8) ∧
      admitted.1.applyTo (gappedQueue.queueStates 1) = admitted.2.queueStates 1 := by
  refine ⟨by decide +kernel, by decide +kernel, ?_⟩
  have reachable : Reachable {} gappedQueue := ⟨none, [], {}, _, rfl, rfl⟩
  exact (queueTransitions_exact reachable (sampleValidatedTx 12 1 8 100)).1

end Mempulse.Scheduler
