import Mempulse.Library.Bidding
import Mempulse.Scheduler.ReplacementFees
import Mempulse.Scheduler.Snapshot

/-!
# Admitting transactions again

The scheduler is a house with a slot for each sender and nonce, and a decoded transaction is a bid
for its slot. As long as the replacement threshold does not saturate, a bid beats a holder exactly
when it pays the fee bump on it. A scheduler that has no slot occupied that a target state has free
is fair to the transactions that have a slot in the target: the sender limit refuses none of them.
-/

set_option autoImplicit false

namespace Mempulse.Scheduler

open Std EventLog Library

/-! ## The occupant after an admission -/

section Occupant

open SchedulerState

variable {state : SchedulerState} {config : SchedulerConfig} {tx : ValidatedTransaction}

/-- The seating survives every admission. -/
theorem Seating.admitTx (seating : Seating state) (tx : ValidatedTransaction) :
    Seating (state.admitTx tx config).2 := by
  refine admit_cases (motive := fun admitted => Seating admitted.2) ?duplicate ?dangling ?replaced
    ?underpriced ?limited ?admitted
  case duplicate => exact fun _ => seating.congr rfl rfl
  case dangling => exact fun _ _ named missing => absurd missing (seating.noDanglingSlot named)
  case replaced =>
    rintro hash incumbent fresh taken - - next rfl
    exact (seating.seat_over fresh taken).congr rfl rfl
  case underpriced => exact fun _ _ _ _ _ _ => seating.congr rfl rfl
  case limited => exact fun _ _ _ => seating.congr rfl rfl
  case admitted => exact fun fresh vacant _ => seating.seat_vacant fresh vacant

/-- The occupant of a slot after a decision about a transaction. -/
def occupantAfter (tx : ValidatedTransaction) (sender : Address) (nonce : UInt64)
    (before : Option ValidatedTransaction) : SchedulerAdmission → Option ValidatedTransaction
  | .admitted | .replaced _ =>
    if tx.decoded.sender = sender ∧ tx.decoded.nonce = nonce then some tx else before
  | .duplicate | .underpricedReplacement | .senderLimitReached => before

theorem occupant_seat {start : SchedulerState} {pending : ExtTreeMap TxHash ValidatedTransaction}
    {sender : Address} {nonce : UInt64} (slots : start.slot = state.slot)
    (fresh : state.pending[tx.hash]? = none)
    (others : ¬ (tx.decoded.sender = sender ∧ tx.decoded.nonce = nonce) →
      ∀ hash, state.slot sender nonce = some hash → pending[hash]? = state.pending[hash]?)
    (seating : Seating state) :
    (start.seat pending tx).occupant sender nonce =
      if tx.decoded.sender = sender ∧ tx.decoded.nonce = nonce then some tx
      else state.occupant sender nonce := by
  rw [occupant, slot_seat, pending_seat]
  by_cases here : tx.decoded.sender = sender ∧ tx.decoded.nonce = nonce
  · rw [if_pos here, if_pos here, Option.bind_some, getElem?_insert_eq, if_pos rfl]
  · rw [if_neg here, if_neg here, slots, occupant]
    cases named : state.slot sender nonce with
    | none => rfl
    | some hash =>
        have distinct : tx.hash ≠ hash := by
          rintro rfl
          exact seating.noDanglingSlot named fresh
        rw [Option.bind_some, Option.bind_some, getElem?_insert_eq, if_neg distinct,
          others here hash named]

/-- **The occupant of a slot after an admission** is determined by the one before and the decision. -/
theorem Seating.occupant_admitTx_eq (seating : Seating state) (sender : Address) (nonce : UInt64) :
    (state.admitTx tx config).2.occupant sender nonce =
      occupantAfter tx sender nonce (state.occupant sender nonce)
        (state.admitTx tx config).1.admission := by
  refine admit_cases (motive := fun admitted => admitted.2.occupant sender nonce =
      occupantAfter tx sender nonce (state.occupant sender nonce) admitted.1.admission)
    ?duplicate ?dangling ?replaced ?underpriced ?limited ?admitted
  case duplicate => exact fun _ => rfl
  case dangling => exact fun _ _ named missing => absurd missing (seating.noDanglingSlot named)
  case replaced =>
    rintro replacedHash incumbent fresh taken stored - next rfl
    refine occupant_seat rfl fresh (fun apart hash named => ?_) seating
    rw [getElem?_erase_eq, if_neg]
    rintro rfl
    obtain ⟨_, found, sameSender, sameNonce⟩ := seating.occupied taken
    obtain ⟨_, again, atSender, atNonce⟩ := seating.occupied named
    cases found.symm.trans again
    exact apart ⟨sameSender.symm.trans atSender, sameNonce.symm.trans atNonce⟩
  case underpriced => exact fun _ _ _ _ _ _ => rfl
  case limited => exact fun _ _ _ => rfl
  case admitted => exact fun fresh _ _ => occupant_seat rfl fresh (fun _ _ _ => rfl) seating

/-- A pending transaction occupies its slot. -/
theorem Seating.occupant_of_pending (seating : Seating state) {hash : TxHash}
    (stored : state.pending[hash]? = some tx) :
    state.occupant tx.decoded.sender tx.decoded.nonce = some tx :=
  occupant_eq_some_iff.mpr ⟨hash, seating.seated stored, stored⟩

theorem Seating.occupant_position (seating : Seating state) {sender : Address} {nonce : UInt64}
    (occupied : state.occupant sender nonce = some tx) :
    state.pending[tx.hash]? = some tx ∧ tx.decoded.sender = sender ∧ tx.decoded.nonce = nonce := by
  obtain ⟨hash, named, stored⟩ := occupant_eq_some_iff.mp occupied
  obtain ⟨found, same, atSender, atNonce⟩ := seating.occupied named
  cases stored.symm.trans same
  exact ⟨by rw [seating.keyed stored]; exact stored, atSender, atNonce⟩

theorem Seating.map_hash_occupant (seating : Seating state) (sender : Address) (nonce : UInt64) :
    (state.occupant sender nonce).map ValidatedTransaction.hash = state.slot sender nonce := by
  cases named : state.slot sender nonce with
  | none => rw [occupant, named]; rfl
  | some hash =>
      obtain ⟨held, stored, -, -⟩ := seating.occupied named
      rw [occupant_eq_some_iff.mpr ⟨hash, named, stored⟩, Option.map_some, seating.keyed stored]

/-- A transaction that is admitted without replacing another finds its slot free. -/
theorem Seating.vacant_of_admitted (seating : Seating state)
    (admitted : (state.admitTx tx config).1.admission = .admitted) :
    state.occupant tx.decoded.sender tx.decoded.nonce = none := by
  revert admitted
  refine admit_cases (motive := fun outcome => outcome.1.admission = .admitted →
    state.occupant tx.decoded.sender tx.decoded.nonce = none) ?duplicate ?dangling ?replaced
    ?underpriced ?limited ?admitted
  case duplicate => exact fun _ admitted => nomatch admitted
  case dangling => exact fun _ _ named missing => absurd missing (seating.noDanglingSlot named)
  case replaced => exact fun _ _ _ _ _ _ _ _ admitted => nomatch admitted
  case underpriced => exact fun _ _ _ _ _ _ admitted => nomatch admitted
  case limited => exact fun _ _ _ admitted => nomatch admitted
  case admitted =>
    intro _ vacant _ _
    rw [occupant, vacant]
    rfl

end Occupant

/-! ## The scheduler as a house -/

/-- The slot of a decoded transaction. -/
def slotOfDecoded (decoded : TxDecoded) : Address × UInt64 := (decoded.sender, decoded.nonce)

/-- The fee a decoded transaction offers for its slot. -/
def offeredFee (decoded : TxDecoded) : Nat :=
  replacementFee decoded.txType decoded.gasPriceWei decoded.maxFeePerGasWei

/-- The fee bump on an earlier transaction is paid, in exact arithmetic. -/
def Outbids (feeBumpBps : UInt16) (later earlier : TxDecoded) : Prop :=
  offeredFee earlier * (10000 + feeBumpBps.toNat) ≤ offeredFee later * 10000

/-- The product of a fee and the bump fits a `u128`. -/
def ThresholdFits (feeBumpBps : UInt16) (decoded : TxDecoded) : Prop :=
  offeredFee decoded * (10000 + feeBumpBps.toNat) ≤ u128Max

theorem Outbids.trans {feeBumpBps : UInt16} {first second third : TxDecoded}
    (lower : Outbids feeBumpBps second first) (upper : Outbids feeBumpBps third second) :
    Outbids feeBumpBps third first := by
  have rises : offeredFee first ≤ offeredFee second := by
    refine Nat.le_of_mul_le_mul_right ?_ (Nat.zero_lt_succ 9999)
    exact (Nat.mul_le_mul_left _ (Nat.le_add_right _ _)).trans lower
  exact (Nat.mul_le_mul_right _ rises).trans upper

theorem ThresholdFits.outbids {feeBumpBps : UInt16} {incumbent tx : ValidatedTransaction}
    (fits : ThresholdFits feeBumpBps incumbent.decoded)
    (reaches : replacementThresholdFee incumbent feeBumpBps ≤ tx.replacementFee) :
    Outbids feeBumpBps tx.decoded incumbent.decoded :=
  paysBump_of_reaches reaches fun gap =>
    Nat.not_le_of_lt (Nat.lt_of_le_of_lt gap.1 gap.2) fits

/-- The fee reaches the threshold of an earlier transaction, saturated or not. -/
def Reaches (feeBumpBps : UInt16) (later earlier : TxDecoded) : Prop :=
  min (offeredFee earlier * (10000 + feeBumpBps.toNat)) u128Max ≤ offeredFee later * 10000

theorem Outbids.reaches {feeBumpBps : UInt16} {later earlier : TxDecoded}
    (pays : Outbids feeBumpBps later earlier) : Reaches feeBumpBps later earlier :=
  (Nat.min_le_left _ _).trans pays

theorem reaches_iff {feeBumpBps : UInt16} {incumbent tx : ValidatedTransaction} :
    Reaches feeBumpBps tx.decoded incumbent.decoded ↔
      replacementThresholdFee incumbent feeBumpBps ≤ tx.replacementFee :=
  replacementThresholdFee_le_iff.symm

/-- The scheduler, with the decoded transaction that holds each slot. -/
def schedulerHouse (config : SchedulerConfig) :
    House SchedulerState ValidatedTransaction (Address × UInt64) TxDecoded where
  bidOf := ValidatedTransaction.decoded
  slotOf := slotOfDecoded
  holds := fun state slot => (state.occupant slot.1 slot.2).map ValidatedTransaction.decoded
  offer := fun state tx => (state.admitTx tx config).2

/-- A book of decoded transactions in which a hash determines its transaction. -/
def KeyedByHash (book : List TxDecoded) : Prop :=
  ∀ first ∈ book, ∀ second ∈ book, first.hash = second.hash → first = second

/-- A state on its way to a target: its transactions are from the book, and it has no slot occupied
that the target has free. -/
structure Toward (book : List TxDecoded) (target state : SchedulerState) : Prop where
  seating : Seating state
  known : ∀ (hash : TxHash) (tx : ValidatedTransaction), state.pending[hash]? = some tx →
    tx.decoded ∈ book
  within : ∀ (sender : Address) (nonce : UInt64), (state.slot sender nonce).isSome →
    (target.slot sender nonce).isSome

/-- A transaction of the book with a slot in the target. -/
def Wanted (book : List TxDecoded) (target : SchedulerState) (tx : ValidatedTransaction) : Prop :=
  tx.decoded ∈ book ∧ (target.slot tx.decoded.sender tx.decoded.nonce).isSome

section Toward

variable {book : List TxDecoded} {config : SchedulerConfig} {target state : SchedulerState}
  {tx : ValidatedTransaction}

theorem Toward.admitTx (toward : Toward book target state) (wanted : Wanted book target tx) :
    Toward book target (state.admitTx tx config).2 where
  seating := toward.seating.admitTx tx
  known := by
    intro hash held stored
    rcases SchedulerState.eq_or_pending_of_admitTx stored with rfl | before
    · exact wanted.1
    · exact toward.known hash held before
  within := by
    intro sender nonce named
    rw [← (toward.seating.admitTx tx).map_hash_occupant, Option.isSome_map,
      toward.seating.occupant_admitTx_eq] at named
    have before : (state.occupant sender nonce).isSome → (target.slot sender nonce).isSome := by
      rw [← Option.isSome_map (f := ValidatedTransaction.hash), toward.seating.map_hash_occupant]
      exact toward.within sender nonce
    unfold occupantAfter at named
    split at named
    case h_1 | h_2 =>
      split at named
      case isTrue here => rw [← here.1, ← here.2]; exact wanted.2
      case isFalse => exact before named
    case h_3 | h_4 | h_5 => exact before named

/-- The sender limit leaves room for a wanted transaction whose slot is free. -/
theorem Toward.room (toward : Toward book target state) (limited : WithinLimit config target)
    (wanted : Wanted book target tx)
    (vacant : state.slot tx.decoded.sender tx.decoded.nonce = none) :
    state.senderQueueLen tx.decoded.sender < config.maxPendingPerSender := by
  obtain ⟨hash, named⟩ := Option.isSome_iff_exists.mp wanted.2
  obtain ⟨queue, queued, -⟩ := SchedulerState.slot_eq_some_iff.mp named
  have bound := limited _ _ queued
  suffices smaller : state.senderQueueLen tx.decoded.sender + 1 ≤ queue.size by omega
  have inTarget : ∀ nonce, (state.slot tx.decoded.sender nonce).isSome →
      ∃ hash : TxHash, queue[nonce]? = some hash := by
    intro nonce here
    obtain ⟨other, there⟩ := Option.isSome_iff_exists.mp (toward.within _ nonce here)
    obtain ⟨same, found, entry⟩ := SchedulerState.slot_eq_some_iff.mp there
    cases queued.symm.trans found
    exact ⟨other, entry⟩
  have own : ∃ hash : TxHash, queue[tx.decoded.nonce]? = some hash := by
    obtain ⟨same, found, entry⟩ := SchedulerState.slot_eq_some_iff.mp named
    cases queued.symm.trans found
    exact ⟨hash, entry⟩
  cases waiting : state.senderQueues[tx.decoded.sender]? with
  | none =>
      obtain ⟨_, entry⟩ := own
      rw [SchedulerState.senderQueueLen, waiting]
      exact size_pos_of_getElem? entry
  | some mine =>
      have entries : ∀ nonce ∈ mine.keys, (state.slot tx.decoded.sender nonce).isSome := by
        intro nonce member
        obtain ⟨hash, entry⟩ := mem_keys_iff_exists.mp member
        rw [SchedulerState.slot_eq_some_iff.mpr ⟨mine, waiting, entry⟩]
        rfl
      have apart : tx.decoded.nonce ∉ mine.keys := by
        intro member
        have there := entries _ member
        rw [vacant] at there
        cases there
      have counted : (tx.decoded.nonce :: mine.keys).length ≤ queue.size := length_le_size
        (List.nodup_cons.mpr ⟨apart, keys_nodup mine⟩) (by
          intro nonce member
          rcases List.mem_cons.mp member with rfl | further
          · exact own
          · exact inTarget nonce (entries nonce further))
      rw [List.length_cons, ExtTreeMap.length_keys] at counted
      rw [SchedulerState.senderQueueLen, waiting]
      exact counted

/-- **A scheduler on its way to a target is fair**, also where the threshold saturates. -/
theorem schedulerHouse_fair_reaches (determined : KeyedByHash book)
    (limited : WithinLimit config target) :
    Fair (schedulerHouse config) (Reaches config.replacementFeeBumpBps) (Toward book target)
      (Wanted book target) where
  keeps := Toward.admitTx
  elsewhere := by
    rintro state tx ⟨sender, nonce⟩ toward apart
    change ((state.admitTx tx config).2.occupant sender nonce).map _ = _
    have other : ¬ (tx.decoded.sender = sender ∧ tx.decoded.nonce = nonce) :=
      fun ⟨sameSender, sameNonce⟩ => apart (Prod.ext sameSender sameNonce)
    rw [toward.seating.occupant_admitTx_eq]
    unfold occupantAfter
    split
    case h_1 | h_2 => rw [if_neg other]; rfl
    case h_3 | h_4 | h_5 => rfl
  own := by
    intro state tx toward
    change ((state.admitTx tx config).2.occupant tx.decoded.sender tx.decoded.nonce).map _ = _ ∨
      ((state.admitTx tx config).2.occupant tx.decoded.sender tx.decoded.nonce).map _ = _
    rw [toward.seating.occupant_admitTx_eq]
    unfold occupantAfter
    split
    case h_1 | h_2 => exact .inr (by rw [if_pos ⟨rfl, rfl⟩]; rfl)
    case h_3 | h_4 | h_5 => exact .inl rfl
  wins := by
    intro state tx toward wanted beaten
    change ((state.admitTx tx config).2.occupant tx.decoded.sender tx.decoded.nonce).map
      ValidatedTransaction.decoded = some tx.decoded
    rw [toward.seating.occupant_admitTx_eq]
    cases pending : state.pending[tx.hash]? with
    | some held =>
        have same : held.decoded = tx.decoded :=
          determined _ (toward.known _ _ pending) _ wanted.1 (toward.seating.keyed pending)
        have seated := toward.seating.occupant_of_pending pending
        rw [same] at seated
        rw [SchedulerState.admitTx_duplicate (by rw [pending]; rfl), occupantAfter, seated,
          Option.map_some, same]
    | none =>
        cases named : state.slot tx.decoded.sender tx.decoded.nonce with
        | none =>
            rw [SchedulerState.admitTx_admitted pending named (toward.room limited wanted named),
              SchedulerState.seatedOutcome, occupantAfter, if_pos ⟨rfl, rfl⟩]
            rfl
        | some hash =>
            obtain ⟨incumbent, stored, -, -⟩ := toward.seating.occupied named
            have pays : Reaches config.replacementFeeBumpBps tx.decoded incumbent.decoded := by
              refine (beaten incumbent.decoded ?_).resolve_left fun same => ?_
              · change (state.occupant tx.decoded.sender tx.decoded.nonce).map _ = _
                rw [SchedulerState.occupant_eq_some_iff.mpr ⟨hash, named, stored⟩]
                rfl
              · have keyed := toward.seating.keyed stored
                rw [ValidatedTransaction.hash, same] at keyed
                rw [ValidatedTransaction.hash] at pending
                rw [← keyed] at stored
                cases pending.symm.trans stored
            rw [SchedulerState.admitTx_replaced pending named stored (reaches_iff.mp pays),
              SchedulerState.seatedOutcome, occupantAfter, if_pos ⟨rfl, rfl⟩]
            rfl

/-- A bid that pays the exact bump reaches the threshold. -/
theorem schedulerHouse_fair (determined : KeyedByHash book) (limited : WithinLimit config target) :
    Fair (schedulerHouse config) (Outbids config.replacementFeeBumpBps) (Toward book target)
      (Wanted book target) :=
  (schedulerHouse_fair_reaches determined limited).mono fun _ _ => Outbids.reaches

end Toward

/-! ## The same transactions -/

/-- Two states hold the same decoded transactions in the same queues. -/
structure SameTransactions (left right : SchedulerState) : Prop where
  pending : ∀ hash : TxHash,
    (left.pending[hash]?).map ValidatedTransaction.decoded =
      (right.pending[hash]?).map ValidatedTransaction.decoded
  senderQueues : left.senderQueues = right.senderQueues

/-- Seated states whose slots are held by the same transactions hold the same transactions. -/
theorem sameTransactions_of_holds (config : SchedulerConfig) {left right : SchedulerState}
    (leftSeating : Seating left) (rightSeating : Seating right)
    (holds : ∀ slot, (schedulerHouse config).holds left slot = (schedulerHouse config).holds right slot) :
    SameTransactions left right := by
  have covers : ∀ {one other : SchedulerState}, Seating one → Seating other →
      (∀ slot, (schedulerHouse config).holds one slot = (schedulerHouse config).holds other slot) →
      ∀ (hash : TxHash) (decoded : TxDecoded),
        (one.pending[hash]?).map ValidatedTransaction.decoded = some decoded →
          (other.pending[hash]?).map ValidatedTransaction.decoded = some decoded := by
    intro one other oneSeating otherSeating same hash decoded stored
    obtain ⟨tx, found, rfl⟩ := Option.map_eq_some_iff.mp stored
    have there : (one.occupant tx.decoded.sender tx.decoded.nonce).map ValidatedTransaction.decoded =
        (other.occupant tx.decoded.sender tx.decoded.nonce).map ValidatedTransaction.decoded :=
      same (tx.decoded.sender, tx.decoded.nonce)
    rw [oneSeating.occupant_of_pending found, Option.map_some, eq_comm] at there
    obtain ⟨twin, occupied, equal⟩ := Option.map_eq_some_iff.mp there
    have present := (otherSeating.occupant_position occupied).1
    rw [ValidatedTransaction.hash, equal] at present
    rw [← oneSeating.keyed found, ValidatedTransaction.hash, present, Option.map_some, equal]
  refine ⟨fun hash => ?_, ?_⟩
  · ext decoded
    exact ⟨covers leftSeating rightSeating holds hash decoded,
      covers rightSeating leftSeating (fun slot => (holds slot).symm) hash decoded⟩
  · refine SchedulerState.queues_ext (fun _ _ => leftSeating.nonempty) (fun _ _ => rightSeating.nonempty)
      fun sender nonce => ?_
    have same := congrArg (Option.map TxDecoded.hash) (holds (sender, nonce))
    simp only [schedulerHouse, Option.map_map] at same
    have named := (leftSeating.map_hash_occupant sender nonce).symm.trans
      (same.trans (rightSeating.map_hash_occupant sender nonce))
    exact named

end Mempulse.Scheduler
