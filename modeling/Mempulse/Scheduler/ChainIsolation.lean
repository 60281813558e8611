import Mempulse.Library.Unwinding
import Mempulse.Scheduler.Invariant

/-!
# Chain isolation

The workers of every chain admit their transactions to one scheduler, which keys its pending map
by hash and its queues by sender and nonce, without the chain. As long as no transaction is
admitted while one of another chain is pending under its hash or its sender, each chain sees the
scheduler it would have for itself.
-/

set_option autoImplicit false

namespace Mempulse.Scheduler

open Std Library

/-- Whether a transaction is one of the chain. -/
def ValidatedTransaction.onChain (chainId : Option UInt64) (tx : ValidatedTransaction) : Bool :=
  tx.decoded.chainId = chainId

open ValidatedTransaction (onChain)

/-- No pending transaction on the other side of the chain's boundary has the hash or the sender of
the transaction. -/
def Apart (chainId : Option UInt64) (state : SchedulerState) (tx : ValidatedTransaction) : Prop :=
  ∀ entry ∈ state.pending.toList, entry.2.onChain chainId ≠ tx.onChain chainId →
    entry.1 ≠ tx.hash ∧ entry.2.decoded.sender ≠ tx.decoded.sender

instance (chainId : Option UInt64) (state : SchedulerState) (tx : ValidatedTransaction) :
    Decidable (Apart chainId state tx) :=
  inferInstanceAs (Decidable (∀ entry ∈ state.pending.toList, _ → _ ∧ _))

theorem Apart.onChain_eq {chainId : Option UInt64} {state : SchedulerState}
    {tx held : ValidatedTransaction} {hash : TxHash} (apart : Apart chainId state tx)
    (stored : state.pending[hash]? = some held)
    (close : hash = tx.hash ∨ held.decoded.sender = tx.decoded.sender) :
    held.onChain chainId = tx.onChain chainId := by
  by_contra differ
  obtain ⟨otherHash, otherSender⟩ := apart (hash, held) (mem_toList.mpr stored) differ
  rcases close with same | same
  · exact otherHash same
  · exact otherSender same

/-! ## The outcome of an admission -/

theorem senderQueuePositions_congr {state other : SchedulerState} (seating : Seating state)
    (otherSeating : Seating other) {sender : Address}
    (queues : state.senderQueues[sender]? = other.senderQueues[sender]?) :
    state.senderQueuePositions sender = other.senderQueuePositions sender := by
  unfold SchedulerState.senderQueuePositions
  rw [queues]
  cases queued : other.senderQueues[sender]? with
  | none => rfl
  | some queue =>
      rw [queued] at queues
      exact (seating.walkQueue_eq queues).trans (otherSeating.walkQueue_eq queued).symm

/-- What decides an admission: whether the hash is pending, the sender's queue, and the
transaction that holds the slot. -/
theorem admitTx_outcome_congr {config : SchedulerConfig} {state other : SchedulerState}
    (invariant : RepresentationInvariant config state)
    (otherInvariant : RepresentationInvariant config other) {tx : ValidatedTransaction}
    (same : state.pending[tx.hash]? = other.pending[tx.hash]?)
    (queues : state.senderQueues[tx.decoded.sender]? = other.senderQueues[tx.decoded.sender]?)
    (holder : ∀ hash, state.slot tx.decoded.sender tx.decoded.nonce = some hash →
      state.pending[hash]? = other.pending[hash]?) :
    (state.admitTx tx config).1 = (other.admitTx tx config).1 := by
  have slots : state.slot tx.decoded.sender tx.decoded.nonce =
      other.slot tx.decoded.sender tx.decoded.nonce := by
    rw [SchedulerState.slot, SchedulerState.slot, SchedulerState.slotOf, SchedulerState.slotOf,
      queues]
  have lengths : state.senderQueueLen tx.decoded.sender = other.senderQueueLen tx.decoded.sender := by
    rw [SchedulerState.senderQueueLen, SchedulerState.senderQueueLen, queues]
  have before := senderQueuePositions_congr invariant.seating otherInvariant.seating queues
  have joined : ∀ (start next : SchedulerState) (pending nextPending),
      start.senderQueues[tx.decoded.sender]? = next.senderQueues[tx.decoded.sender]? →
      (start.seat pending tx).senderQueues[tx.decoded.sender]? =
        (next.seat nextPending tx).senderQueues[tx.decoded.sender]? := by
    intro start next pending nextPending queues
    rw [SchedulerState.senderQueues_seat, SchedulerState.senderQueues_seat,
      SchedulerState.getElem?_insertQueueEntry, SchedulerState.getElem?_insertQueueEntry, queues]
  have seating := (invariant.admitTx tx).seating
  have otherSeating := (otherInvariant.admitTx tx).seating
  revert seating
  refine SchedulerState.admit_cases (motive := fun admitted => Seating admitted.2 →
    admitted.1 = (other.admitTx tx config).1) ?duplicate ?dangling ?replaced ?underpriced ?limited
    ?admitted
  case duplicate =>
    rintro ⟨held, stored⟩ -
    rw [SchedulerState.admitTx_duplicate (by rw [← same, stored]; rfl)]
  case dangling =>
    intro hash _ taken missing
    exact absurd missing (invariant.seating.noDanglingSlot taken)
  case replaced =>
    rintro hash incumbent fresh taken stored pays next rfl seating
    have alike := SchedulerState.admitTx_replaced (same.symm.trans fresh) (slots.symm.trans taken)
      ((holder hash taken).symm.trans stored) pays
    rw [alike] at otherSeating ⊢
    have after := senderQueuePositions_congr seating otherSeating (joined _ _ _ _ queues)
    simp only [SchedulerState.seatedOutcome, SchedulerState.queueTransitions, after, before]
  case underpriced =>
    intro hash incumbent fresh taken stored short _
    rw [SchedulerState.admitTx_underpriced (same.symm.trans fresh) (slots.symm.trans taken)
      ((holder hash taken).symm.trans stored) short]
  case limited =>
    intro fresh vacant full _
    rw [SchedulerState.admitTx_limited (same.symm.trans fresh) (slots.symm.trans vacant)
      (by rw [← lengths]; exact full)]
  case admitted =>
    intro fresh vacant room seating
    have alike := SchedulerState.admitTx_admitted (same.symm.trans fresh)
      (slots.symm.trans vacant) (by rw [← lengths]; exact room)
    rw [alike] at otherSeating ⊢
    have after := senderQueuePositions_congr seating otherSeating (joined _ _ _ _ queues)
    simp only [SchedulerState.seatedOutcome, SchedulerState.queueTransitions, after, before]

/-! ## A chain's view -/

/-- The scheduler that takes all transactions, and the one that takes the chain's only: the second
holds the chain's pending transactions, and no sender of the first has some of the chain and some
of another. -/
structure ChainView (config : SchedulerConfig) (chainId : Option UInt64)
    (whole alone : SchedulerState) : Prop where
  wholeInvariant : RepresentationInvariant config whole
  aloneInvariant : RepresentationInvariant config alone
  pending : ∀ hash : TxHash, alone.pending[hash]? = (whole.pending[hash]?).filter (onChain chainId)
  unmixed : ∀ ⦃first second : TxHash⦄ ⦃held other : ValidatedTransaction⦄,
    whole.pending[first]? = some held → whole.pending[second]? = some other →
      held.decoded.sender = other.decoded.sender → held.onChain chainId = other.onChain chainId

section ChainView

variable {config : SchedulerConfig} {chainId : Option UInt64} {whole alone : SchedulerState}
  {tx : ValidatedTransaction}

theorem ChainView.empty (config : SchedulerConfig) (chainId : Option UInt64) :
    ChainView config chainId {} {} where
  wholeInvariant := .empty config
  aloneInvariant := .empty config
  pending := by simp
  unmixed := by simp

theorem ChainView.pending_eq (view : ChainView config chainId whole alone) {hash : TxHash}
    (ours : ∀ held, whole.pending[hash]? = some held → held.onChain chainId = true) :
    whole.pending[hash]? = alone.pending[hash]? := by
  rw [view.pending]
  cases stored : whole.pending[hash]? with
  | none => rfl
  | some held => rw [Option.filter_some, if_pos (ours held stored)]

/-- The queue of a sender all of whose pending transactions are the chain's. -/
theorem ChainView.queue_eq (view : ChainView config chainId whole alone) {sender : Address}
    (ours : ∀ (hash : TxHash) (held : ValidatedTransaction), whole.pending[hash]? = some held → held.decoded.sender = sender →
      held.onChain chainId = true) :
    whole.senderQueues[sender]? = alone.senderQueues[sender]? := by
  refine SchedulerState.queue_ext (fun _ => view.wholeInvariant.seating.nonempty)
    (fun _ => view.aloneInvariant.seating.nonempty) fun nonce => ?_
  cases taken : SchedulerState.slotOf whole.senderQueues sender nonce with
  | some hash =>
      obtain ⟨held, stored, rfl, rfl⟩ := view.wholeInvariant.seating.occupied taken
      have kept : alone.pending[hash]? = some held := by
        rw [view.pending, stored, Option.filter_some, if_pos (ours hash held stored rfl)]
      exact (view.aloneInvariant.seating.seated kept).symm
  | none =>
      cases other : SchedulerState.slotOf alone.senderQueues sender nonce with
      | none => rfl
      | some hash =>
          obtain ⟨held, stored, rfl, rfl⟩ := view.aloneInvariant.seating.occupied other
          rw [view.pending] at stored
          obtain ⟨present, -⟩ := Option.filter_eq_some_iff.mp stored
          have seated : SchedulerState.slotOf whole.senderQueues held.decoded.sender
              held.decoded.nonce = some hash := view.wholeInvariant.seating.seated present
          rw [taken] at seated
          cases seated

theorem unmixed_admitTx (view : ChainView config chainId whole alone) (apart : Apart chainId whole tx)
    ⦃first second : TxHash⦄ ⦃held other : ValidatedTransaction⦄
    (stored : (whole.admitTx tx config).2.pending[first]? = some held)
    (otherStored : (whole.admitTx tx config).2.pending[second]? = some other)
    (sender : held.decoded.sender = other.decoded.sender) :
    held.onChain chainId = other.onChain chainId := by
  rcases SchedulerState.eq_or_pending_of_admitTx stored with rfl | earlier
  · rcases SchedulerState.eq_or_pending_of_admitTx otherStored with rfl | otherEarlier
    · rfl
    · exact (apart.onChain_eq otherEarlier (.inr sender.symm)).symm
  · rcases SchedulerState.eq_or_pending_of_admitTx otherStored with rfl | otherEarlier
    · exact apart.onChain_eq earlier (.inr sender)
    · exact view.unmixed earlier otherEarlier sender

/-- An admission of the chain gets the same outcome on both sides. -/
theorem ChainView.shown (view : ChainView config chainId whole alone)
    (apart : Apart chainId whole tx) (ours : tx.onChain chainId = true) :
    (whole.admitTx tx config).1 = (alone.admitTx tx config).1 ∧
      ChainView config chainId (whole.admitTx tx config).2 (alone.admitTx tx config).2 := by
  have sender : ∀ (hash : TxHash) (held : ValidatedTransaction), whole.pending[hash]? = some held →
      held.decoded.sender = tx.decoded.sender → held.onChain chainId = true :=
    fun hash held stored same => (apart.onChain_eq stored (.inr same)).trans ours
  have outcome : (whole.admitTx tx config).1 = (alone.admitTx tx config).1 := by
    refine admitTx_outcome_congr view.wholeInvariant view.aloneInvariant ?_ (view.queue_eq sender) ?_
    · exact view.pending_eq fun held stored => (apart.onChain_eq stored (.inl rfl)).trans ours
    · intro hash taken
      obtain ⟨held, stored, same, -⟩ := view.wholeInvariant.seating.occupied taken
      refine view.pending_eq fun other present => ?_
      cases stored.symm.trans present
      exact sender hash held stored same
  refine ⟨outcome, view.wholeInvariant.admitTx tx, view.aloneInvariant.admitTx tx, fun hash => ?_,
    unmixed_admitTx view apart⟩
  rw [SchedulerState.getElem?_pending_admitTx, SchedulerState.getElem?_pending_admitTx, ← outcome,
    view.pending]
  unfold SchedulerState.entryAfter
  split
  · split
    · rw [Option.filter_some, if_pos ours]
    · rfl
  · split
    · rw [Option.filter_some, if_pos ours]
    · split <;> rfl
  all_goals rfl

/-- An admission of another chain leaves the chain's pending transactions alone. -/
theorem ChainView.hidden (view : ChainView config chainId whole alone)
    (apart : Apart chainId whole tx) (theirs : tx.onChain chainId = false) :
    ChainView config chainId (whole.admitTx tx config).2 alone := by
  refine ⟨view.wholeInvariant.admitTx tx, view.aloneInvariant, fun hash => ?_, unmixed_admitTx view apart⟩
  have absent : ∀ {hash : TxHash},
      (∀ held, whole.pending[hash]? = some held → held.onChain chainId = false) →
        alone.pending[hash]? = none := by
    intro hash others
    rw [view.pending]
    cases stored : whole.pending[hash]? with
    | none => rfl
    | some held => rw [Option.filter_some, if_neg (by rw [others held stored]; decide)]
  have own : tx.hash = hash → alone.pending[hash]? = (some tx).filter (onChain chainId) := by
    rintro rfl
    rw [Option.filter_some, if_neg (by rw [theirs]; decide)]
    exact absent fun held stored => (apart.onChain_eq stored (.inl rfl)).trans theirs
  rw [SchedulerState.getElem?_pending_admitTx]
  cases decision : (whole.admitTx tx config).1.admission with
  | admitted =>
      dsimp only [SchedulerState.entryAfter]
      split
      case isTrue same => exact own same
      case isFalse => exact view.pending hash
  | replaced replacedHash =>
      dsimp only [SchedulerState.entryAfter]
      split
      case isTrue same => exact own same
      case isFalse =>
        split
        case isTrue same =>
          subst same
          obtain ⟨incumbent, stored, sender, -⟩ := view.wholeInvariant.seating.occupied
            (SchedulerState.pending_of_replaced decision).2.1
          refine absent fun held present => ?_
          cases stored.symm.trans present
          exact (apart.onChain_eq stored (.inr sender)).trans theirs
        case isFalse => exact view.pending hash
  | duplicate | underpricedReplacement | senderLimitReached => exact view.pending hash

end ChainView

/-! ## Chain isolation -/

/-- The answers of a run are the outcomes of `admitAll`. -/
theorem zip_admitAll (state : SchedulerState) (config : SchedulerConfig)
    (txs : List ValidatedTransaction) :
    txs.zip (state.admitAll config txs).1 = answers (fun state tx => state.admitTx tx config) state txs ∧
      (state.admitAll config txs).2 = lastState (fun state tx => state.admitTx tx config) state txs := by
  induction txs generalizing state with
  | nil => exact ⟨rfl, rfl⟩
  | cons tx rest ih =>
      obtain ⟨answered, ended⟩ := ih (state.admitTx tx config).2
      refine ⟨?_, ended⟩
      rw [answers, SchedulerState.admitAll, ← answered]
      rfl

/-- **Chain isolation.** In every sequence of admissions that are apart from the transactions
pending on the other side of a chain's boundary, the outcomes and queue transitions of the chain's
transactions and the chain's pending transactions are those of a scheduler of its own. -/
theorem admitAll_isolated (config : SchedulerConfig) (chainId : Option UInt64)
    (txs : List ValidatedTransaction)
    (apart : RunAllowed (fun state tx => state.admitTx tx config) (Apart chainId) {} txs) :
    let whole := SchedulerState.admitAll {} config txs
    let alone := SchedulerState.admitAll {} config (txs.filter (onChain chainId))
    (txs.zip whole.1).filter (fun answer => answer.1.onChain chainId) =
        (txs.filter (onChain chainId)).zip alone.1 ∧
      ∀ hash : TxHash, alone.2.pending[hash]? = (whole.2.pending[hash]?).filter (onChain chainId) := by
  have unwinding : Unwinding (fun state tx => SchedulerState.admitTx state tx config)
      (onChain chainId) (Apart chainId) (ChainView config chainId) :=
    ⟨fun view apart ours => view.shown apart ours, fun view apart theirs => view.hidden apart theirs⟩
  obtain ⟨answered, view⟩ := unwinding.run (ChainView.empty config chainId) apart
  intro whole alone
  obtain ⟨wholeAnswers, wholeEnd⟩ := zip_admitAll {} config txs
  obtain ⟨aloneAnswers, aloneEnd⟩ := zip_admitAll {} config (txs.filter (onChain chainId))
  refine ⟨?_, fun hash => ?_⟩
  · rw [wholeAnswers, aloneAnswers]
    exact answered
  · dsimp only [whole, alone]
    rw [wholeEnd, aloneEnd]
    exact view.pending hash

/-- The sample transaction on a chain. -/
def sampleTxOn (chainId : UInt64) (hash : TxHash) (sender : Address) (nonce : UInt64)
    (maxFeePerGasWei : U128) : ValidatedTransaction :=
  let tx := sampleValidatedTx hash sender nonce maxFeePerGasWei
  { tx with decoded := { tx.decoded with chainId := some chainId } }

/-- Two senders, one on each chain. -/
def separateSenders : List ValidatedTransaction :=
  [sampleTxOn 1 10 1 0 100, sampleTxOn 2 11 2 5 100, sampleTxOn 1 12 1 1 100, sampleTxOn 2 13 2 5 200]

theorem separateSenders_isolated :
    (separateSenders.zip (SchedulerState.admitAll {} {} separateSenders).1).filter
          (fun answer => onChain (some 1) answer.1) =
        (separateSenders.filter (onChain (some 1))).zip
          (SchedulerState.admitAll {} {} (separateSenders.filter (onChain (some 1)))).1 ∧
      ∀ hash : TxHash,
        (SchedulerState.admitAll {} {} (separateSenders.filter (onChain (some 1)))).2.pending[hash]? =
          ((SchedulerState.admitAll {} {} separateSenders).2.pending[hash]?).filter
            (onChain (some 1)) :=
  admitAll_isolated {} (some 1) separateSenders (by decide +kernel)

/-- One sender with the same nonce on two chains: the second transaction replaces the first. -/
theorem sameSender_not_isolated :
    let txs := [sampleTxOn 1 10 1 0 100, sampleTxOn 2 11 1 0 200]
    let whole := SchedulerState.admitAll {} {} txs
    let alone := SchedulerState.admitAll {} {} (txs.filter (onChain (some 1)))
    whole.1.map (·.admission) = [.admitted, .replaced 10] ∧
      ¬ ∀ hash : TxHash,
        alone.2.pending[hash]? = (whole.2.pending[hash]?).filter (onChain (some 1)) := by
  intro txs whole alone
  refine ⟨by decide +kernel, fun same => ?_⟩
  have kept : (alone.2.pending[(10 : TxHash)]?).isSome = true := by decide +kernel
  have gone : whole.2.pending[(10 : TxHash)]? = none := by decide +kernel
  rw [same 10, gone] at kept
  cases kept

end Mempulse.Scheduler
