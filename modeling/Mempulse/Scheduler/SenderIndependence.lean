import Mempulse.Scheduler.ChainIsolation

/-!
# Sender independence

An admission reads and writes its own sender's part of the scheduler: the sender's queue and the
pending transactions in it. So a sender's transactions fare as they would on their own, and two
interleavings of the same per-sender sequences end in the same queues and the same counts.
-/

set_option autoImplicit false

namespace Mempulse.Scheduler

open Std Library

/-- Whether a transaction is one of the sender's. -/
def ValidatedTransaction.isFrom (sender : Address) (tx : ValidatedTransaction) : Bool :=
  tx.decoded.sender = sender

open ValidatedTransaction (isFrom)

/-- A hash determines its transaction, among those of a kind. -/
def HashDetermines (known : ValidatedTransaction → Prop) : Prop :=
  ∀ ⦃tx other : ValidatedTransaction⦄, known tx → known other → tx.hash = other.hash → tx = other

/-! ## A sender's view -/

/-- The scheduler that takes all transactions, and the one that takes the sender's only: the
sender has the same pending transactions in both. -/
structure SenderView (config : SchedulerConfig) (known : ValidatedTransaction → Prop)
    (sender : Address) (whole alone : SchedulerState) : Prop where
  wholeInvariant : RepresentationInvariant config whole
  aloneInvariant : RepresentationInvariant config alone
  wholeKnown : ∀ ⦃hash : TxHash⦄ ⦃held : ValidatedTransaction⦄, whole.pending[hash]? = some held →
    known held
  aloneKnown : ∀ ⦃hash : TxHash⦄ ⦃held : ValidatedTransaction⦄, alone.pending[hash]? = some held →
    known held
  pending : ∀ (hash : TxHash) (held : ValidatedTransaction), held.decoded.sender = sender →
    (whole.pending[hash]? = some held ↔ alone.pending[hash]? = some held)

section SenderView

variable {config : SchedulerConfig} {known : ValidatedTransaction → Prop} {sender : Address}
  {whole alone : SchedulerState} {tx : ValidatedTransaction}

theorem SenderView.refl {state : SchedulerState} (invariant : RepresentationInvariant config state)
    (stateKnown : ∀ ⦃hash : TxHash⦄ ⦃held : ValidatedTransaction⦄, state.pending[hash]? = some held →
      known held) : SenderView config known sender state state where
  wholeInvariant := invariant
  aloneInvariant := invariant
  wholeKnown := stateKnown
  aloneKnown := stateKnown
  pending := fun _ _ _ => Iff.rfl

theorem SenderView.symm (view : SenderView config known sender whole alone) :
    SenderView config known sender alone whole where
  wholeInvariant := view.aloneInvariant
  aloneInvariant := view.wholeInvariant
  wholeKnown := view.aloneKnown
  aloneKnown := view.wholeKnown
  pending := fun hash held same => (view.pending hash held same).symm

theorem SenderView.slot_of_slot (view : SenderView config known sender whole alone)
    {nonce : UInt64} {hash : TxHash} (taken : whole.slot sender nonce = some hash) :
    alone.slot sender nonce = some hash := by
  obtain ⟨held, stored, rfl, rfl⟩ := view.wholeInvariant.seating.occupied taken
  exact view.aloneInvariant.seating.seated ((view.pending hash held rfl).mp stored)

/-- The sender has the same queue in both. -/
theorem SenderView.queue_eq (view : SenderView config known sender whole alone) :
    whole.senderQueues[sender]? = alone.senderQueues[sender]? := by
  refine SchedulerState.queue_ext (fun _ => view.wholeInvariant.seating.nonempty)
    (fun _ => view.aloneInvariant.seating.nonempty) fun nonce => ?_
  exact Option.ext fun hash => ⟨view.slot_of_slot, view.symm.slot_of_slot⟩

/-- A hash of one of the sender's transactions names the same pending transaction in both. -/
theorem SenderView.getElem?_pending_eq (view : SenderView config known sender whole alone)
    {hash : TxHash}
    (wholeOurs : ∀ held, whole.pending[hash]? = some held → held.decoded.sender = sender)
    (aloneOurs : ∀ held, alone.pending[hash]? = some held → held.decoded.sender = sender) :
    whole.pending[hash]? = alone.pending[hash]? :=
  Option.ext fun held =>
    ⟨fun stored => (view.pending hash held (wholeOurs held stored)).mp stored,
      fun stored => (view.pending hash held (aloneOurs held stored)).mpr stored⟩

theorem SenderView.outcome_eq (view : SenderView config known sender whole alone)
    (determines : HashDetermines known) (listed : known tx) (ours : tx.decoded.sender = sender) :
    (whole.admitTx tx config).1 = (alone.admitTx tx config).1 := by
  -- What is pending under the hash of the transaction is the transaction.
  have own : ∀ {state : SchedulerState}, Seating state →
      (∀ ⦃hash : TxHash⦄ ⦃held : ValidatedTransaction⦄, state.pending[hash]? = some held → known held) →
      ∀ held, state.pending[tx.hash]? = some held → held.decoded.sender = sender := by
    intro state seating stateKnown held stored
    rw [determines (stateKnown stored) listed (seating.keyed stored), ours]
  refine admitTx_outcome_congr view.wholeInvariant view.aloneInvariant ?_ ?_ ?_
  · exact view.getElem?_pending_eq (own view.wholeInvariant.seating view.wholeKnown)
      (own view.aloneInvariant.seating view.aloneKnown)
  · rw [ours]
    exact view.queue_eq
  · intro hash taken
    rw [ours] at taken
    obtain ⟨held, stored, rfl, -⟩ := view.wholeInvariant.seating.occupied taken
    rw [stored, (view.pending hash held rfl).mp stored]

theorem SenderView.known_admitTx {state : SchedulerState}
    (stateKnown : ∀ ⦃hash : TxHash⦄ ⦃held : ValidatedTransaction⦄, state.pending[hash]? = some held →
      known held) (listed : known tx) ⦃hash : TxHash⦄ ⦃held : ValidatedTransaction⦄
    (stored : (state.admitTx tx config).2.pending[hash]? = some held) : known held := by
  rcases SchedulerState.eq_or_pending_of_admitTx stored with rfl | before
  · exact listed
  · exact stateKnown before

/-- An admission of the sender gets the same outcome on both sides. -/
theorem SenderView.shown (view : SenderView config known sender whole alone)
    (determines : HashDetermines known) (listed : known tx) (ours : tx.decoded.sender = sender) :
    (whole.admitTx tx config).1 = (alone.admitTx tx config).1 ∧
      SenderView config known sender (whole.admitTx tx config).2 (alone.admitTx tx config).2 := by
  have outcome := view.outcome_eq determines listed ours
  refine ⟨outcome, view.wholeInvariant.admitTx tx, view.aloneInvariant.admitTx tx,
    known_admitTx view.wholeKnown listed, known_admitTx view.aloneKnown listed,
    fun hash held same => ?_⟩
  rw [SchedulerState.getElem?_pending_admitTx, SchedulerState.getElem?_pending_admitTx, ← outcome]
  unfold SchedulerState.entryAfter
  split
  · split
    · exact Iff.rfl
    · exact view.pending hash held same
  · split
    · exact Iff.rfl
    · split
      · exact Iff.rfl
      · exact view.pending hash held same
  all_goals exact view.pending hash held same

/-- An admission of another sender leaves the sender's pending transactions alone. -/
theorem SenderView.hidden (view : SenderView config known sender whole alone)
    (determines : HashDetermines known) (listed : known tx) (theirs : tx.decoded.sender ≠ sender) :
    SenderView config known sender (whole.admitTx tx config).2 alone := by
  refine ⟨view.wholeInvariant.admitTx tx, view.aloneInvariant,
    known_admitTx view.wholeKnown listed, view.aloneKnown, fun hash held same => ?_⟩
  rw [SchedulerState.getElem?_pending_admitTx]
  -- Nothing of the sender is pending under the hash of the transaction.
  have own : tx.hash = hash → (some tx = some held ↔ alone.pending[hash]? = some held) := by
    rintro rfl
    constructor
    · rintro ⟨⟩
      exact absurd same theirs
    · intro stored
      have determined := determines (view.aloneKnown stored) listed
        (view.aloneInvariant.seating.keyed stored)
      rw [determined]
  cases decision : (whole.admitTx tx config).1.admission with
  | admitted =>
      dsimp only [SchedulerState.entryAfter]
      split
      case isTrue here => exact own here
      case isFalse => exact view.pending hash held same
  | replaced replacedHash =>
      dsimp only [SchedulerState.entryAfter]
      split
      case isTrue here => exact own here
      case isFalse =>
        split
        case isTrue here =>
          subst here
          obtain ⟨incumbent, stored, atSender, -⟩ := view.wholeInvariant.seating.occupied
            (SchedulerState.pending_of_replaced decision).2.1
          refine ⟨(fun gone => nomatch gone), fun kept => ?_⟩
          cases stored.symm.trans ((view.pending _ held same).mpr kept)
          exact absurd (atSender.symm.trans same) theirs
        case isFalse => exact view.pending hash held same
  | duplicate | underpricedReplacement | senderLimitReached => exact view.pending hash held same

end SenderView

/-! ## Two interleavings -/

/-- **Noninterference of senders**, over a run. -/
theorem SenderView.unwinding (config : SchedulerConfig) {known : ValidatedTransaction → Prop}
    (determines : HashDetermines known) (sender : Address) :
    Unwinding (fun state tx => SchedulerState.admitTx state tx config) (isFrom sender)
      (fun _ tx => known tx) (SenderView config known sender) where
  shown := fun view listed ours => view.shown determines listed (of_decide_eq_true ours)
  hidden := fun view listed theirs => view.hidden determines listed (of_decide_eq_false theirs)

theorem runAllowed_of_forall {config : SchedulerConfig} {known : ValidatedTransaction → Prop}
    {state : SchedulerState} {txs : List ValidatedTransaction} (listed : ∀ tx ∈ txs, known tx) :
    RunAllowed (fun state tx => SchedulerState.admitTx state tx config) (fun _ tx => known tx) state
      txs := by
  induction txs generalizing state with
  | nil => trivial
  | cons tx rest ih =>
      exact ⟨listed tx List.mem_cons_self, ih fun other member => listed other (.tail tx member)⟩

section Interleavings

variable {config : SchedulerConfig} {start left right : SchedulerState}

/-- The queues, the counts and the totals are those of the pending transactions. -/
theorem RepresentationInvariant.eq_of_pending_eq (invariant : RepresentationInvariant config left)
    (otherInvariant : RepresentationInvariant config right) (pending : left.pending = right.pending)
    (countable : left.pending.size ≤ usizeMax) :
    left.senderQueues = right.senderQueues ∧ left.senderQueueCounts = right.senderQueueCounts ∧
      left.readyTotal = right.readyTotal ∧ left.blockedTotal = right.blockedTotal := by
  have seats : ∀ {first second : SchedulerState}, Seating first → Seating second →
      first.pending = second.pending → ∀ {sender : Address} {nonce : UInt64} {hash : TxHash},
        first.slot sender nonce = some hash → second.slot sender nonce = some hash := by
    intro first second seating otherSeating same sender nonce hash taken
    obtain ⟨held, stored, rfl, rfl⟩ := seating.occupied taken
    exact otherSeating.seated (same ▸ stored)
  have queues : left.senderQueues = right.senderQueues := by
    refine SchedulerState.queues_ext (fun _ _ => invariant.seating.nonempty)
      (fun _ _ => otherInvariant.seating.nonempty) fun sender nonce => Option.ext fun hash => ?_
    exact ⟨seats invariant.seating otherInvariant.seating pending,
      seats otherInvariant.seating invariant.seating pending.symm⟩
  have recounts : ∀ part : SenderQueueCounts → Nat, left.recount part = right.recount part := by
    intro part
    rw [invariant.seating.recount_eq, otherInvariant.seating.recount_eq, queues]
  refine ⟨queues, ?_, ?_, ?_⟩
  · apply ExtTreeMap.ext_getElem?
    intro sender
    rw [invariant.tally.counted, otherInvariant.tally.counted, invariant.seating.map_classify_eq,
      otherInvariant.seating.map_classify_eq, queues]
  · rw [invariant.tally.ready countable, otherInvariant.tally.ready (pending ▸ countable), recounts]
  · rw [invariant.tally.blocked countable, otherInvariant.tally.blocked (pending ▸ countable),
      recounts]

/-- In every run a sender's transactions fare as they would on their own. -/
theorem SenderView.admitAll {known : ValidatedTransaction → Prop}
    (determines : HashDetermines known) (invariant : RepresentationInvariant config start)
    (startKnown : ∀ ⦃hash : TxHash⦄ ⦃held : ValidatedTransaction⦄,
      start.pending[hash]? = some held → known held)
    (txs : List ValidatedTransaction) (listed : ∀ tx ∈ txs, known tx) (sender : Address) :
    (txs.zip (start.admitAll config txs).1).filter (fun answer => answer.1.isFrom sender) =
        answers (fun state tx => SchedulerState.admitTx state tx config) start
          (txs.filter (isFrom sender)) ∧
      SenderView config known sender (start.admitAll config txs).2
        (lastState (fun state tx => SchedulerState.admitTx state tx config) start
          (txs.filter (isFrom sender))) := by
  obtain ⟨answered, ended⟩ := zip_admitAll start config txs
  rw [answered, ended]
  exact (SenderView.unwinding config determines sender).run (.refl invariant startKnown)
    (runAllowed_of_forall listed)

end Interleavings

/-- The transactions a run can meet: those it admits, and those pending at its start. -/
def MetBy (start : SchedulerState) (txs : List ValidatedTransaction) (tx : ValidatedTransaction) :
    Prop :=
  tx ∈ txs ∨ ∃ hash : TxHash, start.pending[hash]? = some tx

/-- **Senders are independent.** From every reachable state, two sequences of admissions that order
the transactions of each sender identically end with the same pending transactions, queues,
counts and totals, and give every transaction the same outcome and the same queue transitions,
however the senders are interleaved. -/
theorem admitAll_interleaved (config : SchedulerConfig) (commands : List SchedulerCommand)
    (txs others : List ValidatedTransaction)
    (determines : HashDetermines (MetBy (SchedulerState.run config {} commands) txs))
    (ordered : ∀ sender, txs.filter (isFrom sender) = others.filter (isFrom sender))
    (countable :
      ((SchedulerState.run config {} commands).admitAll config txs).2.pending.size ≤ usizeMax) :
    let start := SchedulerState.run config {} commands
    let left := start.admitAll config txs
    let right := start.admitAll config others
    left.2.pending = right.2.pending ∧ left.2.senderQueues = right.2.senderQueues ∧
      left.2.senderQueueCounts = right.2.senderQueueCounts ∧
      left.2.readyTotal = right.2.readyTotal ∧ left.2.blockedTotal = right.2.blockedTotal ∧
      ∀ sender, (txs.zip left.1).filter (fun answer => answer.1.isFrom sender) =
        (others.zip right.1).filter (fun answer => answer.1.isFrom sender) := by
  intro start left right
  have invariant := RepresentationInvariant.reached config commands
  have members : ∀ tx ∈ others, tx ∈ txs := by
    intro tx listed
    have own : tx ∈ others.filter (isFrom tx.decoded.sender) :=
      List.mem_filter.mpr ⟨listed, decide_eq_true rfl⟩
    rw [← ordered] at own
    exact (List.mem_filter.mp own).1
  have known : ∀ ⦃hash : TxHash⦄ ⦃held : ValidatedTransaction⦄,
      start.pending[hash]? = some held → MetBy start txs held := fun hash held stored =>
    Or.inr ⟨hash, stored⟩
  have alone := SenderView.admitAll determines invariant known txs
    fun tx listed => Or.inl listed
  have otherAlone := SenderView.admitAll determines invariant known others
    fun tx listed => Or.inl (members tx listed)
  simp only [← ordered] at otherAlone
  have pending : left.2.pending = right.2.pending := by
    apply ExtTreeMap.ext_getElem?
    intro hash
    refine Option.ext fun held => ?_
    exact ((alone held.decoded.sender).2.pending hash held rfl).trans
      ((otherAlone held.decoded.sender).2.pending hash held rfl).symm
  have leftInvariant := (alone 0).2.wholeInvariant
  have rightInvariant := (otherAlone 0).2.wholeInvariant
  obtain ⟨queues, counts, ready, blocked⟩ :=
    leftInvariant.eq_of_pending_eq rightInvariant pending countable
  exact ⟨pending, queues, counts, ready, blocked, fun sender =>
    (alone sender).1.trans (otherAlone sender).1.symm⟩

/-- A gap filled and a slot contested by one sender, with another sender before or between. -/
def interleavedSenders : List ValidatedTransaction × List ValidatedTransaction :=
  ([sampleValidatedTx 10 1 0 100, sampleValidatedTx 20 2 7 100, sampleValidatedTx 11 1 2 100,
      sampleValidatedTx 12 1 1 100, sampleValidatedTx 13 1 1 120],
    [sampleValidatedTx 10 1 0 100, sampleValidatedTx 11 1 2 100, sampleValidatedTx 12 1 1 100,
      sampleValidatedTx 13 1 1 120, sampleValidatedTx 20 2 7 100])

theorem interleavedSenders_admitAll :
    (SchedulerState.admitAll {} {} interleavedSenders.1).2.senderQueues =
      (SchedulerState.admitAll {} {} interleavedSenders.2).2.senderQueues := by
  have distinct : ∀ tx ∈ interleavedSenders.1, ∀ other ∈ interleavedSenders.1,
      tx.hash = other.hash → tx = other := by decide +kernel
  refine (admitAll_interleaved {} [] interleavedSenders.1 interleavedSenders.2 ?_ ?_
    (by decide +kernel)).2.1
  · rintro tx other (listed | ⟨hash, stored⟩) (alsoListed | ⟨hash, stored⟩) same
    · exact distinct tx listed other alsoListed same
    all_goals simp [SchedulerState.run] at stored
  · intro sender
    by_cases first : sender = 1
    · subst first
      decide +kernel
    · by_cases second : sender = 2
      · subst second
        decide +kernel
      · have absent : ∀ tx ∈ interleavedSenders.1 ++ interleavedSenders.2,
            tx.decoded.sender = 1 ∨ tx.decoded.sender = 2 := by decide +kernel
        have unseen : ∀ txs : List ValidatedTransaction, (∀ tx ∈ txs, tx ∈ interleavedSenders.1 ++ interleavedSenders.2) →
            txs.filter (isFrom sender) = [] := by
          intro txs within
          refine List.filter_eq_nil_iff.mpr fun tx listed ours => ?_
          rcases absent tx (within tx listed) with one | two
          · exact first ((of_decide_eq_true ours).symm.trans one)
          · exact second ((of_decide_eq_true ours).symm.trans two)
        rw [unseen _ fun _ => List.mem_append_left _, unseen _ fun _ => List.mem_append_right _]

end Mempulse.Scheduler
