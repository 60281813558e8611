import Mempulse.LiveRpc.Chronicle
import Mempulse.Rehydration.Standing

/-!
# What the live pipeline logs after a snapshot

The events of the admissions since a state was captured, one admission after the other. What the log
decodes is what holds the slots of the live scheduler (`Ledger.admitAll`), and a decoded transaction
takes its slot: it pays for what the log says to hold it, which the log has replaced by then. A tail
in which the chain's events come anywhere in between still has every decoded transaction take its
slot (`Ledger.taken_of_isPrefix`).
-/

set_option autoImplicit false

namespace Mempulse.Rehydration

open Std EventLog Library Scheduler Storage Replay LiveRpc

/-! ## What the pipeline logs -/

/-- The events of admission decisions. -/
def isDecision : EventPayload → Bool
  | .txDecoded _ | .txReplaced _ | .txDropped _ => true
  | _ => false

/-- What the live pipeline logs while the scheduler admits transactions one after the other. -/
def admissionLog (config : SchedulerConfig) : SchedulerState → List ValidatedTransaction →
    List EventPayload
  | _, [] => []
  | state, tx :: rest =>
    let admitted := state.admitTx tx config
    admissionEvents tx admitted.1 ++ admissionLog config admitted.2 rest

theorem admissionLog_append (config : SchedulerConfig) (state : SchedulerState)
    (earlier later : List ValidatedTransaction) :
    admissionLog config state (earlier ++ later) = admissionLog config state earlier ++
      admissionLog config (state.admitAll config earlier).2 later := by
  induction earlier generalizing state with
  | nil => rfl
  | cons first rest ih =>
      rw [List.cons_append, admissionLog, ih, ← List.append_assoc]
      rfl

/-- In the book every hash decodes to one transaction. -/
def Booked (book : TxHash → TxDecoded) (transactions : List TxDecoded) : Prop :=
  ∀ decoded ∈ transactions, decoded = book decoded.hash

theorem Booked.keyedByHash {book : TxHash → TxDecoded} {transactions : List TxDecoded}
    (booked : Booked book transactions) : KeyedByHash transactions := by
  intro first inFirst second inSecond same
  rw [booked first inFirst, booked second inSecond, same]

/-- A decoded transaction takes its slot: it pays for what the log says to hold it, and that has
been replaced already. -/
structure TakesSlot (config : SchedulerConfig) (book : TxHash → TxDecoded)
    (transactions : List TxDecoded) (captured : SchedulerState) (before : List EventPayload)
    (decoded : TxDecoded) : Prop where
  listed : decoded ∈ transactions
  pays : ∀ held, heldAfter slotOfDecoded ((schedulerHouse config).holds captured) (decodes before)
    (slotOfDecoded decoded) = some held → Reaches config.replacementFeeBumpBps decoded held
  free : ∀ hash, standingAfter captured before hash ≠ .gone →
    slotOfDecoded (book hash) ≠ slotOfDecoded decoded

/-- Every decoded transaction takes its slot. -/
def EachTakesSlot (config : SchedulerConfig) (book : TxHash → TxDecoded)
    (transactions : List TxDecoded) (captured : SchedulerState) (payloads : List EventPayload) :
    Prop :=
  ∀ before decoded after, payloads = before ++ .txDecoded decoded :: after →
    TakesSlot config book transactions captured before decoded

/-- The log that has led from a captured state to a live one. -/
structure Ledger (config : SchedulerConfig) (book : TxHash → TxDecoded)
    (transactions : List TxDecoded) (captured live : SchedulerState)
    (payloads : List EventPayload) : Prop where
  invariant : RepresentationInvariant config live
  known : ∀ (hash : TxHash) (tx : ValidatedTransaction), live.pending[hash]? = some tx →
    tx.decoded ∈ transactions
  holders : ∀ slot, (schedulerHouse config).holds live slot =
    heldAfter slotOfDecoded ((schedulerHouse config).holds captured) (decodes payloads) slot
  stands : ∀ hash, standingAfter captured payloads hash ≠ .gone ↔
    (live.pending[hash]?).isSome = true
  taken : EachTakesSlot config book transactions captured payloads

section Ledger

variable {config : SchedulerConfig} {book : TxHash → TxDecoded} {transactions : List TxDecoded}
  {captured live : SchedulerState} {payloads : List EventPayload} {tx : ValidatedTransaction}

theorem standingAfter_append_silent (earlier : List EventPayload) {later : List EventPayload}
    {hash : TxHash} (silent : ∀ payload ∈ later,
      removes payload ≠ some hash ∧ restores payload ≠ some hash) :
    standingAfter captured (earlier ++ later) hash = standingAfter captured earlier hash := by
  induction later using List.reverseRecOn with
  | nil => rw [List.append_nil]
  | append_singleton later payload ih =>
      obtain ⟨noRemoval, noRestoration⟩ := silent payload (by simp)
      rw [← List.append_assoc, standingAfter_append_singleton,
        Standing.next_of_silent noRemoval noRestoration,
        ih fun other member => silent other (List.mem_append_left _ member)]

/-- What an admission's events say about where a hash stands. -/
theorem standingAfter_admissionEvents (outcome : SchedulerAdmissionOutcome) (hash : TxHash) :
    standingAfter captured (payloads ++ admissionEvents tx outcome) hash =
      match outcome.admission with
      | .admitted => if tx.hash = hash then .waiting else standingAfter captured payloads hash
      | .duplicate => standingAfter captured payloads hash
      | .replaced replacedHash =>
        if tx.hash = hash then .waiting
        else if replacedHash = hash then .gone else standingAfter captured payloads hash
      | .underpricedReplacement | .senderLimitReached =>
        if tx.hash = hash then .gone else standingAfter captured payloads hash := by
  have transitions : ∀ event ∈ outcome.queueTransitions.map queueTransitionPayload,
      removes event ≠ some hash ∧ restores event ≠ some hash := by
    intro event member
    obtain ⟨transition, -, rfl⟩ := List.mem_map.mp member
    unfold queueTransitionPayload
    split <;> exact ⟨nofun, nofun⟩
  rw [admissionEvents, decisionEvents, ← List.append_assoc, ← List.append_assoc,
    ← List.append_assoc, standingAfter_append_silent _ transitions]
  cases outcome.admission with
  | admitted =>
      change standingAfter captured (payloads ++ [] ++ [EventPayload.txDecoded tx.decoded] ++ []) hash = _
      rw [List.append_nil, List.append_nil, standingAfter_append_singleton]
      rfl
  | duplicate =>
      change standingAfter captured (payloads ++ [] ++ [] ++ []) hash = _
      rw [List.append_nil, List.append_nil, List.append_nil]
  | replaced replacedHash =>
      change standingAfter captured (payloads ++
        [EventPayload.txReplaced ⟨replacedHash, tx.decoded.hash⟩] ++
          [EventPayload.txDecoded tx.decoded] ++ []) hash = _
      rw [List.append_nil, standingAfter_append_singleton, standingAfter_append_singleton]
      rfl
  | underpricedReplacement | senderLimitReached =>
      change standingAfter captured (payloads ++ [] ++ [] ++ [EventPayload.txDropped _]) hash = _
      rw [List.append_nil, List.append_nil, standingAfter_append_singleton]
      rfl

/-- An admission logs its own transaction as decoded, at most once and after the replacement. -/
theorem admissionEvents_eq_append {outcome : SchedulerAdmissionOutcome}
    {before after : List EventPayload} {decoded : TxDecoded}
    (whole : admissionEvents tx outcome = before ++ .txDecoded decoded :: after) :
    decoded = tx.decoded ∧
      (outcome.admission = .admitted ∧ before = [] ∨
        ∃ replacedHash, outcome.admission = .replaced replacedHash ∧
          before = [.txReplaced ⟨replacedHash, tx.hash⟩]) := by
  have silent : .txDecoded decoded ∉ outcome.queueTransitions.map queueTransitionPayload := by
    intro member
    obtain ⟨transition, -, made⟩ := List.mem_map.mp member
    unfold queueTransitionPayload at made
    split at made <;> cases made
  have later : ∀ {front}, outcome.queueTransitions.map queueTransitionPayload ≠
      front ++ .txDecoded decoded :: after := by
    intro front same
    exact silent (same ▸ List.mem_append_right front List.mem_cons_self)
  rw [admissionEvents, decisionEvents] at whole
  cases decision : outcome.admission with
  | admitted =>
      rw [decision] at whole
      cases before with
      | nil =>
          cases (List.cons.inj whole).1
          exact ⟨rfl, .inl ⟨rfl, rfl⟩⟩
      | cons first rest => exact absurd (List.cons.inj whole).2 later
  | duplicate =>
      rw [decision] at whole
      exact absurd whole later
  | replaced replacedHash =>
      rw [decision] at whole
      cases before with
      | nil => cases (List.cons.inj whole).1
      | cons first rest =>
          obtain ⟨replacement, others⟩ := List.cons.inj whole
          cases rest with
          | nil =>
              cases (List.cons.inj others).1
              exact ⟨rfl, .inr ⟨replacedHash, rfl, by rw [← replacement]; rfl⟩⟩
          | cons second rest => exact absurd (List.cons.inj others).2 later
  | underpricedReplacement | senderLimitReached =>
      rw [decision] at whole
      cases before with
      | nil => cases (List.cons.inj whole).1
      | cons first rest => exact absurd (List.cons.inj whole).2 later

theorem Ledger.start (invariant : RepresentationInvariant config captured)
    (known : ∀ (hash : TxHash) (tx : ValidatedTransaction), captured.pending[hash]? = some tx →
      tx.decoded ∈ transactions) : Ledger config book transactions captured captured [] where
  invariant := invariant
  known := known
  holders _ := heldAfter_nil.symm
  stands hash := by
    rw [standingAfter, List.foldl_nil, contains_eq_isSome]
    cases captured.pending[hash]? <;> simp
  taken before decoded after whole := by simp at whole

/-- What a pending transaction of the live scheduler is by the book. -/
theorem Ledger.book_eq (ledger : Ledger config book transactions captured live payloads)
    (booked : Booked book transactions) {hash : TxHash} {held : ValidatedTransaction}
    (stored : live.pending[hash]? = some held) : book hash = held.decoded := by
  have own := booked held.decoded (ledger.known hash held stored)
  rw [← ledger.invariant.seating.keyed stored]
  exact own.symm

/-- **A transaction that is logged as decoded takes its slot.** -/
theorem Ledger.takesSlot (ledger : Ledger config book transactions captured live payloads)
    (booked : Booked book transactions)
    (listed : decodes (admissionEvents tx (live.admitTx tx config).1) ⊆ transactions)
    {before after : List EventPayload} {decoded : TxDecoded}
    (whole : admissionEvents tx (live.admitTx tx config).1 =
      before ++ .txDecoded decoded :: after) :
    TakesSlot config book transactions captured (payloads ++ before) decoded := by
  have own : decoded ∈ transactions := by
    apply listed
    rw [whole, decodes_append]
    exact List.mem_append_right _ List.mem_cons_self
  obtain ⟨rfl, decided⟩ := admissionEvents_eq_append whole
  have seating := ledger.invariant.seating
  have quiet : decodes (payloads ++ before) = decodes payloads := by
    rcases decided with ⟨-, rfl⟩ | ⟨replacedHash, -, rfl⟩
    · rw [List.append_nil]
    · rw [decodes_append]
      exact List.append_nil _
  refine ⟨own, fun held holds => ?_, fun hash stands same => ?_⟩
  · rw [quiet, ← ledger.holders] at holds
    obtain ⟨incumbent, occupied, rfl⟩ := Option.map_eq_some_iff.mp holds
    rcases decided with ⟨admitted, -⟩ | ⟨replacedHash, replaced, -⟩
    · cases (seating.vacant_of_admitted admitted).symm.trans occupied
    · obtain ⟨-, holder, -, occupied', reaches⟩ := reaches_of_replaced replaced
      cases occupied'.symm.trans occupied
      exact reaches_iff.mpr reaches
  · have pending : (live.pending[hash]?).isSome = true := by
      rw [← ledger.stands]
      rcases decided with ⟨-, rfl⟩ | ⟨replacedHash, -, rfl⟩
      · rwa [List.append_nil] at stands
      · rw [standingAfter_append_singleton] at stands
        dsimp only [Standing.next] at stands
        split at stands
        · exact absurd rfl stands
        · exact stands
    obtain ⟨held, stored⟩ := Option.isSome_iff_exists.mp pending
    rw [ledger.book_eq booked stored] at same
    have occupied : live.occupant (slotOfDecoded held.decoded).1 (slotOfDecoded held.decoded).2 =
        some held := seating.occupant_of_pending stored
    rw [same] at occupied
    rcases decided with ⟨admitted, -⟩ | ⟨replacedHash, replaced, rfl⟩
    · cases (seating.vacant_of_admitted admitted).symm.trans occupied
    · obtain ⟨-, holder, found, occupied', -⟩ := reaches_of_replaced replaced
      cases occupied'.symm.trans occupied
      -- The one in the slot is the one that the log has just replaced.
      refine stands ?_
      rw [← seating.keyed stored, seating.keyed found, standingAfter_append_singleton]
      exact if_pos rfl

/-- **Logging an admission extends the ledger.** -/
theorem Ledger.admitTx (ledger : Ledger config book transactions captured live payloads)
    (booked : Booked book transactions)
    (listed : decodes (admissionEvents tx (live.admitTx tx config).1) ⊆ transactions) :
    Ledger config book transactions captured (live.admitTx tx config).2
      (payloads ++ admissionEvents tx (live.admitTx tx config).1) where
  invariant := ledger.invariant.admitTx tx
  known := by
    intro hash held stored
    rw [SchedulerState.getElem?_pending_admitTx] at stored
    rw [decodes_admissionEvents] at listed
    cases decision : (live.admitTx tx config).1.admission with
    | admitted =>
        rw [decision] at stored listed
        dsimp only [SchedulerState.entryAfter] at stored
        split at stored
        · exact Option.some.inj stored ▸ listed List.mem_cons_self
        · exact ledger.known hash held stored
    | replaced replacedHash =>
        rw [decision] at stored listed
        dsimp only [SchedulerState.entryAfter] at stored
        split at stored
        · exact Option.some.inj stored ▸ listed List.mem_cons_self
        · split at stored
          · cases stored
          · exact ledger.known hash held stored
    | duplicate | underpricedReplacement | senderLimitReached =>
        rw [decision] at stored
        exact ledger.known hash held stored
  holders slot := by
    rw [holds_admitTx ledger.invariant.seating, ledger.holders, decodes_append, heldAfter_append]
  stands hash := by
    have before := ledger.stands hash
    rw [standingAfter_admissionEvents, SchedulerState.getElem?_pending_admitTx]
    cases decision : (live.admitTx tx config).1.admission with
    | admitted =>
        dsimp only [SchedulerState.entryAfter]
        split
        · exact iff_of_true nofun rfl
        · exact before
    | duplicate => exact before
    | replaced replacedHash =>
        dsimp only [SchedulerState.entryAfter]
        split
        · exact iff_of_true nofun rfl
        · split
          · exact iff_of_false (fun stands => stands rfl) nofun
          · exact before
    | underpricedReplacement | senderLimitReached =>
        dsimp only [SchedulerState.entryAfter]
        split
        case isTrue here =>
          refine iff_of_false (fun stands => stands rfl) fun present => ?_
          rw [← here] at present
          rw [SchedulerState.admitTx_duplicate present] at decision
          cases decision
        case isFalse => exact before
  taken before decoded after whole := by
    rcases List.append_eq_append_iff.mp whole with ⟨front, rfl, rest⟩ | ⟨back, earlier, rest⟩
    · exact ledger.takesSlot booked listed rest
    · cases back with
      | nil =>
          rw [List.append_nil] at earlier
          subst earlier
          have new := ledger.takesSlot booked listed (rest.symm.trans (List.nil_append _).symm)
          rwa [List.append_nil] at new
      | cons first others =>
          obtain ⟨rfl, -⟩ := List.cons.inj rest
          exact ledger.taken before decoded others earlier

/-- **The log of the live pipeline is a ledger.** -/
theorem Ledger.admitAll (booked : Booked book transactions)
    (ledger : Ledger config book transactions captured captured [])
    {txs : List ValidatedTransaction}
    (listed : decodes (admissionLog config captured txs) ⊆ transactions) :
    Ledger config book transactions captured (captured.admitAll config txs).2
      (admissionLog config captured txs) := by
  induction txs using List.reverseRecOn with
  | nil => exact ledger
  | append_singleton txs tx ih =>
      have last : admissionLog config (captured.admitAll config txs).2 [tx] =
          admissionEvents tx ((captured.admitAll config txs).2.admitTx tx config).1 :=
        List.append_nil _
      rw [admissionLog_append, last, decodes_append] at listed
      rw [admissionLog_append, last, SchedulerState.admitAll_append]
      exact (ih (List.append_subset.mp listed).1).admitTx booked (List.append_subset.mp listed).2

end Ledger

/-! ## Tails with chain events -/

section Tail

variable {config : SchedulerConfig} {book : TxHash → TxDecoded} {transactions : List TxDecoded}
  {captured live : SchedulerState} {payloads log : List EventPayload}

theorem Standing.next_eq_gone_congr {first second : Standing}
    (same : first = .gone ↔ second = .gone) (hash : TxHash) (payload : EventPayload) :
    first.next hash payload = .gone ↔ second.next hash payload = .gone := by
  cases payload with
  | txDecoded | txReplaced | txDropped =>
      dsimp only [Standing.next]
      split
      · exact Iff.rfl
      · exact same
  | txConfirmedProvisional confirmed | txConfirmedFinal confirmed =>
      dsimp only [Standing.next]
      by_cases left : first = .gone
      · rw [if_neg fun both => both.2 left, if_neg fun both => both.2 (same.mp left)]
        exact same
      · have right : second ≠ .gone := fun gone => left (same.mpr gone)
        refine iff_of_false ?_ ?_
        · split
          · nofun
          · exact left
        · split
          · nofun
          · exact right
  | txReorged reorged =>
      have kept : ∀ standing : Standing,
          (if reorged.hash = hash ∧ standing = .included reorged.oldBlockHash then .waiting
            else standing) = Standing.gone ↔ standing = .gone := by
        intro standing
        split
        case isTrue both =>
          rw [both.2]
          exact iff_of_false nofun nofun
        case isFalse => exact Iff.rfl
      exact (kept first).trans (same.trans (kept second).symm)
  | _ => exact same

/-- Only decisions bring a transaction in or out. -/
theorem Standing.next_eq_gone_of_not_decision {standing : Standing} (hash : TxHash)
    {payload : EventPayload} (other : isDecision payload = false) :
    standing.next hash payload = .gone ↔ standing = .gone := by
  by_cases gone : standing = .gone
  · subst gone
    refine iff_of_true ?_ rfl
    cases payload with
    | txDecoded | txReplaced | txDropped => cases other
    | txConfirmedProvisional | txConfirmedFinal => exact if_neg fun both => both.2 rfl
    | txReorged => exact if_neg fun both => nomatch both.2
    | _ => rfl
  · refine iff_of_false ?_ gone
    cases payload with
    | txDecoded | txReplaced | txDropped => cases other
    | txConfirmedProvisional | txConfirmedFinal | txReorged =>
        dsimp only [Standing.next]
        split
        · nofun
        · exact gone
    | _ => exact gone

theorem standingAfter_filter_eq_gone (payloads : List EventPayload) (hash : TxHash) :
    standingAfter captured (payloads.filter isDecision) hash = .gone ↔
      standingAfter captured payloads hash = .gone := by
  induction payloads using List.reverseRecOn with
  | nil => exact Iff.rfl
  | append_singleton payloads payload ih =>
      rw [List.filter_append, List.filter_singleton, standingAfter_append_singleton]
      cases decides : isDecision payload with
      | true =>
          rw [cond_true, standingAfter_append_singleton]
          exact Standing.next_eq_gone_congr ih hash payload
      | false =>
          rw [cond_false, List.append_nil, Standing.next_eq_gone_of_not_decision hash decides]
          exact ih

/-- Whether a transaction takes its slot depends on the decisions before it only. -/
theorem TakesSlot.congr {before other : List EventPayload} {decoded : TxDecoded}
    (takes : TakesSlot config book transactions captured before decoded)
    (same : before.filter isDecision = other.filter isDecision) :
    TakesSlot config book transactions captured other decoded where
  listed := takes.listed
  pays := by
    rw [← decodes_filter isDecision (fun _ => rfl) other, ← same,
      decodes_filter isDecision fun _ => rfl]
    exact takes.pays
  free hash stands := by
    refine takes.free hash fun gone => stands ?_
    rwa [← standingAfter_filter_eq_gone, ← same, standingAfter_filter_eq_gone]

/-- What a tail decodes takes its slot, wherever the chain's events come. -/
theorem Ledger.taken_of_isPrefix (ledger : Ledger config book transactions captured live log)
    (logged : payloads.filter isDecision <+: log.filter isDecision) :
    EachTakesSlot config book transactions captured payloads := by
  intro before decoded after whole
  obtain ⟨rest, extends'⟩ := logged
  rw [whole, List.filter_append, List.filter_cons_of_pos (by rfl), List.append_assoc] at extends'
  obtain ⟨front, back, rfl, sameFront, sameBack⟩ := List.filter_eq_append_iff.mp extends'.symm
  obtain ⟨skipped, others, rfl, silent, -, -⟩ := List.filter_eq_cons_iff.mp sameBack
  refine (ledger.taken (front ++ skipped) decoded others (by rw [List.append_assoc])).congr ?_
  rw [List.filter_append, sameFront, List.filter_eq_nil_iff.mpr silent, List.append_nil]

end Tail

end Mempulse.Rehydration
