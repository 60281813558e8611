import Mempulse.Rehydration.Ledger

/-!
# Rehydration and replay

After a restart the pending transactions are reconstructed twice: the rehydration takes what the
tail removes out of the snapshot and admits what the tail decodes or reopens, and the replay model
is seeded with the snapshot and follows the tail event by event. The tail is what the live pipeline
has logged since the snapshot, and the chain's events come anywhere in between.

The rehydration admits a transaction that the tail decodes or reopens even when the tail removes it
again. So the two agree exactly when the last transaction that the tail decodes or reopens in a slot
is not removed afterwards (`pending_restored_iff_replayed`).
-/

set_option autoImplicit false

namespace Mempulse.Rehydration

open Std EventLog Library Scheduler Storage Replay LiveRpc

/-! ## Tails -/

/-- The transaction of a stored row. -/
def rowDecoded (row : TxFullRecord) : TxDecoded :=
  (validatedTransactionFromStorageRow "" 0 0 row).decoded

/-- Every transaction the live pipeline has logged as decoded, while the scheduler admitted some
transactions. -/
def decodedBy (config : SchedulerConfig) (txs : List ValidatedTransaction) : List TxDecoded :=
  decodes (admissionLog config {} txs)

/-- A tail of events after the snapshot of the scheduler that had admitted the earlier transactions,
while it admitted the later ones. -/
structure LiveTail (config : SchedulerConfig) (book : TxHash → TxDecoded)
    (storage : InMemoryStorage) (earlier later : List ValidatedTransaction)
    (tail : List EventEnvelope) : Prop where
  /-- A hash always decodes to the same transaction. -/
  booked : Booked book (decodedBy config (earlier ++ later))
  /-- The decisions of the tail are logged ones; any other events may come in between. -/
  logged : (tail.map (·.payload)).filter isDecision <+:
    (admissionLog config (SchedulerState.after config earlier) later).filter isDecision
  /-- An event gives a hash its own sender and nonce. -/
  placed : ∀ event ∈ tail, Placed (fun hash => slotOfDecoded (book hash)) event.payload
  /-- Every decoded transaction is in the `tx_full` table. -/
  rows : ∀ decoded ∈ decodedBy config (earlier ++ later),
    ∃ row, storage.txFullByHash decoded.hash = some row ∧ rowDecoded row = decoded

/-- The transaction that an event makes pending again. -/
def reopenedBy (book : TxHash → TxDecoded) : EventPayload → Option TxDecoded
  | .txDecoded decoded => some decoded
  | .txReorged reorged => some (book reorged.hash)
  | _ => none

/-- The transactions that reorganizations reopened, as the book has them. -/
def reopened (book : TxHash → TxDecoded) (payloads : List EventPayload) : List TxDecoded :=
  payloads.filterMap (reopenedBy book)

/-! ## What a standing transaction holds -/

section Held

variable {config : SchedulerConfig} {book : TxHash → TxDecoded} {transactions : List TxDecoded}
  {captured : SchedulerState} {payloads : List EventPayload} {payload : EventPayload}

theorem EachTakesSlot.init {later : List EventPayload}
    (each : EachTakesSlot config book transactions captured (payloads ++ later)) :
    EachTakesSlot config book transactions captured payloads := by
  intro before decoded after whole
  exact each before decoded (after ++ later) (by rw [whole, List.append_assoc]; rfl)

theorem decodes_append_singleton :
    decodes (payloads ++ [payload]) = decodes payloads ++ (decodedOf payload).toList := by
  rw [decodes_append]
  cases payload <;> rfl

theorem reopened_append_singleton :
    reopened book (payloads ++ [payload]) =
      reopened book payloads ++ (reopenedBy book payload).toList := by
  rw [reopened, List.filterMap_append]
  cases payload <;> rfl

/-- Only a decoded transaction comes in. -/
theorem Standing.gone_next {hash : TxHash} (other : decodedOf payload = none) :
    Standing.gone.next hash payload = .gone := by
  cases payload with
  | txDecoded => cases other
  | txReplaced | txDropped => exact ite_self _
  | txConfirmedProvisional | txConfirmedFinal => exact if_neg fun both => both.2 rfl
  | txReorged => exact if_neg fun both => nomatch both.2
  | _ => rfl

/-- **A standing transaction holds its slot in the log.** -/
theorem Ledger.held_of_stands
    (ledger : Ledger config book transactions captured captured [])
    (booked : Booked book transactions)
    (each : EachTakesSlot config book transactions captured payloads) {hash : TxHash}
    (stands : standingAfter captured payloads hash ≠ .gone) :
    book hash ∈ transactions ∧ (book hash).hash = hash ∧
      heldAfter slotOfDecoded ((schedulerHouse config).holds captured) (decodes payloads)
        (slotOfDecoded (book hash)) = some (book hash) := by
  induction payloads using List.reverseRecOn with
  | nil =>
      obtain ⟨held, stored⟩ := Option.isSome_iff_exists.mp ((ledger.stands hash).mp stands)
      rw [ledger.book_eq booked stored]
      refine ⟨ledger.known hash held stored, ledger.invariant.seating.keyed stored, ?_⟩
      change (captured.occupant held.decoded.sender held.decoded.nonce).map _ = _
      rw [ledger.invariant.seating.occupant_of_pending stored]
      rfl
  | append_singleton payloads payload ih =>
      rw [standingAfter_append_singleton] at stands
      rw [decodes_append_singleton]
      cases decodes' : decodedOf payload with
      | none =>
          rw [Option.toList_none, List.append_nil]
          refine ih each.init fun gone => stands ?_
          rw [gone, Standing.gone_next decodes']
      | some decoded =>
          have made : payload = .txDecoded decoded := by
            cases payload <;> cases decodes'
            rfl
          subst made
          have takes := each payloads decoded [] rfl
          rw [Option.toList_some, heldAfter_append_singleton]
          by_cases own : decoded.hash = hash
          · have same : decoded = book hash := own ▸ booked decoded takes.listed
            rw [← same]
            exact ⟨takes.listed, own, if_pos rfl⟩
          · dsimp only [Standing.next] at stands
            rw [if_neg own] at stands
            obtain ⟨listed, keyed, held⟩ := ih each.init stands
            exact ⟨listed, keyed, by rw [if_neg (takes.free hash stands).symm, held]⟩

/-- Reopening what stands changes no holder. -/
theorem Ledger.heldAfter_reopened
    (ledger : Ledger config book transactions captured captured [])
    (booked : Booked book transactions)
    (each : EachTakesSlot config book transactions captured payloads)
    (orderly : Orderly captured payloads) (slot : Address × UInt64) :
    heldAfter slotOfDecoded ((schedulerHouse config).holds captured) (reopened book payloads) slot =
      heldAfter slotOfDecoded ((schedulerHouse config).holds captured) (decodes payloads) slot := by
  induction payloads using List.reverseRecOn with
  | nil => rfl
  | append_singleton payloads payload ih =>
      have before := ih each.init orderly.init
      rw [reopened_append_singleton, decodes_append_singleton]
      cases payload with
      | txDecoded decoded =>
          refine (heldAfter_append_singleton).trans (Eq.trans ?_ (heldAfter_append_singleton).symm)
          rw [before]
      | txReorged reorged =>
          refine (heldAfter_append_singleton).trans ?_
          rw [before]
          refine Eq.trans ?_ (congrArg (heldAfter _ _ · slot) (List.append_nil _).symm)
          split
          case isTrue here =>
            rw [← here]
            exact (ledger.held_of_stands booked each.init orderly.last.stands).2.2.symm
          case isFalse => rfl
      | _ => simpa only [reopenedBy, decodedOf, Option.toList_none, List.append_nil] using before

/-- Each transaction that is decoded or reopened pays for what holds its slot, or is that. -/
theorem Ledger.succession_reopened
    (ledger : Ledger config book transactions captured captured [])
    (booked : Booked book transactions)
    (each : EachTakesSlot config book transactions captured payloads)
    (orderly : Orderly captured payloads) :
    Succession slotOfDecoded (Reaches config.replacementFeeBumpBps)
      ((schedulerHouse config).holds captured) (reopened book payloads) := by
  induction payloads using List.reverseRecOn with
  | nil =>
      intro earlier bid later whole
      simp [reopened] at whole
  | append_singleton payloads payload ih =>
      have before := ih each.init orderly.init
      have holders := ledger.heldAfter_reopened booked each.init orderly.init
      rw [reopened_append_singleton]
      cases payload with
      | txDecoded decoded =>
          refine before.concat fun held holds => .inr ?_
          rw [holders] at holds
          exact (each payloads decoded [] rfl).pays held holds
      | txReorged reorged =>
          refine before.concat fun held holds => .inl ?_
          rw [holders, (ledger.held_of_stands booked each.init orderly.last.stands).2.2] at holds
          exact (Option.some.inj holds).symm
      | _ => simpa only [reopenedBy, Option.toList_none, List.append_nil] using before

/-- What is decoded or reopened is by the book, and an event restores its hash. -/
theorem Ledger.restored_of_reopened
    (ledger : Ledger config book transactions captured captured [])
    (booked : Booked book transactions)
    (each : EachTakesSlot config book transactions captured payloads)
    (orderly : Orderly captured payloads) {decoded : TxDecoded}
    (member : decoded ∈ reopened book payloads) :
    decoded ∈ transactions ∧ ∃ payload ∈ payloads, restores payload = some decoded.hash := by
  obtain ⟨payload, inPayloads, reopens⟩ := List.mem_filterMap.mp member
  obtain ⟨before, after, rfl⟩ := List.append_of_mem inPayloads
  cases payload with
  | txDecoded =>
      cases reopens
      exact ⟨(each before decoded after rfl).listed, _, inPayloads, rfl⟩
  | txReorged reorged =>
      cases reopens
      obtain ⟨listed, keyed, -⟩ :=
        ledger.held_of_stands booked each.init (orderly before _ after rfl).stands
      exact ⟨listed, _, inPayloads, congrArg some keyed.symm⟩
  | _ => cases reopens

end Held

/-! ## What is restored -/

/-- The pending hashes are those of the transactions that hold the slots. -/
theorem contains_pending_iff (config : SchedulerConfig) {state : SchedulerState}
    (seating : Seating state) (hash : TxHash) :
    state.pending.contains hash = true ↔
      ∃ slot held, (schedulerHouse config).holds state slot = some held ∧ held.hash = hash := by
  rw [contains_eq_isSome, Option.isSome_iff_exists]
  constructor
  · rintro ⟨tx, stored⟩
    refine ⟨slotOfDecoded tx.decoded, tx.decoded, ?_, seating.keyed stored⟩
    change (state.occupant tx.decoded.sender tx.decoded.nonce).map _ = _
    rw [seating.occupant_of_pending stored]
    rfl
  · rintro ⟨slot, held, holds, rfl⟩
    obtain ⟨tx, occupied, rfl⟩ := Option.map_eq_some_iff.mp holds
    exact ⟨tx, (seating.occupant_position occupied).1⟩

section Restored

variable {config : SchedulerConfig} {book : TxHash → TxDecoded} {storage : InMemoryStorage}
  {earlier later : List ValidatedTransaction} {tail : List EventEnvelope}

/-- The ledger before anything of the tail is logged. -/
theorem LiveTail.ledger (live : LiveTail config book storage earlier later tail) :
    Ledger config book (decodedBy config (earlier ++ later)) (SchedulerState.after config earlier)
      (SchedulerState.after config earlier) [] := by
  have start : Ledger config book (decodedBy config (earlier ++ later)) {} {} [] :=
    .start (.empty config) fun hash tx stored => by simp at stored
  refine .start (.after config earlier) (start.admitAll live.booked ?_).known
  rw [decodedBy, admissionLog_append, decodes_append]
  exact List.subset_append_left _ _

/-- The ledger of everything that the live pipeline logs. -/
theorem LiveTail.whole (live : LiveTail config book storage earlier later tail) :
    Ledger config book (decodedBy config (earlier ++ later)) (SchedulerState.after config earlier)
      ((SchedulerState.after config earlier).admitAll config later).2
      (admissionLog config (SchedulerState.after config earlier) later) := by
  refine live.ledger.admitAll live.booked ?_
  rw [decodedBy, admissionLog_append, decodes_append]
  exact List.subset_append_right _ _

theorem LiveTail.each (live : LiveTail config book storage earlier later tail) :
    EachTakesSlot config book (decodedBy config (earlier ++ later))
      (SchedulerState.after config earlier) (tail.map (·.payload)) :=
  live.whole.taken_of_isPrefix live.logged

/-- The rehydration admits what the tail decodes or reopens. -/
theorem LiveTail.offered (live : LiveTail config book storage earlier later tail)
    (orderly : Orderly (SchedulerState.after config earlier) (tail.map (·.payload))) :
    (tail.filterMap (validatedTransactionFromEvent storage)).map ValidatedTransaction.decoded =
      reopened book (tail.map (·.payload)) := by
  rw [reopened, List.map_filterMap, List.filterMap_map]
  refine List.filterMap_congr fun event member => ?_
  rcases event with ⟨seqId, ingestTsUnixMs, ingestTsMonoNs, sourceId, payload⟩
  cases payload with
  | txReorged reorged =>
      obtain ⟨before, after, split⟩ :=
        List.append_of_mem (List.mem_map_of_mem (f := (·.payload)) member)
      have each := live.each
      rw [split] at each orderly
      obtain ⟨listed, keyed, -⟩ := live.ledger.held_of_stands live.booked each.init
        (orderly before _ after rfl).stands
      obtain ⟨row, found, stored⟩ := live.rows _ listed
      rw [keyed] at found
      change ((storage.txFullByHash reorged.hash).map _).map _ = some (book reorged.hash)
      rw [found, ← stored]
      rfl
  | _ => rfl

/-- The decisions of the tail are a part of the log, so the live scheduler has every slot that they
leave held. -/
theorem LiveTail.slot_isSome (live : LiveTail config book storage earlier later tail)
    (slot : Address × UInt64) (held : (heldAfter slotOfDecoded
      ((schedulerHouse config).holds (SchedulerState.after config earlier))
      (decodes (tail.map (·.payload))) slot).isSome = true) :
    (((SchedulerState.after config earlier).admitAll config later).2.slot slot.1 slot.2).isSome =
      true := by
  obtain ⟨rest, log⟩ := live.logged
  have decoded : decodes (admissionLog config (SchedulerState.after config earlier) later) =
      decodes (tail.map (·.payload)) ++ decodes rest := by
    rw [← decodes_filter isDecision fun _ => rfl, ← log, decodes_append,
      decodes_filter isDecision fun _ => rfl]
  have holds := congrArg Option.isSome (live.whole.holders slot)
  rw [decoded, isSome_heldAfter_append _ held] at holds
  change ((SchedulerState.occupant _ slot.1 slot.2).map ValidatedTransaction.decoded).isSome =
    true at holds
  rwa [← live.whole.invariant.seating.map_hash_occupant, Option.isSome_map,
    ← Option.isSome_map (f := ValidatedTransaction.decoded)]

/-- The sanitized snapshot is on its way to the live scheduler. -/
theorem LiveTail.toward_keptState (live : LiveTail config book storage earlier later tail)
    (keep : TxHash → Bool) :
    Toward (decodedBy config (earlier ++ later))
      ((SchedulerState.after config earlier).admitAll config later).2
      (keptState keep (SchedulerState.after config earlier)).reloaded where
  seating := (keptState_seating live.ledger.invariant.seating).congr pending_reloaded
    senderQueues_reloaded
  known := by
    intro hash tx stored
    rw [pending_reloaded, getElem?_pending_keptState] at stored
    exact live.ledger.known hash tx stored.1
  within := by
    intro sender nonce named
    obtain ⟨hash, named⟩ := Option.isSome_iff_exists.mp named
    rw [SchedulerState.slot, senderQueues_reloaded] at named
    have before := ((slot_keptState sender nonce hash).mp named).1
    rw [← live.ledger.invariant.seating.map_hash_occupant] at before
    obtain ⟨tx, seated, -⟩ := Option.map_eq_some_iff.mp before
    have holds : (schedulerHouse config).holds (SchedulerState.after config earlier)
        (sender, nonce) = some tx.decoded := congrArg (Option.map _) seated
    refine live.slot_isSome (sender, nonce) ?_
    rw [heldAfter, Option.isSome_or, holds, Option.isSome_some, Bool.or_true]

/-- What the tail decodes or reopens has a slot in the live scheduler. -/
theorem LiveTail.wanted (live : LiveTail config book storage earlier later tail)
    (orderly : Orderly (SchedulerState.after config earlier) (tail.map (·.payload)))
    {tx : ValidatedTransaction}
    (member : tx ∈ tail.filterMap (validatedTransactionFromEvent storage)) :
    Wanted (decodedBy config (earlier ++ later))
      ((SchedulerState.after config earlier).admitAll config later).2 tx := by
  have listed : tx.decoded ∈ reopened book (tail.map (·.payload)) :=
    live.offered orderly ▸ List.mem_map_of_mem member
  obtain ⟨known, -⟩ :=
    live.ledger.restored_of_reopened live.booked live.each orderly listed
  refine ⟨known, live.slot_isSome (slotOfDecoded tx.decoded) ?_⟩
  rw [← live.ledger.heldAfter_reopened live.booked live.each orderly, heldAfter, Option.isSome_or,
    Bool.or_eq_true]
  refine .inl ?_
  cases final : lastFor slotOfDecoded (reopened book (tail.map (·.payload)))
    (slotOfDecoded tx.decoded) with
  | some last => rfl
  | none => exact absurd rfl (ne_slot_of_lastFor final listed)

/-- **What the rehydration restores.** A slot is held by the last transaction that the tail decodes
or reopens in it, and otherwise by the one of the snapshot that the tail does not remove. -/
theorem LiveTail.holds_restored (live : LiveTail config book storage earlier later tail)
    (orderly : Orderly (SchedulerState.after config earlier) (tail.map (·.payload)))
    {snapshot : PersistedSchedulerSnapshot}
    (lists : Scheduler.Lists snapshot (SchedulerState.after config earlier))
    (frontier : snapshot.executableFrontier =
      (SchedulerState.after config earlier).executableFrontierHashes)
    {restored : SchedulerState} (succeeds : restoreScheduler config storage
      { snapshot := some snapshot, replayEvents := tail } = .ok restored) :
    Seating restored ∧ ∀ slot held, (schedulerHouse config).holds restored slot = some held ↔
      lastFor slotOfDecoded (reopened book (tail.map (·.payload))) slot = some held ∨
        lastFor slotOfDecoded (reopened book (tail.map (·.payload))) slot = none ∧
          (schedulerHouse config).holds (SchedulerState.after config earlier) slot = some held ∧
            removed held.hash (tail.map (·.payload)) = false := by
  obtain ⟨loaded, loads, rfl⟩ := schedulerChannelWithRehydration_ok succeeds
  have seating := live.ledger.invariant.seating
  have whole : loaded = (keptState (kept tail) (SchedulerState.after config earlier)).reloaded := by
    rcases load_sanitized seating lists frontier tail with ⟨-, here⟩ | ⟨-, refused⟩
    · exact Except.ok.inj (loads.symm.trans here)
    · exact absurd loads (refused loaded)
  subst whole
  have fair := schedulerHouse_fair_reaches live.booked.keyedByHash live.whole.invariant.withinLimit
  have toward := live.toward_keptState (kept tail)
  have wanted : ∀ tx ∈ tail.filterMap (validatedTransactionFromEvent storage),
      Wanted (decodedBy config (earlier ++ later))
        ((SchedulerState.after config earlier).admitAll config later).2 tx :=
    fun _ => live.wanted orderly
  refine ⟨(fair.sound_foldl toward wanted).seating, fun slot held => ?_⟩
  have bids : (tail.filterMap (validatedTransactionFromEvent storage)).map
      (schedulerHouse config).bidOf = reopened book (tail.map (·.payload)) := live.offered orderly
  have succession := live.ledger.succession_reopened live.booked live.each orderly
  rw [← bids] at succession
  have result := fair.holds_succession toward wanted (fun slot held holds =>
    ((holds_keptState seating _ slot held).mp holds).1) succession slot
  rw [bids] at result
  change _ = (lastFor slotOfDecoded (reopened book (tail.map (·.payload))) slot).or _ at result
  have standing : kept tail held.hash = true ↔
      removed held.hash (tail.map (·.payload)) = false := by
    rw [kept, decide_eq_true_eq, removedBy_iff_removed, Bool.not_eq_true]
  rw [result, ← standing, ← holds_keptState seating]
  cases lastFor slotOfDecoded (reopened book (tail.map (·.payload))) slot with
  | some last => simp only [Option.some_or, reduceCtorEq, false_and, or_false]
  | none => simp only [Option.none_or, reduceCtorEq, true_and, false_or]

/-- **What the replay model calls pending is what waits.** -/
theorem LiveTail.mem_pendingHashes (live : LiveTail config book storage earlier later tail)
    (orderly : Orderly (SchedulerState.after config earlier) (tail.map (·.payload)))
    {snapshot : PersistedSchedulerSnapshot}
    (lists : Scheduler.Lists snapshot (SchedulerState.after config earlier))
    (queueStates : TxHash → ReplayQueueState) (hash : TxHash) :
    hash ∈ ((seededFrom queueStates snapshot).replay (tail.map (·.payload))).pendingHashes ↔
      standingAfter (SchedulerState.after config earlier) (tail.map (·.payload)) hash =
        .waiting := by
  have start : Shown (fun hash => slotOfDecoded (book hash)) (SchedulerState.after config earlier)
      [] (seededFrom queueStates snapshot) := by
    refine shown_seededFrom live.ledger.invariant.seating lists (fun hash tx stored => ?_) _
    rw [live.ledger.book_eq live.booked stored]
  refine (start.replay ?_ orderly fun before payload after whole => ?_).mem_pendingHashes
  · intro payload member
    obtain ⟨event, inTail, rfl⟩ := List.mem_map.mp member
    exact live.placed event inTail
  · cases payload with
    | txDecoded decoded => exact (live.each before decoded after whole).free
    | _ => trivial

end Restored

/-! ## Agreement -/

/-- The rebuilt scheduler has pending what the replay model calls pending, and nothing that the tail
removes in the end. -/
structure RehydrationAgrees (restored : SchedulerState) (replayed : MempoolState)
    (tail : List EventEnvelope) : Prop where
  pending : ∀ hash, restored.pending.contains hash = true ↔ hash ∈ replayed.pendingHashes
  removed : ∀ hash, RemovedBy tail hash → restored.pending.contains hash = false

/-- The last transaction that the tail decodes or reopens in a slot is not removed afterwards. -/
def LastReopenedStays (book : TxHash → TxDecoded) (tail : List EventEnvelope) : Prop :=
  ∀ slot last, lastFor slotOfDecoded (reopened book (tail.map (·.payload))) slot = some last →
    ¬ RemovedBy tail last.hash

/-- **When rehydration agrees with replay.** -/
theorem pending_restored_iff_replayed (config : SchedulerConfig) (book : TxHash → TxDecoded)
    (storage : InMemoryStorage) (earlier later : List ValidatedTransaction)
    (tail : List EventEnvelope) (capturedAtUnixMs : Int64) (capturedAtMonoNs eventSeqHi : UInt64)
    (queueStates : TxHash → ReplayQueueState)
    (live : LiveTail config book storage earlier later tail)
    (orderly : Orderly (SchedulerState.after config earlier) (tail.map (·.payload))) :
    let snapshot := { (SchedulerState.after config earlier).persistedSnapshot capturedAtUnixMs
      capturedAtMonoNs with eventSeqHi := eventSeqHi }
    ∀ restored,
      restoreScheduler config storage { snapshot := some snapshot, replayEvents := tail } =
        .ok restored →
      (RehydrationAgrees restored
          ((seededFrom queueStates snapshot).replay (tail.map (·.payload))) tail ↔
        LastReopenedStays book tail) := by
  intro snapshot restored succeeds
  have ledger := live.ledger
  have seating := ledger.invariant.seating
  have lists : Scheduler.Lists snapshot (SchedulerState.after config earlier) := by
    have listed := lists_persistedSnapshot (SchedulerState.after config earlier) capturedAtUnixMs
      capturedAtMonoNs
    exact ⟨listed.pending, listed.senderQueues⟩
  obtain ⟨rebuilt, holds⟩ := live.holds_restored orderly lists rfl succeeds
  have pends := contains_pending_iff config rebuilt
  have replays := live.mem_pendingHashes orderly lists queueStates
  have waits := waiting_iff orderly
  have gone : ∀ hash, RemovedBy tail hash ↔ removed hash (tail.map (·.payload)) = true :=
    removedBy_iff_removed tail
  constructor
  · intro agrees slot last final removal
    have pending := (pends last.hash).mpr ⟨slot, last, (holds slot last).mpr (.inl final), rfl⟩
    rw [agrees.removed last.hash removal] at pending
    cases pending
  · intro stays
    refine ⟨fun hash => ⟨fun pending => ?_, fun waiting => ?_⟩, fun hash removal => ?_⟩
    · obtain ⟨slot, held, holder, rfl⟩ := (pends hash).mp pending
      rw [replays, waits]
      rcases (holds slot held).mp holder with final | ⟨-, before, kept⟩
      · refine ⟨.inr ?_, ?_⟩
        · exact (ledger.restored_of_reopened live.booked live.each orderly
            (mem_of_lastFor final).1).2
        · exact Bool.eq_false_iff.mpr fun removal => stays slot held final ((gone _).mpr removal)
      · exact ⟨.inl ((contains_pending_iff config seating _).mpr ⟨slot, held, before, rfl⟩), kept⟩
    · rw [replays] at waiting
      have stands : standingAfter (SchedulerState.after config earlier) (tail.map (·.payload))
          hash ≠ .gone := by
        rw [waiting]
        nofun
      obtain ⟨-, keyed, held⟩ := ledger.held_of_stands live.booked live.each stands
      rw [← ledger.heldAfter_reopened live.booked live.each orderly, heldAfter] at held
      refine (pends hash).mpr ⟨slotOfDecoded (book hash), book hash, (holds _ _).mpr ?_, keyed⟩
      cases final : lastFor slotOfDecoded (reopened book (tail.map (·.payload)))
        (slotOfDecoded (book hash)) with
      | some last =>
          rw [final, Option.some_or] at held
          exact .inl held
      | none =>
          rw [final, Option.none_or] at held
          exact .inr ⟨rfl, held, by rw [keyed]; exact ((waits hash).mp waiting).2⟩
    · refine Bool.eq_false_iff.mpr fun pending => ?_
      obtain ⟨slot, held, holder, rfl⟩ := (pends hash).mp pending
      rcases (holds slot held).mp holder with final | ⟨-, -, kept⟩
      · exact stays slot held final removal
      · rw [(gone _).mp removal] at kept
        cases kept

/-- The row the pipeline stores for a transaction. -/
def sampleRow (tx : ValidatedTransaction) : TxFullRecord where
  hash := tx.decoded.hash
  txType := tx.decoded.txType
  sender := tx.decoded.sender
  nonce := tx.decoded.nonce
  toAddress := tx.decoded.toAddress
  chainId := tx.decoded.chainId
  valueWei := tx.decoded.valueWei
  gasLimit := tx.decoded.gasLimit
  gasPriceWei := tx.decoded.gasPriceWei
  maxFeePerGasWei := tx.decoded.maxFeePerGasWei
  maxPriorityFeePerGasWei := tx.decoded.maxPriorityFeePerGasWei
  maxFeePerBlobGasWei := tx.decoded.maxFeePerBlobGasWei
  calldataLen := tx.decoded.calldataLen
  rawTx := tx.calldata

/-- Two transactions of one sender and one nonce. -/
def firstTx : ValidatedTransaction := sampleValidatedTx 10 1 0 100

/-- A transaction of hash `11`. -/
def secondTx : ValidatedTransaction := sampleValidatedTx 11 1 0 200

/-- The book of the two transactions. -/
def sampleBook (hash : TxHash) : TxDecoded :=
  if hash = 10 then firstTx.decoded else secondTx.decoded

/-- A storage with the rows of the two transactions. -/
def sampleStorage : InMemoryStorage :=
  ((InMemoryStorage.withConfig {}).upsertTxFull (sampleRow firstTx)).upsertTxFull
    (sampleRow secondTx)

/-- The first transaction is confirmed and reopened before the second one replaces it. -/
def reorgedThenReplaced : List EventEnvelope :=
  [⟨1, 0, 0, "rpc-mainnet", .txConfirmedProvisional ⟨10, 1, 7⟩⟩,
    ⟨2, 0, 0, "rpc-mainnet", .txReorged ⟨10, 7, 8⟩⟩,
    ⟨3, 0, 0, "rpc-mainnet", .txReplaced ⟨10, 11⟩⟩,
    ⟨4, 0, 0, "rpc-mainnet", .txDecoded secondTx.decoded⟩]

theorem live_reorgedThenReplaced :
    LiveTail {} sampleBook sampleStorage [firstTx] [secondTx] reorgedThenReplaced where
  booked := by
    have logged : decodedBy {} ([firstTx] ++ [secondTx]) = [firstTx.decoded, secondTx.decoded] := by
      decide +kernel
    rw [logged]
    intro decoded member
    rcases List.mem_pair.mp member with rfl | rfl <;> rfl
  logged := by decide +kernel
  placed := by
    intro event member hash place named
    simp only [reorgedThenReplaced, List.mem_cons, List.not_mem_nil, or_false] at member
    rcases member with rfl | rfl | rfl | rfl
    · cases named
    · cases named
    · cases named
    · cases named
      rfl
  rows := by
    have logged : decodedBy {} ([firstTx] ++ [secondTx]) = [firstTx.decoded, secondTx.decoded] := by
      decide +kernel
    rw [logged]
    intro decoded member
    rcases List.mem_pair.mp member with rfl | rfl
    · exact ⟨sampleRow firstTx, by decide +kernel, rfl⟩
    · exact ⟨sampleRow secondTx, by decide +kernel, rfl⟩

theorem reorgedThenReplaced_agrees :
    ∃ restored, restoreScheduler {} sampleStorage
        { snapshot := some { (SchedulerState.after {} [firstTx]).persistedSnapshot 0 0 with
            eventSeqHi := 0 }
          replayEvents := reorgedThenReplaced } = .ok restored ∧
      RehydrationAgrees restored
        ((seededFrom (fun _ => .ready)
          { (SchedulerState.after {} [firstTx]).persistedSnapshot 0 0 with eventSeqHi := 0 }).replay
            (reorgedThenReplaced.map (·.payload))) reorgedThenReplaced := by
  have rebuilds : (restoreScheduler {} sampleStorage
      { snapshot := some { (SchedulerState.after {} [firstTx]).persistedSnapshot 0 0 with
          eventSeqHi := 0 }
        replayEvents := reorgedThenReplaced }).isOk = true := by decide +kernel
  cases succeeds : restoreScheduler {} sampleStorage
      { snapshot := some { (SchedulerState.after {} [firstTx]).persistedSnapshot 0 0 with
          eventSeqHi := 0 }
        replayEvents := reorgedThenReplaced } with
  | error =>
      rw [succeeds] at rebuilds
      cases rebuilds
  | ok restored =>
      refine ⟨restored, rfl, (pending_restored_iff_replayed {} sampleBook sampleStorage [firstTx]
        [secondTx] reorgedThenReplaced 0 0 0 (fun _ => .ready) live_reorgedThenReplaced ?_ restored
          succeeds).mpr ?_⟩
      · have start : Orderly (SchedulerState.after {} [firstTx]) [] := by
          intro before payload after whole
          simp at whole
        change Orderly _ ([] ++ [EventPayload.txConfirmedProvisional ⟨10, 1, 7⟩] ++
          [EventPayload.txReorged ⟨10, 7, 8⟩] ++ [EventPayload.txReplaced ⟨10, 11⟩] ++
            [EventPayload.txDecoded secondTx.decoded])
        refine .concat (.concat (.concat (.concat start trivial) (Or.inr ?_)) trivial) trivial
        decide +kernel
      · intro slot last final
        have reopens : reopened sampleBook (reorgedThenReplaced.map (·.payload)) =
            [firstTx.decoded, secondTx.decoded] := by decide +kernel
        rw [reopens] at final
        obtain ⟨member, rfl⟩ := mem_of_lastFor final
        rcases List.mem_pair.mp member with rfl | rfl
        · have second : lastFor slotOfDecoded [firstTx.decoded, secondTx.decoded]
              (slotOfDecoded firstTx.decoded) = some secondTx.decoded := by decide +kernel
          exact absurd (Option.some.inj (final.symm.trans second)) (by decide +kernel)
        · decide +kernel

/-- The first transaction is decoded and confirmed. -/
def decodedThenConfirmed : List EventEnvelope :=
  [⟨1, 0, 0, "rpc-mainnet", .txDecoded firstTx.decoded⟩,
    ⟨2, 0, 0, "rpc-mainnet", .txConfirmedFinal ⟨10, 1, 7⟩⟩]

/-- A transaction that is decoded and confirmed after the snapshot is pending again. -/
theorem decodedThenConfirmed_disagrees :
    LiveTail {} sampleBook sampleStorage [] [firstTx] decodedThenConfirmed ∧
      ∃ restored, restoreScheduler {} sampleStorage
          { snapshot := some (SchedulerState.persistedSnapshot {} 0 0)
            replayEvents := decodedThenConfirmed } = .ok restored ∧
        ¬ RehydrationAgrees restored
          ((seededFrom (fun _ => .ready) (SchedulerState.persistedSnapshot {} 0 0)).replay
            (decodedThenConfirmed.map (·.payload))) decodedThenConfirmed := by
  have logged : decodedBy {} ([] ++ [firstTx]) = [firstTx.decoded] := by decide +kernel
  refine ⟨⟨?_, by decide +kernel, ?_, ?_⟩, ?_⟩
  · rw [logged]
    intro decoded member
    rw [List.mem_singleton.mp member]
    rfl
  · intro event member hash place named
    rcases List.mem_pair.mp member with rfl | rfl
    · cases named
      rfl
    · cases named
  · rw [logged]
    intro decoded member
    rw [List.mem_singleton.mp member]
    exact ⟨sampleRow firstTx, by decide +kernel, rfl⟩
  · have again : (restoreScheduler {} sampleStorage
        { snapshot := some (SchedulerState.persistedSnapshot {} 0 0)
          replayEvents := decodedThenConfirmed }).toOption.map (·.pending.contains 10) =
          some true := by decide +kernel
    cases succeeds : restoreScheduler {} sampleStorage
        { snapshot := some (SchedulerState.persistedSnapshot {} 0 0)
          replayEvents := decodedThenConfirmed } with
    | error =>
        rw [succeeds] at again
        cases again
    | ok restored =>
        rw [succeeds] at again
        refine ⟨restored, rfl, fun agrees => ?_⟩
        exact absurd ((agrees.pending 10).mp (Option.some.inj again)) (by decide +kernel)

end Mempulse.Rehydration
