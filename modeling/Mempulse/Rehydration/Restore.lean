import Mempulse.Library.LastWord
import Mempulse.Rehydration.Plan
import Mempulse.Rehydration.Sanitize
import Mempulse.Scheduler.Readmission

/-!
# Restoring the scheduler

At startup the scheduler is rebuilt from a rehydration plan: the snapshot is sanitized with the
events of the plan and loaded, and then the transactions that these events decode are admitted.

The events can start before the snapshot was captured, so they decode transactions that the
snapshot has, and transactions that it has overtaken. A state and the events that led to it are
related by `Chronicle`; between an older and a newer chronicle the restoration fills in exactly what
has happened (`Chronicle.restored`).
-/

set_option autoImplicit false

namespace Mempulse.Storage

/-- The stored transaction of a hash. -/
def InMemoryStorage.txFullByHash (storage : InMemoryStorage) (hash : TxHash) : Option TxFullRecord :=
  storage.txFull.lookup[hash]?

end Mempulse.Storage

namespace Mempulse.Rehydration

open Std EventLog Library Scheduler Storage

/-! ## The code -/

/-- A stored transaction as the scheduler admits it. -/
def validatedTransactionFromStorageRow (sourceId : SourceId) (observedAtUnixMs : Int64)
    (observedAtMonoNs : UInt64) (row : TxFullRecord) : ValidatedTransaction where
  sourceId := sourceId
  observedAtUnixMs := observedAtUnixMs
  observedAtMonoNs := observedAtMonoNs
  calldata := row.rawTx
  decoded :=
    { hash := row.hash, txType := row.txType, sender := row.sender, nonce := row.nonce
      chainId := row.chainId, toAddress := row.toAddress, valueWei := row.valueWei
      gasLimit := row.gasLimit, gasPriceWei := row.gasPriceWei
      maxFeePerGasWei := row.maxFeePerGasWei
      maxPriorityFeePerGasWei := row.maxPriorityFeePerGasWei
      maxFeePerBlobGasWei := row.maxFeePerBlobGasWei
      calldataLen := row.calldataLen.or (some (UInt32.ofNat (min row.rawTx.length (2 ^ 32 - 1)))) }

/-- The transaction an event makes pending again. -/
def validatedTransactionFromEvent (storage : InMemoryStorage) (event : EventEnvelope) :
    Option ValidatedTransaction :=
  match event.payload with
  | .txDecoded decoded =>
    some
      { sourceId := event.sourceId
        observedAtUnixMs := event.ingestTsUnixMs
        observedAtMonoNs := event.ingestTsMonoNs
        calldata := ((storage.txFullByHash decoded.hash).map (·.rawTx)).getD []
        decoded := decoded }
  | .txReorged reorged =>
    -- The transaction became pending again at this event, not when it was decoded.
    (storage.txFullByHash reorged.hash).map
      (validatedTransactionFromStorageRow event.sourceId event.ingestTsUnixMs event.ingestTsMonoNs)
  | _ => none

/-- The scheduler that `runtime_bootstrap_from_storage_and_rehydration` starts from a plan. -/
def restoreScheduler (config : SchedulerConfig) (storage : InMemoryStorage)
    (plan : SchedulerRehydrationPlan) : Except SchedulerInitError SchedulerState :=
  schedulerChannelWithRehydration config
    (plan.snapshot.map fun snapshot =>
      sanitizeSchedulerSnapshotForRehydration snapshot plan.replayEvents)
    (plan.replayEvents.filterMap (validatedTransactionFromEvent storage))

/-! ## What events say about pending transactions -/

/-- The transaction an event decodes. -/
def decodedOf : EventPayload → Option TxDecoded
  | .txDecoded decoded => some decoded
  | _ => none

/-- The decoded transactions of a log. -/
def decodes (payloads : List EventPayload) : List TxDecoded := payloads.filterMap decodedOf

theorem decodes_append (earlier later : List EventPayload) :
    decodes (earlier ++ later) = decodes earlier ++ decodes later :=
  List.filterMap_append

/-- What is decoded stays when only other events are left out. -/
theorem decodes_filter (keep : EventPayload → Bool)
    (kept : ∀ decoded, keep (.txDecoded decoded) = true) (payloads : List EventPayload) :
    decodes (payloads.filter keep) = decodes payloads := by
  rw [decodes, decodes, List.filterMap_filter]
  refine List.filterMap_congr fun payload _ => ?_
  cases payload with
  | txDecoded decoded => rw [if_pos (kept decoded)]
  | _ => exact ite_self none

/-- The last event that removes or restores the hash removes it. -/
def removed (hash : TxHash) (payloads : List EventPayload) : Bool :=
  flagAfter (fun payload => removes payload = some hash) (fun payload => restores payload = some hash)
    payloads

theorem removedBy_iff_removed (tail : List EventEnvelope) (hash : TxHash) :
    RemovedBy tail hash ↔ removed hash (tail.map (·.payload)) = true := by
  induction tail using List.reverseRecOn with
  | nil => simp [RemovedBy, removed]
  | append_singleton tail event ih =>
      rw [removedBy_append_singleton, ih, List.map_append, List.map_singleton, removed, removed,
        flagAfter_append_singleton]
      simp

/-- Confirmations and reorgs. -/
def isChainEvent : EventPayload → Bool
  | .txConfirmedProvisional _ | .txConfirmedFinal _ | .txReorged _ => true
  | _ => false

/-- Without reorgs the tail makes pending again what it decodes. -/
theorem map_decoded_replayed (storage : InMemoryStorage) {tail : List EventEnvelope}
    (offChain : ∀ event ∈ tail, isChainEvent event.payload = false) :
    (tail.filterMap (validatedTransactionFromEvent storage)).map ValidatedTransaction.decoded =
      decodes (tail.map (·.payload)) := by
  rw [decodes, List.map_filterMap, List.filterMap_map]
  refine List.filterMap_congr fun event member => ?_
  have plain := offChain event member
  rcases event with ⟨seqId, ingestTsUnixMs, ingestTsMonoNs, sourceId, payload⟩
  cases payload <;> first | rfl | cases plain

theorem latestFinalizedOf_eq_none {events : List EventEnvelope}
    (offChain : ∀ event ∈ events, isChainEvent event.payload = false) :
    latestFinalizedOf events = none := by
  induction events using List.reverseRecOn with
  | nil => rfl
  | append_singleton events event ih =>
      rw [latestFinalizedOf, List.foldl_concat, ← latestFinalizedOf,
        ih fun other member => offChain other (List.mem_append_left _ member)]
      have plain := offChain event (by simp)
      unfold noteFinalized
      split
      case h_1 final => rw [final] at plain; cases plain
      case h_2 => rfl

/-! ## Chronicles -/

/-- The events that led to a state: the last decoded transaction of each slot holds it, each paid the
fee bump on those before it, and no pending transaction was removed after it was decoded. -/
structure Chronicle (config : SchedulerConfig) (book : List TxDecoded) (payloads : List EventPayload)
    (state : SchedulerState) : Prop where
  seating : Seating state
  limited : WithinLimit config state
  known : ∀ decoded ∈ decodes payloads, decoded ∈ book
  outbidding : Outbidding slotOfDecoded (Outbids config.replacementFeeBumpBps) (decodes payloads)
  holders : ∀ slot, (schedulerHouse config).holds state slot =
    lastFor slotOfDecoded (decodes payloads) slot
  standing : ∀ (hash : TxHash) (tx : ValidatedTransaction), state.pending[hash]? = some tx →
    removed hash payloads = false
  offChain : ∀ payload ∈ payloads, isChainEvent payload = false

section Chronicle

variable {config : SchedulerConfig} {book : List TxDecoded} {payloads : List EventPayload}
  {state : SchedulerState}

theorem Chronicle.empty (config : SchedulerConfig) (book : List TxDecoded) :
    Chronicle config book [] {} where
  seating := .empty
  limited := (RepresentationInvariant.empty config).withinLimit
  known := fun _ member => nomatch member
  outbidding := List.Pairwise.nil
  holders := fun _ => by simp [schedulerHouse, SchedulerState.occupant, SchedulerState.slot,
    SchedulerState.slotOf, decodes]
  standing := by simp
  offChain := fun _ member => nomatch member

/-- A chronicle is about the pending map and the queues only. -/
theorem Chronicle.congr (chronicle : Chronicle config book payloads state) {other : SchedulerState}
    (pending : other.pending = state.pending) (queues : other.senderQueues = state.senderQueues) :
    Chronicle config book payloads other := by
  have holds : (schedulerHouse config).holds other = (schedulerHouse config).holds state := by
    funext slot
    simp only [schedulerHouse, SchedulerState.occupant, SchedulerState.slot, pending, queues]
  exact
    { seating := chronicle.seating.congr pending queues
      limited := by
        intro sender queue queued
        rw [queues] at queued
        exact chronicle.limited sender queue queued
      known := chronicle.known
      outbidding := chronicle.outbidding
      holders := fun slot => (congrFun holds slot).trans (chronicle.holders slot)
      standing := by
        intro hash tx stored
        rw [pending] at stored
        exact chronicle.standing hash tx stored
      offChain := chronicle.offChain }

/-- A slot is occupied exactly when a transaction was decoded for it. -/
theorem Chronicle.slot_isSome (chronicle : Chronicle config book payloads state) (sender : Address)
    (nonce : UInt64) : (state.slot sender nonce).isSome =
      (lastFor slotOfDecoded (decodes payloads) (sender, nonce)).isSome := by
  rw [← chronicle.holders, ← chronicle.seating.map_hash_occupant, Option.isSome_map]
  exact (Option.isSome_map ..).symm

/-- A pending transaction was decoded. -/
theorem Chronicle.mem_decodes (chronicle : Chronicle config book payloads state) {hash : TxHash}
    {tx : ValidatedTransaction} (stored : state.pending[hash]? = some tx) :
    tx.decoded ∈ decodes payloads := by
  have holder := chronicle.holders (slotOfDecoded tx.decoded)
  have occupied := chronicle.seating.occupant_of_pending stored
  refine (mem_of_lastFor (holder.symm.trans ?_)).1
  change (state.occupant tx.decoded.sender tx.decoded.nonce).map _ = _
  rw [occupied]
  rfl

end Chronicle

/-! ## Restoring -/

theorem schedulerChannelWithRehydration_ok {config : SchedulerConfig}
    {snapshot : PersistedSchedulerSnapshot} {txs : List ValidatedTransaction}
    {restored : SchedulerState}
    (succeeds : schedulerChannelWithRehydration config (some snapshot) txs = .ok restored) :
    ∃ loaded, SchedulerState.fromPersistedSnapshot snapshot = .ok loaded ∧
      restored = txs.foldl (schedulerHouse config).offer loaded := by
  unfold schedulerChannelWithRehydration SchedulerConfig.validate at succeeds
  cases loads : SchedulerState.fromPersistedSnapshot snapshot with
  | ok loaded =>
      simp only [loads] at succeeds
      split at succeeds
      · cases succeeds
      · split at succeeds
        · cases succeeds
        · exact ⟨loaded, rfl, (Except.ok.inj succeeds).symm⟩
  | error error =>
      simp only [loads] at succeeds
      split at succeeds
      · cases succeeds
      · split at succeeds <;> cases succeeds

/-- What is left of a captured state holds what the state held, without the removed hashes. -/
theorem holds_keptState {config : SchedulerConfig} {captured : SchedulerState}
    (seating : Seating captured) (keep : TxHash → Bool) (slot : Address × UInt64) (held : TxDecoded) :
    (schedulerHouse config).holds (keptState keep captured).reloaded slot = some held ↔
      (schedulerHouse config).holds captured slot = some held ∧ keep held.hash = true := by
  change (SchedulerState.occupant _ _ _).map _ = _ ↔
    (captured.occupant slot.1 slot.2).map _ = _ ∧ _
  rw [Option.map_eq_some_iff, Option.map_eq_some_iff]
  have same : ∀ tx, (keptState keep captured).reloaded.occupant slot.1 slot.2 = some tx ↔
      captured.occupant slot.1 slot.2 = some tx ∧ keep tx.hash = true := by
    intro tx
    rw [SchedulerState.occupant_eq_some_iff, SchedulerState.occupant_eq_some_iff]
    have slots : (keptState keep captured).reloaded.slot = (keptState keep captured).slot := by
      funext sender nonce
      rw [SchedulerState.slot, SchedulerState.slot, senderQueues_reloaded]
    rw [slots, pending_reloaded]
    constructor
    · rintro ⟨hash, named, stored⟩
      obtain ⟨namedBefore, keeps⟩ := (slot_keptState _ _ _).mp named
      obtain ⟨storedBefore, -⟩ := (getElem?_pending_keptState _ _).mp stored
      exact ⟨⟨hash, namedBefore, storedBefore⟩, by rw [seating.keyed storedBefore]; exact keeps⟩
    · rintro ⟨⟨hash, named, stored⟩, keeps⟩
      rw [seating.keyed stored] at keeps
      exact ⟨hash, (slot_keptState _ _ _).mpr ⟨named, keeps⟩,
        (getElem?_pending_keptState _ _).mpr ⟨stored, keeps⟩⟩
  constructor
  · rintro ⟨tx, occupied, rfl⟩
    obtain ⟨before, keeps⟩ := (same tx).mp occupied
    exact ⟨⟨tx, before, rfl⟩, keeps⟩
  · rintro ⟨⟨tx, before, rfl⟩, keeps⟩
    exact ⟨tx, (same tx).mpr ⟨before, keeps⟩, rfl⟩

section Restored

variable {config : SchedulerConfig} {book : List TxDecoded} {captured live : SchedulerState}
  {past present : List EventPayload} {earlier overlap rest : List TxDecoded}

/-- What is left of the captured state holds last transactions of its chronicle. -/
theorem Chronicle.holds_keptState (old : Chronicle config book past captured) (keep : TxHash → Bool)
    (slot : Address × UInt64) (held : TxDecoded) :
    (schedulerHouse config).holds (keptState keep captured).reloaded slot = some held ↔
      lastFor slotOfDecoded (decodes past) slot = some held ∧ keep held.hash = true := by
  rw [← old.holders]
  exact Rehydration.holds_keptState old.seating keep slot held

/-- What is left of the captured state is on its way to the live one. -/
theorem Chronicle.toward_keptState (old : Chronicle config book past captured)
    (new : Chronicle config book present live) (before : decodes past = earlier ++ overlap)
    (after : decodes present = earlier ++ overlap ++ rest) (keep : TxHash → Bool) :
    Toward book live (keptState keep captured).reloaded where
  seating := (keptState_seating old.seating).congr pending_reloaded senderQueues_reloaded
  known := by
    intro hash tx stored
    rw [pending_reloaded, getElem?_pending_keptState] at stored
    exact old.known _ (old.mem_decodes stored.1)
  within := by
    intro sender nonce named
    obtain ⟨hash, named⟩ := Option.isSome_iff_exists.mp named
    rw [SchedulerState.slot, senderQueues_reloaded] at named
    have held : (captured.slot sender nonce).isSome := by
      rw [((slot_keptState sender nonce hash).mp named).1]
      rfl
    rw [old.slot_isSome, before] at held
    rw [new.slot_isSome, after, lastFor_append]
    cases lastFor slotOfDecoded rest (sender, nonce) with
    | some _ => rfl
    | none => exact held

/-- A transaction that was decoded has its slot occupied. -/
theorem Chronicle.wanted (chronicle : Chronicle config book present live) {tx : ValidatedTransaction}
    (logged : tx.decoded ∈ decodes present) : Wanted book live tx := by
  refine ⟨chronicle.known _ logged, ?_⟩
  rw [chronicle.slot_isSome]
  cases final : lastFor slotOfDecoded (decodes present) (tx.decoded.sender, tx.decoded.nonce) with
  | none => exact absurd rfl (ne_slot_of_lastFor final logged)
  | some last => rfl

/-- **Restoring a snapshot restores the live transactions.** The snapshot was captured between two
points of the history, and the tail has everything from the first of them on. -/
theorem Chronicle.restored (old : Chronicle config book past captured)
    (new : Chronicle config book present live) (determined : KeyedByHash book)
    {tail : List EventEnvelope} (before : decodes past = earlier ++ overlap)
    (after : decodes present = earlier ++ overlap ++ rest)
    (replayed : decodes (tail.map (·.payload)) = overlap ++ rest)
    (offChain : ∀ event ∈ tail, isChainEvent event.payload = false)
    (recorded : ∀ hash, removed hash (tail.map (·.payload)) = true → removed hash present = true)
    {snapshot : PersistedSchedulerSnapshot} (lists : Scheduler.Lists snapshot captured)
    (frontier : snapshot.executableFrontier = captured.executableFrontierHashes)
    {storage : InMemoryStorage} {plan : SchedulerRehydrationPlan}
    (planned : plan.snapshot = some snapshot) (events : plan.replayEvents = tail)
    {restored : SchedulerState} (succeeds : restoreScheduler config storage plan = .ok restored) :
    SameTransactions restored live := by
  rw [restoreScheduler, planned, events] at succeeds
  obtain ⟨loaded, loads, rfl⟩ := schedulerChannelWithRehydration_ok succeeds
  have whole : loaded = (keptState (kept tail) captured).reloaded := by
    rcases load_sanitized old.seating lists frontier tail with ⟨-, here⟩ | ⟨-, refused⟩
    · exact Except.ok.inj (loads.symm.trans here)
    · exact absurd loads (refused loaded)
  subst whole
  have toward := old.toward_keptState new before after (kept tail)
  have offered := (map_decoded_replayed storage offChain).trans replayed
  have wanted : ∀ tx ∈ tail.filterMap (validatedTransactionFromEvent storage),
      Wanted book live tx := by
    intro tx member
    refine new.wanted ?_
    rw [after, List.append_assoc, ← offered]
    exact List.mem_append_right _ (List.mem_map_of_mem member)
  have newer : ∀ slot held,
      (schedulerHouse config).holds (keptState (kept tail) captured).reloaded slot = some held →
        lastFor slotOfDecoded (earlier ++ overlap) slot = some held := by
    intro slot held holds
    rw [← before]
    exact ((old.holds_keptState _ slot held).mp holds).1
  have untouched : ∀ slot decoded, lastFor slotOfDecoded (overlap ++ rest) slot = none →
      lastFor slotOfDecoded earlier slot = some decoded →
        (schedulerHouse config).holds (keptState (kept tail) captured).reloaded slot =
          some decoded := by
    intro slot decoded silent last
    have inPast : lastFor slotOfDecoded (decodes past) slot = some decoded := by
      have quiet := silent
      rw [lastFor_append, Option.or_eq_none_iff] at quiet
      rw [before, lastFor_append, quiet.2, Option.none_or]
      exact last
    have holder : (schedulerHouse config).holds live slot = some decoded := by
      rw [new.holders, after, List.append_assoc, lastFor_append, silent, Option.none_or]
      exact last
    refine (old.holds_keptState _ slot decoded).mpr ⟨inPast, ?_⟩
    -- The holder is pending now, so the tail does not remove it.
    obtain ⟨tx, occupied, rfl⟩ := Option.map_eq_some_iff.mp holder
    have stands := new.standing tx.hash tx (new.seating.occupant_position occupied).1
    rw [kept, decide_eq_true_eq, removedBy_iff_removed]
    exact fun gone => Bool.eq_false_iff.mp stands (recorded _ gone)
  have fair := schedulerHouse_fair determined new.limited
  have seating := (fair.sound_foldl toward wanted).seating
  refine sameTransactions_of_holds config seating new.seating fun slot => ?_
  rw [new.holders, after]
  exact fair.holds_replay toward wanted offered (after ▸ new.outbidding) newer untouched slot

end Restored

end Mempulse.Rehydration
