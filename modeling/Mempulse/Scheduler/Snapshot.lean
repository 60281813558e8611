import Mempulse.Scheduler.Invariant

/-!
# Loading a persisted snapshot

The loader rebuilds the pending map and the sender queues from lists, refuses duplicates and
entries that do not match a pending transaction, and recounts the queues from scratch. What it
accepts is described by its slots: a slot is filled exactly when some listed entry fills it.

A loaded state meets the representation invariant exactly when the snapshot lists no queues or
lists every pending transaction in some queue (`fromPersistedSnapshot_seating_iff`), and the
snapshot of a reachable state loads back to that state (`snapshot_roundTrip`).
-/

set_option autoImplicit false

namespace Mempulse.Scheduler

open Std Library SchedulerState

/-! ## Inserting queue entries -/

/-- One entry of a persisted queue together with the queue's sender. -/
structure Placement where
  sender : Address
  nonce : UInt64
  hash : TxHash
  deriving DecidableEq

/-- Inserts placements one after another; a slot filled twice is refused. -/
def insertPlacements (queues : ExtTreeMap Address SenderQueue) (placements : List Placement) :
    Except SchedulerSnapshotError (ExtTreeMap Address SenderQueue) :=
  placements.foldlM
    (fun queues placement =>
      insertSenderQueueEntry queues placement.sender placement.nonce placement.hash)
    queues

theorem getD_contains_eq (queues : ExtTreeMap Address SenderQueue) (sender : Address)
    (nonce : UInt64) :
    ((queues[sender]?).getD (∅ : SenderQueue)).contains nonce =
      (slotOf queues sender nonce).isSome := by
  rw [contains_eq_isSome, slotOf]
  cases queues[sender]? with
  | none => simp
  | some queue => rfl

theorem insertSenderQueueEntry_eq_ok_iff {queues result : ExtTreeMap Address SenderQueue}
    {sender : Address} {nonce : UInt64} {hash : TxHash} :
    insertSenderQueueEntry queues sender nonce hash = .ok result ↔
      slotOf queues sender nonce = none ∧ result = insertQueueEntry queues sender nonce hash := by
  rw [insertSenderQueueEntry, getD_contains_eq]
  cases slotOf queues sender nonce with
  | none => simp [eq_comm]
  | some held => simp

/-- What a successful insertion of placements has built. -/
structure Inserted (queues : ExtTreeMap Address SenderQueue) (placements : List Placement)
    (result : ExtTreeMap Address SenderQueue) : Prop where
  slots : ∀ (sender : Address) (nonce : UInt64) (hash : TxHash),
    slotOf result sender nonce = some hash ↔
      slotOf queues sender nonce = some hash ∨ ⟨sender, nonce, hash⟩ ∈ placements
  full : NoEmptyQueue queues → NoEmptyQueue result

theorem insertPlacements_inserted {placements : List Placement} :
    ∀ {queues result : ExtTreeMap Address SenderQueue},
      insertPlacements queues placements = .ok result → Inserted queues placements result := by
  induction placements with
  | nil =>
      intro queues result inserted
      cases inserted
      exact ⟨fun _ _ _ => by simp, id⟩
  | cons placement rest ih =>
      intro queues result inserted
      rw [insertPlacements, List.foldlM_cons] at inserted
      cases entered : insertSenderQueueEntry queues placement.sender placement.nonce
          placement.hash with
      | error refusal =>
          rw [entered] at inserted
          cases inserted
      | ok next =>
          rw [entered] at inserted
          obtain ⟨vacant, rfl⟩ := insertSenderQueueEntry_eq_ok_iff.mp entered
          have later := ih inserted
          refine ⟨?_, fun full => later.full (noEmptyQueue_insertQueueEntry full _ _ _)⟩
          intro sender nonce hash
          rw [later.slots, slotOf_insertQueueEntry, List.mem_cons]
          by_cases here : placement.sender = sender ∧ placement.nonce = nonce
          · obtain ⟨rfl, rfl⟩ := here
            rw [if_pos ⟨rfl, rfl⟩, vacant, Option.some.injEq]
            constructor
            · rintro (rfl | listed)
              · exact Or.inr (Or.inl rfl)
              · exact Or.inr (Or.inr listed)
            · rintro (impossible | same | listed)
              · cases impossible
              · exact Or.inl (congrArg Placement.hash same).symm
              · exact Or.inr listed
          · have differs : Placement.mk sender nonce hash ≠ placement := by
              rintro rfl
              exact here ⟨rfl, rfl⟩
            rw [if_neg here]
            simp only [differs, false_or]

/-- Placements of distinct, vacant slots are all inserted. -/
theorem exists_insertPlacements {placements : List Placement}
    (distinct : placements.Pairwise fun earlier later =>
      ¬ (earlier.sender = later.sender ∧ earlier.nonce = later.nonce)) :
    ∀ queues : ExtTreeMap Address SenderQueue,
      (∀ placement ∈ placements, slotOf queues placement.sender placement.nonce = none) →
      ∃ result, insertPlacements queues placements = .ok result := by
  induction placements with
  | nil => exact fun _ _ => ⟨_, rfl⟩
  | cons placement rest ih =>
      intro queues vacant
      obtain ⟨apart, distinct⟩ := List.pairwise_cons.mp distinct
      have entered : insertSenderQueueEntry queues placement.sender placement.nonce placement.hash =
          .ok (insertQueueEntry queues placement.sender placement.nonce placement.hash) :=
        insertSenderQueueEntry_eq_ok_iff.mpr ⟨vacant placement List.mem_cons_self, rfl⟩
      rw [insertPlacements, List.foldlM_cons, entered]
      refine ih distinct _ fun later member => ?_
      rw [slotOf_insertQueueEntry, if_neg (apart later member)]
      exact vacant later (List.mem_cons_of_mem _ member)

/-! ## The pending map -/

/-- The loader's pending map holds the listed transactions, each under its hash. -/
theorem collectPending_spec {txs : List ValidatedTransaction} :
    ∀ {pending result : ExtTreeMap TxHash ValidatedTransaction},
      collectPending pending txs = .ok result →
      ∀ (hash : TxHash) (tx : ValidatedTransaction), result[hash]? = some tx ↔
        pending[hash]? = some tx ∨ tx ∈ txs ∧ tx.hash = hash := by
  induction txs with
  | nil =>
      intro pending result collected
      cases collected
      simp
  | cons first rest ih =>
      intro pending result collected hash tx
      rw [collectPending] at collected
      split at collected
      case isTrue => cases collected
      case isFalse fresh =>
        have absent : pending[first.hash]? = none := by
          rw [contains_eq_isSome] at fresh
          simpa using fresh
        rw [ih collected, getElem?_insert_eq, List.mem_cons]
        by_cases here : first.hash = hash
        · subst here
          rw [if_pos rfl, absent, Option.some.injEq]
          constructor
          · rintro (rfl | listed)
            · exact Or.inr ⟨Or.inl rfl, rfl⟩
            · exact Or.inr ⟨Or.inr listed.1, listed.2⟩
          · rintro (impossible | ⟨rfl | listed, same⟩)
            · cases impossible
            · exact Or.inl rfl
            · exact Or.inr ⟨listed, same⟩
        · rw [if_neg here]
          constructor
          · rintro (before | listed)
            · exact Or.inl before
            · exact Or.inr ⟨Or.inr listed.1, listed.2⟩
          · rintro (before | ⟨rfl | listed, same⟩)
            · exact Or.inl before
            · exact absurd same here
            · exact Or.inr ⟨listed, same⟩

/-- Transactions with distinct, fresh hashes are all collected. -/
theorem exists_collectPending {txs : List ValidatedTransaction}
    (distinct : txs.Pairwise fun earlier later => earlier.hash ≠ later.hash) :
    ∀ pending : ExtTreeMap TxHash ValidatedTransaction,
      (∀ tx ∈ txs, pending[tx.hash]? = none) →
      ∃ result, collectPending pending txs = .ok result := by
  induction txs with
  | nil => exact fun _ _ => ⟨_, rfl⟩
  | cons first rest ih =>
      intro pending fresh
      obtain ⟨apart, distinct⟩ := List.pairwise_cons.mp distinct
      have absent : ¬ pending.contains first.hash = true := by
        rw [contains_eq_isSome, fresh first List.mem_cons_self]
        exact Bool.false_ne_true
      rw [collectPending, if_neg absent]
      refine ih distinct _ fun later member => ?_
      rw [getElem?_insert_eq, if_neg (apart later member)]
      exact fresh later (List.mem_cons_of_mem _ member)

/-! ## The two queue builders -/

/-- The placement of a pending transaction. -/
def ValidatedTransaction.placement (tx : ValidatedTransaction) : Placement :=
  ⟨tx.decoded.sender, tx.decoded.nonce, tx.hash⟩

/-- The entries of the persisted queues, in order. -/
def placementsOf (persistedSenderQueues : List PersistedSenderQueueSnapshot) : List Placement :=
  persistedSenderQueues.flatMap fun persisted =>
    persisted.queued.map fun entry => ⟨persisted.sender, entry.nonce, entry.hash⟩

/-- The placement names a pending transaction with its sender and nonce. -/
def Placement.Matches (pending : ExtTreeMap TxHash ValidatedTransaction) (placement : Placement) :
    Prop :=
  ∃ tx, pending[placement.hash]? = some tx ∧ tx.decoded.sender = placement.sender ∧
    tx.decoded.nonce = placement.nonce

theorem buildSenderQueuesFromPending_eq (pending : ExtTreeMap TxHash ValidatedTransaction) :
    buildSenderQueuesFromPending pending =
      insertPlacements ∅ (pending.toList.map fun entry => entry.2.placement) := by
  rw [buildSenderQueuesFromPending, insertPlacements, List.foldlM_map, List.foldlM_map]
  rfl

section Restore

variable {pending : ExtTreeMap TxHash ValidatedTransaction}

theorem restoreQueueEntry_of_matches {sender : Address} (entry : PersistedSenderQueueEntry)
    (fits : Placement.Matches pending ⟨sender, entry.nonce, entry.hash⟩)
    (queues : ExtTreeMap Address SenderQueue) :
    restoreQueueEntry pending sender queues entry =
      insertSenderQueueEntry queues sender entry.nonce entry.hash := by
  obtain ⟨tx, stored, sameSender, sameNonce⟩ := fits
  dsimp only at stored sameSender sameNonce
  rw [restoreQueueEntry, stored]
  dsimp only
  rw [if_neg]
  rintro (differs | differs)
  · exact differs sameSender
  · exact differs sameNonce

theorem matches_of_restoreQueueEntry {sender : Address} {entry : PersistedSenderQueueEntry}
    {queues result : ExtTreeMap Address SenderQueue}
    (restored : restoreQueueEntry pending sender queues entry = .ok result) :
    Placement.Matches pending ⟨sender, entry.nonce, entry.hash⟩ := by
  rw [restoreQueueEntry] at restored
  split at restored
  case h_1 => cases restored
  case h_2 tx stored =>
    split at restored
    case isTrue => cases restored
    case isFalse fits =>
      rw [not_or, not_not, not_not] at fits
      exact ⟨tx, stored, fits.1, fits.2⟩

/-- Restoring the persisted queues checks every entry and inserts them all. -/
theorem foldlM_restore_eq_ok_iff (placements : List Placement) :
    ∀ {queues result : ExtTreeMap Address SenderQueue},
      placements.foldlM (fun queues placement =>
          restoreQueueEntry pending placement.sender queues ⟨placement.nonce, placement.hash⟩)
          queues = .ok result ↔
        (∀ placement ∈ placements, placement.Matches pending) ∧
          insertPlacements queues placements = .ok result := by
  induction placements with
  | nil => simp [insertPlacements]
  | cons placement rest ih =>
      intro queues result
      rw [List.foldlM_cons, List.forall_mem_cons]
      constructor
      · intro restored
        cases first : restoreQueueEntry pending placement.sender queues
            ⟨placement.nonce, placement.hash⟩ with
        | error refusal =>
            rw [first] at restored
            cases restored
        | ok next =>
            rw [first] at restored
            have fits := matches_of_restoreQueueEntry first
            obtain ⟨others, inserted⟩ := ih.mp restored
            refine ⟨⟨fits, others⟩, ?_⟩
            rw [restoreQueueEntry_of_matches _ fits] at first
            rw [insertPlacements, List.foldlM_cons, first]
            exact inserted
      · rintro ⟨⟨fits, others⟩, inserted⟩
        rw [restoreQueueEntry_of_matches ⟨placement.nonce, placement.hash⟩ fits]
        rw [insertPlacements, List.foldlM_cons] at inserted
        cases first : insertSenderQueueEntry queues placement.sender placement.nonce
            placement.hash with
        | error refusal =>
            rw [first] at inserted
            cases inserted
        | ok next =>
            rw [first] at inserted
            exact ih.mpr ⟨others, inserted⟩

theorem buildSenderQueuesFromSnapshot_eq_ok_iff
    {persistedSenderQueues : List PersistedSenderQueueSnapshot}
    {result : ExtTreeMap Address SenderQueue} :
    buildSenderQueuesFromSnapshot persistedSenderQueues pending = .ok result ↔
      (∀ placement ∈ placementsOf persistedSenderQueues, placement.Matches pending) ∧
        insertPlacements ∅ (placementsOf persistedSenderQueues) = .ok result := by
  have flattened : ∀ queues : ExtTreeMap Address SenderQueue,
      persistedSenderQueues.foldlM (fun queues persisted =>
        persisted.queued.foldlM (restoreQueueEntry pending persisted.sender) queues) queues =
      (placementsOf persistedSenderQueues).foldlM (fun queues placement =>
        restoreQueueEntry pending placement.sender queues ⟨placement.nonce, placement.hash⟩)
        queues := by
    induction persistedSenderQueues with
    | nil => exact fun _ => rfl
    | cons persisted rest ih =>
        intro queues
        rw [placementsOf, List.flatMap_cons, List.foldlM_append, List.foldlM_cons, List.foldlM_map]
        exact bind_congr ih
  rw [buildSenderQueuesFromSnapshot, flattened, foldlM_restore_eq_ok_iff]

end Restore

/-! ## Recounting from scratch -/

/-- Part way through the recount: the senders done so far are counted, the others are not, and
the totals are those of the counts. -/
structure Recounting (done : List Address) (state : SchedulerState) : Prop where
  seating : Seating state
  counted : ∀ sender : Address, state.senderQueueCounts[sender]? =
    if sender ∈ done then (state.senderQueues[sender]?).map state.classifySenderQueueCounts
    else none
  ready : state.pending.size ≤ usizeMax →
    state.readyTotal = weightOf (fun _ counts => counts.ready) state.senderQueueCounts
  blocked : state.pending.size ≤ usizeMax →
    state.blockedTotal = weightOf (fun _ counts => counts.blocked) state.senderQueueCounts

/-- Counts taken from the queues sum to no more than the pending transactions. -/
theorem Seating.weightOf_counts_le {state : SchedulerState} (seating : Seating state)
    {counts : ExtTreeMap Address SenderQueueCounts}
    (classified : ∀ (sender : Address) (stored : SenderQueueCounts),
      counts[sender]? = some stored →
        (state.senderQueues[sender]?).map state.classifySenderQueueCounts = some stored)
    {part : SenderQueueCounts → Nat}
    (isPart : ∀ counts, part counts ≤ counts.ready + counts.blocked) :
    weightOf (fun _ counts => part counts) counts ≤ state.pending.size := by
  refine Nat.le_trans (weightOf_le_of_present state.senderQueues ?_)
    (seating.recount_le isPart)
  intro sender stored found
  obtain ⟨queue, queued, rfl⟩ := Option.map_eq_some_iff.mp (classified sender stored found)
  exact ⟨queue, queued, Nat.le_refl _⟩

theorem Recounting.refresh {done : List Address} {state : SchedulerState}
    (recounting : Recounting done state) (sender : Address) :
    Recounting (sender :: done) (state.refreshSenderCounts sender) := by
  have seating : Seating (state.refreshSenderCounts sender) := recounting.seating.congr rfl rfl
  have counted : ∀ other : Address,
      (state.refreshSenderCounts sender).senderQueueCounts[other]? =
        if other ∈ sender :: done then
          (state.senderQueues[other]?).map state.classifySenderQueueCounts
        else none := by
    intro other
    by_cases same : sender = other
    · subst same
      rw [if_pos List.mem_cons_self]
      exact recounting.seating.counted_refresh sender
    · rw [getElem?_senderQueueCounts_refresh, if_neg same, recounting.counted]
      simp only [List.mem_cons, Ne.symm same, false_or]
  have classified : ∀ (other : Address) (stored : SenderQueueCounts),
      (state.refreshSenderCounts sender).senderQueueCounts[other]? = some stored →
        (state.senderQueues[other]?).map state.classifySenderQueueCounts = some stored := by
    intro other stored found
    rw [counted] at found
    split at found
    case isTrue => exact found
    case isFalse => cases found
  refine ⟨seating, counted, fun fits => ?_, fun fits => ?_⟩
  · rw [← total_refresh state sender (·.ready) rfl
      ((seating.weightOf_counts_le classified fun _ => Nat.le_add_right _ _).trans fits), ← recounting.ready fits]
    rfl
  · rw [← total_refresh state sender (·.blocked) rfl
      ((seating.weightOf_counts_le classified fun _ => Nat.le_add_left _ _).trans fits), ← recounting.blocked fits]
    rfl

theorem Recounting.refreshAll {done : List Address} {state : SchedulerState}
    (recounting : Recounting done state) (senders : List Address) :
    Recounting (senders.reverse ++ done) (senders.foldl refreshSenderCounts state) := by
  induction senders generalizing done state with
  | nil => exact recounting
  | cons sender rest ih =>
      rw [List.reverse_cons, List.append_assoc]
      exact ih (recounting.refresh sender)

@[simp] theorem pending_foldl_refresh (senders : List Address) (state : SchedulerState) :
    (senders.foldl refreshSenderCounts state).pending = state.pending := by
  induction senders generalizing state with
  | nil => rfl
  | cons sender rest ih => exact ih (state.refreshSenderCounts sender)

@[simp] theorem senderQueues_foldl_refresh (senders : List Address) (state : SchedulerState) :
    (senders.foldl refreshSenderCounts state).senderQueues = state.senderQueues := by
  induction senders generalizing state with
  | nil => rfl
  | cons sender rest ih => exact ih (state.refreshSenderCounts sender)

@[simp] theorem pending_recomputeQueueCounts (state : SchedulerState) :
    state.recomputeQueueCounts.pending = state.pending := by
  rw [recomputeQueueCounts, pending_foldl_refresh]

@[simp] theorem senderQueues_recomputeQueueCounts (state : SchedulerState) :
    state.recomputeQueueCounts.senderQueues = state.senderQueues := by
  rw [recomputeQueueCounts, senderQueues_foldl_refresh]

/-- A recount from scratch tallies a seated state. -/
theorem Tally.recomputeQueueCounts {state : SchedulerState} (seating : Seating state) :
    Tally state.recomputeQueueCounts := by
  have start : Recounting []
      { state with senderQueueCounts := ∅, readyTotal := 0, blockedTotal := 0 } := by
    refine ⟨seating.congr rfl rfl, by simp, ?_, ?_⟩ <;> simp
  have finished := start.refreshAll state.senderQueues.keys
  rw [List.append_nil] at finished
  have counted : ∀ sender : Address, state.recomputeQueueCounts.senderQueueCounts[sender]? =
      (state.recomputeQueueCounts.senderQueues[sender]?).map
        state.recomputeQueueCounts.classifySenderQueueCounts := by
    intro sender
    refine (finished.counted sender).trans ?_
    split
    case isTrue => rfl
    case isFalse absent =>
      rw [senderQueues_recomputeQueueCounts]
      cases queued : state.senderQueues[sender]? with
      | none => rfl
      | some queue =>
          rw [List.mem_reverse, mem_keys_iff_exists] at absent
          exact absurd ⟨queue, queued⟩ absent
  refine ⟨counted, fun fits => ?_, fun fits => ?_⟩
  · rw [← weightOf_counts_eq_recount counted (·.ready)]
    exact finished.ready fits
  · rw [← weightOf_counts_eq_recount counted (·.blocked)]
    exact finished.blocked fits

/-! ## What the loader accepts -/

theorem getElem?_of_mem_queuePositions {queue : SenderQueue} {position : SenderQueuePosition}
    (member : position ∈ queuePositions queue) : queue[position.nonce]? = some position.hash := by
  obtain ⟨visited, scanned, rfl⟩ := List.mem_map.mp member
  have listed : visited.1 ∈ queue.toList := by
    rw [← GapCursor.map_fst_scan checkedSucc {} queue.toList]
    exact List.mem_map_of_mem scanned
  exact mem_toList.mp listed

/-- The ready transactions are those of the executable frontier. -/
theorem Seating.map_hash_classifyReady {state : SchedulerState} (seating : Seating state) :
    state.classifyReady.map ValidatedTransaction.hash = state.executableFrontierHashes := by
  rw [classifyReady, executableFrontierHashes, List.map_flatMap]
  refine List.flatMap_congr fun queue member => ?_
  obtain ⟨⟨sender, _⟩, listed, rfl⟩ := List.mem_map.mp member
  have queued := mem_toList.mp listed
  rw [seating.walkQueue_eq queued, List.map_filterMap, ← List.filterMap_eq_map]
  refine List.filterMap_congr fun position kept => ?_
  obtain ⟨tx, stored, -, -⟩ := seating.occupied (slot_eq_some_iff.mpr
    ⟨_, queued, getElem?_of_mem_queuePositions (List.mem_of_mem_filter kept)⟩)
  rw [stored, Option.map_some, seating.keyed stored]
  rfl

/-- What the loader has built from a snapshot it accepts. -/
structure Loaded (snapshot : PersistedSchedulerSnapshot) (state : SchedulerState) : Prop where
  pending : ∀ (hash : TxHash) (tx : ValidatedTransaction),
    state.pending[hash]? = some tx ↔ tx ∈ snapshot.pending ∧ tx.hash = hash
  slots : ∀ (sender : Address) (nonce : UInt64) (hash : TxHash),
    state.slot sender nonce = some hash ↔
      if snapshot.senderQueues = [] then
        ∃ tx ∈ snapshot.pending, tx.placement = ⟨sender, nonce, hash⟩
      else ⟨sender, nonce, hash⟩ ∈ placementsOf snapshot.senderQueues
  listed : ∀ placement ∈ placementsOf snapshot.senderQueues, placement.Matches state.pending
  full : NoEmptyQueue state.senderQueues
  recounted : state = recomputeQueueCounts
    { pending := state.pending, senderQueues := state.senderQueues }
  frontier : snapshot.executableFrontier ≠ [] →
    state.classifyReady.map ValidatedTransaction.hash = snapshot.executableFrontier

/-- The queues the loader builds over a pending map. -/
def loadQueues (snapshot : PersistedSchedulerSnapshot)
    (pending : ExtTreeMap TxHash ValidatedTransaction) :
    Except SchedulerSnapshotError (ExtTreeMap Address SenderQueue) :=
  if snapshot.senderQueues.isEmpty then buildSenderQueuesFromPending pending
  else buildSenderQueuesFromSnapshot snapshot.senderQueues pending

/-- The loader step by step. -/
theorem fromPersistedSnapshot_eq_ok_iff {snapshot : PersistedSchedulerSnapshot}
    {state : SchedulerState} :
    fromPersistedSnapshot snapshot = .ok state ↔
      ∃ pending queues, collectPending ∅ snapshot.pending = .ok pending ∧
        loadQueues snapshot pending = .ok queues ∧
        state = recomputeQueueCounts { pending := pending, senderQueues := queues } ∧
        (snapshot.executableFrontier ≠ [] →
          state.classifyReady.map ValidatedTransaction.hash = snapshot.executableFrontier) := by
  have unfolded : fromPersistedSnapshot snapshot =
      (collectPending ∅ snapshot.pending).bind fun pending =>
        (loadQueues snapshot pending).bind fun queues =>
          let state := recomputeQueueCounts { pending := pending, senderQueues := queues }
          if snapshot.executableFrontier ≠ [] ∧
              state.classifyReady.map ValidatedTransaction.hash ≠ snapshot.executableFrontier then
            .error .executableFrontierMismatch
          else .ok state := by
    unfold fromPersistedSnapshot loadQueues
    split <;> rfl
  rw [unfolded]
  cases collectPending ∅ snapshot.pending with
  | error refusal => simp [Except.bind]
  | ok pending =>
      cases queuesLoaded : loadQueues snapshot pending with
      | error refusal => simp [Except.bind, queuesLoaded]
      | ok queues =>
          simp only [Except.bind, queuesLoaded]
          split
          case isTrue mismatch =>
            constructor
            · rintro ⟨⟩
            · rintro ⟨_, _, ⟨⟩, rebuilt, rfl, agrees⟩
              cases queuesLoaded.symm.trans rebuilt
              exact absurd (agrees mismatch.1) mismatch.2
          case isFalse agrees =>
            rw [not_and, not_not] at agrees
            constructor
            · rintro ⟨⟩
              exact ⟨pending, queues, rfl, queuesLoaded, rfl, agrees⟩
            · rintro ⟨_, _, ⟨⟩, rebuilt, rfl, -⟩
              cases queuesLoaded.symm.trans rebuilt
              rfl

theorem loaded_of_fromPersistedSnapshot {snapshot : PersistedSchedulerSnapshot}
    {state : SchedulerState} (accepted : fromPersistedSnapshot snapshot = .ok state) :
    Loaded snapshot state := by
  obtain ⟨pending, queues, collected, queued, rfl, frontier⟩ :=
    fromPersistedSnapshot_eq_ok_iff.mp accepted
  have held : ∀ (hash : TxHash) (tx : ValidatedTransaction),
      pending[hash]? = some tx ↔ tx ∈ snapshot.pending ∧ tx.hash = hash := by
    intro hash tx
    rw [collectPending_spec collected]
    simp
  have none : ∀ (sender : Address) (nonce : UInt64),
      slotOf (∅ : ExtTreeMap Address SenderQueue) sender nonce = none := by simp [slotOf]
  have emptyFull : NoEmptyQueue (∅ : ExtTreeMap Address SenderQueue) := by simp [NoEmptyQueue]
  have frame : (recomputeQueueCounts
        { pending := pending, senderQueues := queues }).pending = pending ∧
      (recomputeQueueCounts { pending := pending, senderQueues := queues }).senderQueues = queues := by
    simp
  refine ⟨?_, ?_, ?_, ?_, ?_, frontier⟩
  · rw [frame.1]; exact held
  · intro sender nonce hash
    rw [slot, frame.2]
    rw [loadQueues] at queued
    split at queued
    case isTrue empty =>
      rw [List.isEmpty_iff] at empty
      rw [buildSenderQueuesFromPending_eq] at queued
      rw [if_pos empty, (insertPlacements_inserted queued).slots, none]
      simp only [reduceCtorEq, false_or, List.mem_map]
      constructor
      · rintro ⟨entry, listed, same⟩
        exact ⟨entry.2, ((held _ _).mp (mem_toList.mp listed)).1, same⟩
      · rintro ⟨tx, listed, same⟩
        exact ⟨(tx.hash, tx), mem_toList.mpr ((held _ _).mpr ⟨listed, rfl⟩), same⟩
    case isFalse nonempty =>
      rw [List.isEmpty_iff] at nonempty
      have inserted := (buildSenderQueuesFromSnapshot_eq_ok_iff.mp queued).2
      rw [if_neg nonempty, (insertPlacements_inserted inserted).slots, none]
      simp
  · rw [frame.1]
    rw [loadQueues] at queued
    split at queued
    case isTrue empty =>
      rw [List.isEmpty_iff] at empty
      simp [empty, placementsOf]
    case isFalse => exact (buildSenderQueuesFromSnapshot_eq_ok_iff.mp queued).1
  · rw [frame.2]
    rw [loadQueues] at queued
    split at queued
    case isTrue =>
      rw [buildSenderQueuesFromPending_eq] at queued
      exact (insertPlacements_inserted queued).full emptyFull
    case isFalse =>
      have inserted := (buildSenderQueuesFromSnapshot_eq_ok_iff.mp queued).2
      exact (insertPlacements_inserted inserted).full emptyFull
  · rw [frame.1, frame.2]

/-- Every pending transaction of the snapshot is listed in some queue of it. -/
def PersistedSchedulerSnapshot.QueuesCoverPending (snapshot : PersistedSchedulerSnapshot) : Prop :=
  ∀ tx ∈ snapshot.pending, ∃ persisted ∈ snapshot.senderQueues, ∃ entry ∈ persisted.queued,
    entry.hash = tx.hash

instance : DecidablePred PersistedSchedulerSnapshot.QueuesCoverPending := fun snapshot =>
  inferInstanceAs (Decidable (∀ tx ∈ snapshot.pending, ∃ persisted ∈ snapshot.senderQueues,
    ∃ entry ∈ persisted.queued, entry.hash = tx.hash))

namespace Loaded

variable {snapshot : PersistedSchedulerSnapshot} {state : SchedulerState}
  (loaded : Loaded snapshot state)
include loaded

theorem keyed {hash : TxHash} {tx : ValidatedTransaction}
    (stored : state.pending[hash]? = some tx) : tx.hash = hash :=
  ((loaded.pending hash tx).mp stored).2

/-- A slot of a loaded state names a pending transaction of that sender and nonce. -/
theorem occupied {sender : Address} {nonce : UInt64} {hash : TxHash}
    (named : state.slot sender nonce = some hash) : ∃ tx, state.pending[hash]? = some tx ∧
      tx.decoded.sender = sender ∧ tx.decoded.nonce = nonce := by
  rw [loaded.slots] at named
  split at named
  case isTrue =>
    obtain ⟨tx, listed, same⟩ := named
    cases same
    exact ⟨tx, (loaded.pending _ _).mpr ⟨listed, rfl⟩, rfl, rfl⟩
  case isFalse => exact loaded.listed _ named

theorem seating (covered : snapshot.senderQueues = [] ∨ snapshot.QueuesCoverPending) :
    Seating state where
  keyed := loaded.keyed
  seated := by
    intro hash tx stored
    obtain ⟨listed, same⟩ := (loaded.pending hash tx).mp stored
    rw [loaded.slots]
    split
    case isTrue => exact ⟨tx, listed, by rw [← same]; rfl⟩
    case isFalse nonempty =>
      obtain ⟨persisted, inQueues, entry, inQueue, named⟩ := covered.resolve_left nonempty tx listed
      have placed : ⟨persisted.sender, entry.nonce, entry.hash⟩ ∈
          placementsOf snapshot.senderQueues :=
        List.mem_flatMap.mpr ⟨persisted, inQueues, List.mem_map.mpr ⟨entry, inQueue, rfl⟩⟩
      obtain ⟨other, found, sameSender, sameNonce⟩ := loaded.listed _ placed
      dsimp only at found sameSender sameNonce
      rw [named, same, stored] at found
      cases found
      rw [named, same, ← sameSender, ← sameNonce] at placed
      exact placed
  occupied := loaded.occupied
  nonempty := loaded.full _ _

/-- A loaded state that is seated is tallied. -/
theorem tally (seating : Seating state) : Tally state := by
  have bare : Seating { pending := state.pending, senderQueues := state.senderQueues } :=
    seating.congr rfl rfl
  have recounted := Tally.recomputeQueueCounts bare
  rw [← loaded.recounted] at recounted
  exact recounted

end Loaded

/-- **A loaded state meets the representation invariant exactly when the snapshot lists no
queues, leaving the loader to derive them, or lists every pending transaction in a queue.** -/
theorem fromPersistedSnapshot_seating_iff {snapshot : PersistedSchedulerSnapshot}
    {state : SchedulerState} (accepted : fromPersistedSnapshot snapshot = .ok state) :
    (Seating state ∧ OnePerSlot state ∧ Tally state) ↔
      snapshot.senderQueues = [] ∨ snapshot.QueuesCoverPending := by
  have loaded := loaded_of_fromPersistedSnapshot accepted
  constructor
  · rintro ⟨seating, -, -⟩
    rw [or_iff_not_imp_left]
    intro nonempty tx listed
    have slot := seating.seated ((loaded.pending tx.hash tx).mpr ⟨listed, rfl⟩)
    rw [loaded.slots, if_neg nonempty] at slot
    obtain ⟨persisted, inQueues, inQueue⟩ := List.mem_flatMap.mp slot
    obtain ⟨entry, member, same⟩ := List.mem_map.mp inQueue
    exact ⟨persisted, inQueues, entry, member, congrArg Placement.hash same⟩
  · intro covered
    have seating := loaded.seating covered
    exact ⟨seating, seating.onePerSlot, loaded.tally seating⟩

/-- A snapshot that lists two pending transactions and queues only the first. -/
def partlyQueuedSnapshot : PersistedSchedulerSnapshot where
  capturedAtUnixMs := 0
  capturedAtMonoNs := 0
  eventSeqHi := 0
  pending := [sampleValidatedTx 10 1 7 100, sampleValidatedTx 11 2 4 100]
  executableFrontier := [10]
  senderQueues := [⟨1, [⟨7, 10⟩]⟩]

/-- The loader accepts it with the second transaction in no queue. -/
theorem partlyQueuedSnapshot_accepted : ∃ state,
    fromPersistedSnapshot partlyQueuedSnapshot = .ok state ∧
      state.pending[(11 : TxHash)]? = some (sampleValidatedTx 11 2 4 100) ∧ ¬ Seating state := by
  have outcome : (fromPersistedSnapshot partlyQueuedSnapshot).toOption.map (fun state =>
      (state.pending[(11 : TxHash)]?, state.slot 2 4)) =
        some (some (sampleValidatedTx 11 2 4 100), none) := by
    decide +kernel
  cases accepted : fromPersistedSnapshot partlyQueuedSnapshot with
  | error refusal =>
      rw [accepted] at outcome
      cases outcome
  | ok state =>
      rw [accepted] at outcome
      obtain ⟨held, vacant⟩ := Prod.mk.inj (Option.some.inj outcome)
      refine ⟨state, rfl, held, fun seating => ?_⟩
      have sits := seating.seated held
      exact absurd (sits.symm.trans vacant) (by simp)

/-- With both transactions queued the loaded state meets the invariant. -/
theorem fullyQueuedSnapshot_seating : ∃ state,
    fromPersistedSnapshot
      { partlyQueuedSnapshot with
        executableFrontier := [10, 11]
        senderQueues := [⟨1, [⟨7, 10⟩]⟩, ⟨2, [⟨4, 11⟩]⟩] } = .ok state ∧
      Seating state ∧ OnePerSlot state ∧ Tally state := by
  cases accepted : fromPersistedSnapshot
      { partlyQueuedSnapshot with
        executableFrontier := [10, 11]
        senderQueues := [⟨1, [⟨7, 10⟩]⟩, ⟨2, [⟨4, 11⟩]⟩] } with
  | error refusal =>
      have refused : _ = false := congrArg Except.isOk accepted
      exact absurd refused (by decide +kernel)
  | ok state =>
      exact ⟨state, rfl, (fromPersistedSnapshot_seating_iff accepted).mpr (Or.inr (by decide +kernel))⟩

/-! ## Loading what a state has persisted -/

/-- The state a load starts from: the pending map and the queues, recounted. -/
def SchedulerState.reloaded (state : SchedulerState) : SchedulerState :=
  recomputeQueueCounts { pending := state.pending, senderQueues := state.senderQueues }

/-- The snapshot lists the transactions and the queues of a state. -/
structure Lists (snapshot : PersistedSchedulerSnapshot) (state : SchedulerState) : Prop where
  pending : snapshot.pending = state.pending.toList.map Prod.snd
  senderQueues : snapshot.senderQueues = state.persistedSenderQueueSnapshots

theorem lists_persistedSnapshot (state : SchedulerState) (capturedAtUnixMs : Int64)
    (capturedAtMonoNs : UInt64) :
    Lists (state.persistedSnapshot capturedAtUnixMs capturedAtMonoNs) state :=
  ⟨rfl, rfl⟩

theorem mem_placementsOf_persisted {state : SchedulerState} {placement : Placement} :
    placement ∈ placementsOf state.persistedSenderQueueSnapshots ↔
      state.slot placement.sender placement.nonce = some placement.hash := by
  rw [placementsOf, List.mem_flatMap, slot_eq_some_iff]
  constructor
  · rintro ⟨persisted, inQueues, inQueue⟩
    obtain ⟨⟨sender, queue⟩, listed, rfl⟩ := List.mem_map.mp inQueues
    obtain ⟨entry, member, rfl⟩ := List.mem_map.mp inQueue
    obtain ⟨⟨nonce, hash⟩, queued, rfl⟩ := List.mem_map.mp member
    exact ⟨queue, mem_toList.mp listed, mem_toList.mp queued⟩
  · rintro ⟨queue, queued, entry⟩
    have listed : (placement.sender, queue) ∈ state.senderQueues.toList := mem_toList.mpr queued
    refine ⟨_, List.mem_map_of_mem listed, ?_⟩
    refine List.mem_map.mpr ⟨⟨placement.nonce, placement.hash⟩, ?_, rfl⟩
    exact List.mem_map.mpr ⟨(placement.nonce, placement.hash), mem_toList.mpr entry, rfl⟩

/-- A persisted state lists every slot once. -/
theorem placementsOf_persisted_pairwise (state : SchedulerState) :
    (placementsOf state.persistedSenderQueueSnapshots).Pairwise fun earlier later =>
      ¬ (earlier.sender = later.sender ∧ earlier.nonce = later.nonce) := by
  rw [placementsOf, persistedSenderQueueSnapshots, List.pairwise_flatMap]
  constructor
  · intro persisted member
    obtain ⟨entry, -, rfl⟩ := List.mem_map.mp member
    dsimp only
    rw [List.map_map, List.pairwise_map]
    exact (toList_pairwise_ne entry.2).imp fun differs both => differs both.2
  · rw [List.pairwise_map]
    refine (toList_pairwise_ne state.senderQueues).imp fun differs => ?_
    intro earlier fromFirst later fromSecond both
    obtain ⟨_, -, rfl⟩ := List.mem_map.mp fromFirst
    obtain ⟨_, -, rfl⟩ := List.mem_map.mp fromSecond
    exact differs both.1

section Reload

variable {snapshot : PersistedSchedulerSnapshot} {state : SchedulerState}

theorem Lists.collectPending (lists : Lists snapshot state) (seating : Seating state) :
    Scheduler.collectPending ∅ snapshot.pending = .ok state.pending := by
  have distinct : snapshot.pending.Pairwise fun earlier later => earlier.hash ≠ later.hash := by
    rw [lists.pending, List.pairwise_map]
    refine (toList_pairwise_ne state.pending).imp_of_mem fun first second differs => ?_
    rw [seating.keyed (mem_toList.mp first), seating.keyed (mem_toList.mp second)]
    exact differs
  obtain ⟨pending, collected⟩ := exists_collectPending distinct ∅ (by simp)
  rw [collected, Except.ok.injEq]
  apply ExtTreeMap.ext_getElem?
  intro hash
  ext tx
  rw [collectPending_spec collected, lists.pending, List.mem_map]
  constructor
  · rintro (impossible | ⟨⟨entry, listed, rfl⟩, same⟩)
    · simp at impossible
    · rw [← same, seating.keyed (mem_toList.mp listed)]
      exact mem_toList.mp listed
  · intro stored
    exact Or.inr ⟨⟨(hash, tx), mem_toList.mpr stored, rfl⟩, seating.keyed stored⟩

theorem Seating.pending_eq_empty (seating : Seating state) (none : state.senderQueues = ∅) :
    state.pending = ∅ := by
  apply ExtTreeMap.ext_getElem?
  intro hash
  cases stored : state.pending[hash]? with
  | none => simp
  | some tx =>
      have sits := seating.seated stored
      simp [slot, slotOf, none] at sits

theorem Lists.loadQueues (lists : Lists snapshot state) (seating : Seating state) :
    Scheduler.loadQueues snapshot state.pending = .ok state.senderQueues := by
  rw [Scheduler.loadQueues, lists.senderQueues]
  split
  case isTrue empty =>
    have none : state.senderQueues = ∅ := by
      rw [List.isEmpty_iff, persistedSenderQueueSnapshots, List.map_eq_nil_iff] at empty
      exact ExtTreeMap.toList_eq_nil_iff.mp empty
    rw [seating.pending_eq_empty none, none, buildSenderQueuesFromPending_eq,
      ExtTreeMap.toList_eq_nil_iff.mpr rfl]
    rfl
  case isFalse =>
    have vacant : ∀ (sender : Address) (nonce : UInt64),
        slotOf (∅ : ExtTreeMap Address SenderQueue) sender nonce = none := by simp [slotOf]
    obtain ⟨queues, inserted⟩ := exists_insertPlacements
      (placementsOf_persisted_pairwise state) ∅ fun placement _ => vacant _ _
    have built := insertPlacements_inserted inserted
    rw [buildSenderQueuesFromSnapshot_eq_ok_iff]
    refine ⟨fun placement member => ?_, ?_⟩
    · exact seating.occupied (mem_placementsOf_persisted.mp member)
    · rw [inserted, Except.ok.injEq]
      refine queues_ext (built.full (by simp [NoEmptyQueue]))
        (fun _ _ => seating.nonempty) fun sender nonce => ?_
      ext hash
      rw [built.slots, vacant, mem_placementsOf_persisted]
      simp [slot]

/-- The frontier depends on the pending map and the queues only. -/
theorem executableFrontierHashes_congr {other : SchedulerState}
    (pending : other.pending = state.pending) (queues : other.senderQueues = state.senderQueues) :
    other.executableFrontierHashes = state.executableFrontierHashes := by
  simp only [executableFrontierHashes, walkQueue, pending, queues]

@[simp] theorem pending_reloaded : state.reloaded.pending = state.pending := by
  rw [reloaded, pending_recomputeQueueCounts]

@[simp] theorem senderQueues_reloaded : state.reloaded.senderQueues = state.senderQueues := by
  rw [reloaded, senderQueues_recomputeQueueCounts]

/-- **A snapshot that lists a seated state is loaded exactly when its frontier is empty or that
of the state.** -/
theorem Lists.fromPersistedSnapshot_eq (lists : Lists snapshot state) (seating : Seating state) :
    (snapshot.executableFrontier = [] ∨
        snapshot.executableFrontier = state.executableFrontierHashes) ∧
        fromPersistedSnapshot snapshot = .ok state.reloaded ∨
      ¬ (snapshot.executableFrontier = [] ∨
        snapshot.executableFrontier = state.executableFrontierHashes) ∧
        ∀ loaded, fromPersistedSnapshot snapshot ≠ .ok loaded := by
  have frontier : state.reloaded.classifyReady.map ValidatedTransaction.hash =
      state.executableFrontierHashes := by
    have seated : Seating state.reloaded :=
      seating.congr pending_reloaded senderQueues_reloaded
    rw [seated.map_hash_classifyReady]
    exact executableFrontierHashes_congr pending_reloaded senderQueues_reloaded
  by_cases agrees : snapshot.executableFrontier = [] ∨
      snapshot.executableFrontier = state.executableFrontierHashes
  · refine Or.inl ⟨agrees, fromPersistedSnapshot_eq_ok_iff.mpr
      ⟨_, _, lists.collectPending seating, lists.loadQueues seating, rfl, fun nonempty => ?_⟩⟩
    exact frontier.trans (agrees.resolve_left nonempty).symm
  · refine Or.inr ⟨agrees, fun loaded accepted => agrees ?_⟩
    obtain ⟨pending, queues, collected, queued, rfl, restored⟩ :=
      fromPersistedSnapshot_eq_ok_iff.mp accepted
    cases (lists.collectPending seating).symm.trans collected
    cases (lists.loadQueues seating).symm.trans queued
    by_cases nonempty : snapshot.executableFrontier = []
    · exact Or.inl nonempty
    · exact Or.inr ((restored nonempty).symm.trans frontier)

end Reload

/-! ## The same admissions from then on -/

/-- Two states hold the same transactions in the same slots. -/
structure SameQueues (state other : SchedulerState) : Prop where
  pending : other.pending = state.pending
  senderQueues : other.senderQueues = state.senderQueues

/-- The outcome of an admission, and the transactions held after it, depend on the transactions
held before it only. -/
theorem SameQueues.admitTx {state other : SchedulerState} (same : SameQueues state other)
    (tx : ValidatedTransaction) (config : SchedulerConfig) :
    (other.admitTx tx config).1 = (state.admitTx tx config).1 ∧
      SameQueues (state.admitTx tx config).2 (other.admitTx tx config).2 := by
  obtain ⟨pending, queues, _, _, _, _, _, _, _, _, _, _, _⟩ := state
  obtain ⟨_, _, _, _, _, _, _, _, _, _, _, _, _⟩ := other
  obtain ⟨rfl, rfl⟩ := same
  unfold SchedulerState.admitTx
  dsimp only [slot]
  split
  · exact ⟨rfl, rfl, rfl⟩
  · split
    · split
      · exact ⟨rfl, rfl, rfl⟩
      · split
        · exact ⟨rfl, rfl, rfl⟩
        · exact ⟨rfl, rfl, rfl⟩
    · split
      · exact ⟨rfl, rfl, rfl⟩
      · exact ⟨rfl, rfl, rfl⟩

theorem SameQueues.admitAll {state other : SchedulerState} (same : SameQueues state other)
    (config : SchedulerConfig) (txs : List ValidatedTransaction) :
    (other.admitAll config txs).1 = (state.admitAll config txs).1 ∧
      SameQueues (state.admitAll config txs).2 (other.admitAll config txs).2 := by
  induction txs generalizing state other with
  | nil => exact ⟨rfl, same⟩
  | cons tx rest ih =>
      obtain ⟨outcome, next⟩ := same.admitTx tx config
      obtain ⟨outcomes, last⟩ := ih next
      exact ⟨congrArg₂ List.cons outcome outcomes, last⟩

/-! ## The round trip -/

/-- **Snapshot round trip.** The snapshot of a reachable state loads, and the loaded state has
the transactions, the queues, the counts and the frontier of the state and admits every further
sequence of transactions with the same outcomes. -/
theorem snapshot_roundTrip (config : SchedulerConfig) (commands : List SchedulerCommand)
    (capturedAtUnixMs : Int64) (capturedAtMonoNs : UInt64) :
    let state := SchedulerState.run config {} commands
    ∃ restored,
      fromPersistedSnapshot (state.persistedSnapshot capturedAtUnixMs capturedAtMonoNs) =
        .ok restored ∧
      restored.pending = state.pending ∧
      restored.senderQueues = state.senderQueues ∧
      restored.senderQueueCounts = state.senderQueueCounts ∧
      (state.pending.size ≤ usizeMax → restored.readyTotal = state.readyTotal ∧
        restored.blockedTotal = state.blockedTotal) ∧
      restored.executableFrontierHashes = state.executableFrontierHashes ∧
      ∀ (later : SchedulerConfig) (txs : List ValidatedTransaction),
        (restored.admitAll later txs).1 = (state.admitAll later txs).1 := by
  intro state
  obtain ⟨seating, tally, -, -⟩ := RepresentationInvariant.reached config commands
  have lists := lists_persistedSnapshot state capturedAtUnixMs capturedAtMonoNs
  have reseated : Seating { pending := state.pending, senderQueues := state.senderQueues } :=
    seating.congr rfl rfl
  have retallied : Tally state.reloaded := Tally.recomputeQueueCounts reseated
  have same : SameQueues state state.reloaded := ⟨pending_reloaded, senderQueues_reloaded⟩
  have classified : state.reloaded.classifySenderQueueCounts = state.classifySenderQueueCounts := by
    funext queue
    simp only [classifySenderQueueCounts, walkQueue, same.pending]
  have recounted : ∀ part : SenderQueueCounts → Nat,
      state.reloaded.recount part = state.recount part := by
    intro part
    rw [recount, recount, classified, same.senderQueues]
  refine ⟨state.reloaded, ?_, same.pending, same.senderQueues, ?_, fun fits => ⟨?_, ?_⟩,
    executableFrontierHashes_congr same.pending same.senderQueues,
    fun later txs => (same.admitAll later txs).1⟩
  · rcases lists.fromPersistedSnapshot_eq seating with ⟨-, loads⟩ | ⟨mismatch, -⟩
    · exact loads
    · exact absurd (Or.inr rfl) mismatch
  · apply ExtTreeMap.ext_getElem?
    intro sender
    rw [retallied.counted, tally.counted, same.senderQueues, classified]
  · rw [retallied.ready (by rw [same.pending]; exact fits), tally.ready fits, recounted]
  · rw [retallied.blocked (by rw [same.pending]; exact fits), tally.blocked fits, recounted]

end Mempulse.Scheduler
