import Mempulse.Replay.Slots

/-!
# The slots of the replay model

The replay model keeps a slot for every pending transaction whose sender and nonce it knows. A
decode demotes the transaction that holds the slot it enters. A ready or blocked event and a
reopening reorg enter a slot without demoting anyone, so they keep the invariant exactly when
the slot they enter is free or already theirs.
-/

set_option autoImplicit false

namespace Mempulse.Replay

open Std EventLog Library Scheduler

/-- The sender and the nonce an event gives its hash. -/
def eventPlace : EventPayload → Option (TxHash × Address × UInt64)
  | .txDecoded decoded => some (decoded.hash, decoded.sender, decoded.nonce)
  | .txReady ready => some (ready.hash, ready.sender, ready.nonce)
  | .txBlocked blocked => some (blocked.hash, blocked.sender, blocked.nonce)
  | _ => none

/-- Each hash appears with one sender and one nonce. -/
def Placed (places : TxHash → Address × UInt64) (payload : EventPayload) : Prop :=
  ∀ hash place, eventPlace payload = some (hash, place) → place = places hash

namespace MempoolState

/-- The slots are those of the pending transactions. -/
structure SlotInvariant (state : MempoolState) : Prop where
  named : Named state
  seated : ∀ ⦃hash : TxHash⦄ ⦃sender : Address⦄ ⦃nonce : UInt64⦄,
    state.profile hash = some ⟨some sender, some nonce, .pending⟩ →
      state.slot sender nonce = some hash
  distinct : ∀ ⦃hash other : TxHash⦄ ⦃sender : Address⦄ ⦃nonce : UInt64⦄,
    state.profile hash = some ⟨some sender, some nonce, .pending⟩ →
      state.profile other = some ⟨some sender, some nonce, .pending⟩ → hash = other
  full : SchedulerState.NoEmptyQueue state.senderQueues

/-- The slot of a hash is free or its own. -/
def Open (state : MempoolState) (hash : TxHash) (sender : Address) (nonce : UInt64) : Prop :=
  state.slot sender nonce = none ∨ state.slot sender nonce = some hash

/-- An event that enters a slot without demoting anyone enters an open one. -/
def EntersOpen (state : MempoolState) : EventPayload → Prop
  | .txReady ready => state.Open ready.hash ready.sender ready.nonce
  | .txBlocked blocked => state.Open blocked.hash blocked.sender blocked.nonce
  | .txReorged reorged =>
    ∀ sender nonce status, state.profile reorged.hash = some ⟨some sender, some nonce, status⟩ →
      status.confirmedIn = some reorged.oldBlockHash → state.Open reorged.hash sender nonce
  | _ => True

/-- The model knows a hash by its own sender and nonce. -/
def Knows (places : TxHash → Address × UInt64) (state : MempoolState) : Prop :=
  ∀ ⦃hash : TxHash⦄ ⦃sender : Address⦄ ⦃nonce : UInt64⦄ ⦃status : TxLifecycleStatus⦄,
    state.profile hash = some ⟨some sender, some nonce, status⟩ → (sender, nonce) = places hash

section Invariant

variable {places : TxHash → Address × UInt64} {state next : MempoolState} {hash : TxHash}
  {sender : Address} {nonce : UInt64}

theorem SlotInvariant.of_seated (named : Named state)
    (seated : ∀ ⦃hash : TxHash⦄ ⦃sender : Address⦄ ⦃nonce : UInt64⦄,
      state.profile hash = some ⟨some sender, some nonce, .pending⟩ →
        state.slot sender nonce = some hash)
    (full : SchedulerState.NoEmptyQueue state.senderQueues) : SlotInvariant state where
  named := named
  seated := seated
  distinct := by
    intro hash other sender nonce pending alsoPending
    exact Option.some.inj ((seated pending).symm.trans (seated alsoPending))
  full := full

theorem SlotInvariant.empty : SlotInvariant {} := by
  apply SlotInvariant.of_seated Named.empty
  · intro hash sender nonce known
    simp [profile] at known
  · intro sender queue queued
    simp at queued

theorem SlotInvariant.congr (invariant : SlotInvariant state)
    (profiles : next.profile = state.profile) (queues : next.senderQueues = state.senderQueues) :
    SlotInvariant next := by
  have slots : next.slot = state.slot := by
    funext sender nonce
    rw [slot, slot, queues]
  apply SlotInvariant.of_seated
  · intro sender nonce hash held
    rw [slots] at held
    rw [profiles]
    exact invariant.named held
  · intro hash sender nonce known
    rw [profiles] at known
    rw [slots]
    exact invariant.seated known
  · rw [queues]
    exact invariant.full

theorem SlotInvariant.congr_iff (profiles : next.profile = state.profile)
    (queues : next.senderQueues = state.senderQueues) : SlotInvariant next ↔ SlotInvariant state :=
  ⟨fun kept => kept.congr profiles.symm queues.symm, fun kept => kept.congr profiles queues⟩

/-- A hash sits in no slot but its own. -/
theorem SlotInvariant.only (invariant : SlotInvariant state) (knows : Knows places state)
    (own : (sender, nonce) = places hash) (other : Address) (position : UInt64)
    (held : state.slot other position = some hash) : other = sender ∧ position = nonce := by
  have same := (knows (invariant.named held)).trans own.symm
  exact ⟨congrArg Prod.fst same, congrArg Prod.snd same⟩

/-! ## One event -/

/-- Entering a slot keeps the invariant exactly when the slot is open. -/
theorem SlotInvariant.enqueue_iff (invariant : SlotInvariant state) (knows : Knows places state)
    (own : (sender, nonce) = places hash) :
    SlotInvariant (state.enqueue hash sender nonce) ↔ state.Open hash sender nonce := by
  have only := invariant.only knows own
  have named := invariant.named.enqueue only
  have slots := invariant.named.slot_enqueue only
  constructor
  · intro kept
    cases held : state.slot sender nonce with
    | none => exact Or.inl held
    | some holder =>
        by_cases same : hash = holder
        · exact Or.inr (same ▸ held)
        · have pending := invariant.named held
          have remains : (state.enqueue hash sender nonce).profile holder =
              some ⟨some sender, some nonce, .pending⟩ := by
            rw [profile_enqueue, if_neg same, pending]
          have seated := kept.seated remains
          rw [slots, if_pos ⟨rfl, rfl⟩] at seated
          exact absurd (Option.some.inj seated) same
  · intro opened
    apply SlotInvariant.of_seated named _ (noEmptyQueue_enqueue invariant.full)
    intro other owner position pending
    rw [profile_enqueue] at pending
    rw [slots]
    split at pending
    case isTrue same =>
      cases pending
      rw [if_pos ⟨rfl, rfl⟩, same]
    case isFalse differs =>
      have held := invariant.seated pending
      rw [if_neg, held]
      rintro ⟨rfl, rfl⟩
      rcases opened with free | taken
      · cases free.symm.trans held
      · exact differs (Option.some.inj (taken.symm.trans held))

theorem SlotInvariant.retire (invariant : SlotInvariant state) {status : TxLifecycleStatus}
    (ended : status ≠ .pending) : SlotInvariant (state.retire hash status) := by
  apply SlotInvariant.of_seated (invariant.named.retire hash status) _
    (noEmptyQueue_retire hash status invariant.full)
  intro other sender nonce pending
  rw [profile_retire] at pending
  split at pending
  case isTrue => exact absurd (congrArg Profile.status (Option.some.inj pending)) ended
  case isFalse differs =>
    have held := invariant.seated pending
    rw [invariant.named.slot_retire, if_neg, held]
    intro taken
    exact differs (Option.some.inj (taken.symm.trans held))

theorem SlotInvariant.applyDecoded (invariant : SlotInvariant state) (knows : Knows places state)
    {decoded : TxDecoded} (own : (decoded.sender, decoded.nonce) = places decoded.hash) :
    SlotInvariant (state.applyDecoded decoded).2 := by
  have only := invariant.only knows own
  apply SlotInvariant.of_seated (invariant.named.applyDecoded decoded only) _
    (noEmptyQueue_applyDecoded invariant.full decoded)
  intro other sender nonce pending
  rw [profile_applyDecoded] at pending
  rw [invariant.named.slot_applyDecoded decoded only]
  split at pending
  case isTrue same =>
    cases pending
    rw [if_pos ⟨rfl, rfl⟩, same]
  case isFalse differs =>
    split at pending
    case isTrue here =>
      -- The displaced hash is not pending any more.
      obtain ⟨known, -, made⟩ := Option.map_eq_some_iff.mp pending
      cases congrArg Profile.status made
    case isFalse elsewhere =>
      have held := invariant.seated pending
      rw [if_neg, held]
      rintro ⟨rfl, rfl⟩
      exact elsewhere held

/-- The state in which a reorg has just reopened a hash. -/
def reopened (state : MempoolState) (hash : TxHash) (entry : TxEntry) : MempoolState :=
  { state with txs := state.txs.insert hash { entry with status := .pending } }

theorem profile_reopened (entry : TxEntry) (other : TxHash) :
    (state.reopened hash entry).profile other =
      if hash = other then some ⟨entry.sender, entry.nonce, .pending⟩ else state.profile other := by
  dsimp only [profile, reopened]
  rw [getElem?_insert_eq]
  split <;> rfl

/-- Reopening a hash and entering its slot is entering its slot. -/
theorem profile_enqueue_reopened (entry : TxEntry) :
    ((state.reopened hash entry).enqueue hash sender nonce).profile =
      (state.enqueue hash sender nonce).profile := by
  funext other
  rw [profile_enqueue, profile_enqueue, profile_reopened]
  split <;> rfl

/-- A confirmed hash sits in no slot. -/
theorem Named.slot_ne (named : Named state) {entry : TxEntry} (stored : state.txs[hash]? = some entry)
    (confirmed : entry.status ≠ .pending) (sender : Address) (nonce : UInt64) :
    state.slot sender nonce ≠ some hash := by
  intro held
  have known := named held
  rw [profile, stored] at known
  exact confirmed (congrArg Profile.status (Option.some.inj known))

theorem Named.reopened (named : Named state) {entry : TxEntry} (stored : state.txs[hash]? = some entry)
    (confirmed : entry.status ≠ .pending) : Named (state.reopened hash entry) := by
  intro sender nonce holder held
  rw [profile_reopened, if_neg]
  · exact named held
  · rintro rfl
    exact named.slot_ne stored confirmed sender nonce held

theorem confirmedIn_ne_pending {status : TxLifecycleStatus} {block : BlockHash}
    (confirmed : status.confirmedIn = some block) : status ≠ .pending := by
  rintro rfl
  cases confirmed

/-- A reopening reorg keeps the invariant exactly when it enters an open slot. -/
theorem SlotInvariant.reorg_iff (invariant : SlotInvariant state) (knows : Knows places state)
    (reorged : TxReorged) :
    SlotInvariant (state.applyReorg reorged).2 ↔ state.EntersOpen (.txReorged reorged) := by
  dsimp only [applyReorg, EntersOpen]
  split
  case h_1 missing =>
    refine iff_of_true invariant fun sender nonce status known _ => ?_
    rw [profile, missing] at known
    cases known
  case h_2 entry stored =>
    have known : state.profile reorged.hash = some entry.profile := by
      rw [profile, stored]
      rfl
    split
    case isFalse elsewhere =>
      refine iff_of_true invariant fun sender nonce status same confirmed => ?_
      have statuses : entry.status = status :=
        congrArg Profile.status (Option.some.inj (known.symm.trans same))
      rw [statuses] at elsewhere
      exact absurd confirmed elsewhere
    case isTrue confirmed =>
      have ended := confirmedIn_ne_pending confirmed
      have named := invariant.named.reopened stored ended
      split
      case h_1 sender nonce knowsSender knowsNonce =>
        have profiled : state.profile reorged.hash =
            some ⟨some sender, some nonce, entry.status⟩ := by
          rw [known, TxEntry.profile, knowsSender, knowsNonce]
        have own := knows profiled
        have full : SchedulerState.NoEmptyQueue
            (state.reopened reorged.hash entry).senderQueues := invariant.full
        have absent : ∀ other position,
            (state.reopened reorged.hash entry).slot other position = some reorged.hash →
              other = sender ∧ position = nonce := fun other position held =>
          absurd held (invariant.named.slot_ne stored ended other position)
        have queues : ((state.reopened reorged.hash entry).enqueue reorged.hash sender
            nonce).senderQueues = (state.enqueue reorged.hash sender nonce).senderQueues := by
          apply SchedulerState.queues_ext (noEmptyQueue_enqueue full)
            (noEmptyQueue_enqueue invariant.full)
          intro other position
          exact (named.slot_enqueue absent other position).trans
            (invariant.named.slot_enqueue (invariant.only knows own) other position).symm
        have same : SlotInvariant ((state.reopened reorged.hash entry).enqueue reorged.hash sender
            nonce) ↔ SlotInvariant (state.enqueue reorged.hash sender nonce) :=
          SlotInvariant.congr_iff (profile_enqueue_reopened entry) queues
        have stripped : ∀ (queued : MempoolState) (confirmations),
            SlotInvariant { queued with blockConfirmations := confirmations } ↔
              SlotInvariant queued := fun queued confirmations => SlotInvariant.congr_iff rfl rfl
        rw [stripped]
        refine (same.trans (invariant.enqueue_iff knows own)).trans ⟨?_, fun opened => ?_⟩
        · intro opened other position status same _
          rw [profiled] at same
          cases same
          exact opened
        · exact opened sender nonce entry.status profiled confirmed
      case h_2 unknown =>
        have nowhere : ∀ sender nonce, ¬ (entry.sender = some sender ∧ entry.nonce = some nonce) :=
          fun sender nonce both => unknown sender nonce both.1 both.2
        have kept : SlotInvariant (state.reopened reorged.hash entry) := by
          apply SlotInvariant.of_seated named _ invariant.full
          intro other sender nonce pending
          rw [profile_reopened] at pending
          split at pending
          case isTrue =>
            simp only [Option.some.injEq, Profile.mk.injEq, and_true] at pending
            exact absurd pending (nowhere sender nonce)
          case isFalse => exact invariant.seated pending
        refine iff_of_true (kept.congr rfl rfl) fun sender nonce status same _ => ?_
        rw [known] at same
        simp only [TxEntry.profile, Option.some.injEq, Profile.mk.injEq] at same
        exact absurd ⟨same.1, same.2.1⟩ (nowhere sender nonce)

/-- **An event keeps the invariant exactly when it enters an open slot, if it enters one.** -/
theorem SlotInvariant.step_iff (invariant : SlotInvariant state) (knows : Knows places state)
    {payload : EventPayload} (placed : Placed places payload) :
    SlotInvariant (state.applyEvent payload).2 ↔ state.EntersOpen payload := by
  cases payload with
  | txDecoded decoded => exact iff_of_true (invariant.applyDecoded knows (placed _ _ rfl)) trivial
  | txReady ready =>
      exact (SlotInvariant.congr_iff (profile_applyReady ready) rfl).trans
        (invariant.enqueue_iff knows (placed _ _ rfl))
  | txBlocked blocked =>
      exact (SlotInvariant.congr_iff (profile_applyBlocked blocked)
        (senderQueues_applyBlocked blocked)).trans (invariant.enqueue_iff knows (placed _ _ rfl))
  | txDropped dropped => exact iff_of_true (invariant.retire (by simp)) trivial
  | txConfirmedProvisional confirmed =>
      have kept : SlotInvariant (state.retire confirmed.hash
          (.confirmedProvisional confirmed.blockNumber confirmed.blockHash)) :=
        invariant.retire (by simp)
      exact iff_of_true (kept.congr rfl rfl) trivial
  | txConfirmedFinal confirmed =>
      have kept : SlotInvariant (state.retire confirmed.hash
          (.confirmedFinal confirmed.blockNumber confirmed.blockHash)) := invariant.retire (by simp)
      exact iff_of_true (kept.congr rfl rfl) trivial
  | txReplaced replaced =>
      refine iff_of_true ?_ trivial
      dsimp only [applyEvent, applyReplaced]
      split
      case isTrue => exact invariant.retire (by simp)
      case isFalse => exact invariant
  | txReorged reorged => exact invariant.reorg_iff knows reorged
  | txSeen | txFetched | candidateQueued | simDispatched | oppDetected | simCompleted
  | assemblyDecisionApplied | bundleSubmitted => exact iff_of_true invariant trivial

/-! ## What the model knows -/

theorem Knows.enqueue (knows : Knows places state) (own : (sender, nonce) = places hash) :
    Knows places (state.enqueue hash sender nonce) := by
  intro other owner position status known
  rw [profile_enqueue] at known
  split at known
  case isTrue same =>
    cases known
    rw [← same]
    exact own
  case isFalse => exact knows known

theorem Knows.congr (knows : Knows places state) (profiles : next.profile = state.profile) :
    Knows places next := by
  intro hash sender nonce status known
  rw [profiles] at known
  exact knows known

theorem Knows.retire (knows : Knows places state) (status : TxLifecycleStatus) :
    Knows places (state.retire hash status) := by
  intro other sender nonce later known
  rw [profile_retire] at known
  split at known
  case isTrue same =>
    cases before : state.profile hash with
    | none =>
        rw [before] at known
        cases known
    | some profile =>
        obtain ⟨owner, position, earlier⟩ := profile
        rw [before] at known
        simp only [Option.getD_some, Option.some.injEq, Profile.mk.injEq] at known
        obtain ⟨rfl, rfl, -⟩ := known
        rw [← same]
        exact knows before
  case isFalse => exact knows known

theorem Knows.reopened (knows : Knows places state) {entry : TxEntry}
    (stored : state.txs[hash]? = some entry) : Knows places (state.reopened hash entry) := by
  intro other sender nonce status known
  rw [profile_reopened] at known
  split at known
  case isTrue same =>
    simp only [Option.some.injEq, Profile.mk.injEq] at known
    have before : state.profile hash = some ⟨some sender, some nonce, entry.status⟩ := by
      rw [profile, stored, Option.map_some, TxEntry.profile, known.1, known.2.1]
    rw [← same]
    exact knows before
  case isFalse => exact knows known

theorem Knows.step (knows : Knows places state) {payload : EventPayload}
    (placed : Placed places payload) : Knows places (state.applyEvent payload).2 := by
  cases payload with
  | txDecoded decoded =>
      intro other sender nonce status known
      dsimp only [applyEvent] at known
      rw [profile_applyDecoded] at known
      split at known
      case isTrue same =>
        cases known
        rw [← same]
        exact placed _ _ rfl
      case isFalse =>
        split at known
        case isTrue =>
          obtain ⟨profile, before, made⟩ := Option.map_eq_some_iff.mp known
          obtain ⟨owner, position, earlier⟩ := profile
          cases made
          exact knows before
        case isFalse => exact knows known
  | txReady ready => exact (knows.enqueue (placed _ _ rfl)).congr (profile_applyReady ready)
  | txBlocked blocked => exact (knows.enqueue (placed _ _ rfl)).congr (profile_applyBlocked blocked)
  | txDropped dropped => exact knows.retire _
  | txConfirmedProvisional confirmed =>
      have kept : Knows places (state.retire confirmed.hash
          (.confirmedProvisional confirmed.blockNumber confirmed.blockHash)) := knows.retire _
      exact kept.congr rfl
  | txConfirmedFinal confirmed =>
      have kept : Knows places (state.retire confirmed.hash
          (.confirmedFinal confirmed.blockNumber confirmed.blockHash)) := knows.retire _
      exact kept.congr rfl
  | txReplaced replaced =>
      dsimp only [applyEvent, applyReplaced]
      split
      case isTrue => exact knows.retire _
      case isFalse => exact knows
  | txReorged reorged =>
      dsimp only [applyEvent, applyReorg]
      split
      case h_1 => exact knows
      case h_2 entry stored =>
        split
        case isFalse => exact knows
        case isTrue =>
          have reopens := knows.reopened stored
          split
          case h_1 sender nonce knowsSender knowsNonce =>
            have before : state.profile reorged.hash =
                some ⟨some sender, some nonce, entry.status⟩ := by
              rw [profile, stored, Option.map_some, TxEntry.profile, knowsSender, knowsNonce]
            exact (reopens.enqueue (knows before)).congr rfl
          case h_2 => exact reopens.congr rfl
  | txSeen | txFetched | candidateQueued | simDispatched | oppDetected | simCompleted
  | assemblyDecisionApplied | bundleSubmitted => exact knows

theorem Knows.replay (knows : Knows places state) {payloads : List EventPayload}
    (placed : ∀ payload ∈ payloads, Placed places payload) :
    Knows places (state.replay payloads) := by
  induction payloads generalizing state with
  | nil => exact knows
  | cons payload rest ih =>
      obtain ⟨first, others⟩ := List.forall_mem_cons.mp placed
      exact ih (knows.step first) others

end Invariant

/-- **The replay model keeps its slots exactly as long as no event enters a slot over another
transaction.** -/
theorem slotInvariant_iff (places : TxHash → Address × UInt64) (payloads : List EventPayload)
    (placed : ∀ payload ∈ payloads, Placed places payload) :
    (∀ before after, payloads = before ++ after → SlotInvariant (MempoolState.replay {} before)) ↔
      ∀ before payload after, payloads = before ++ payload :: after →
        (MempoolState.replay {} before).EntersOpen payload := by
  have knowsEmpty : Knows places {} := by
    intro hash sender nonce status known
    simp [profile] at known
  have knows : ∀ before after, payloads = before ++ after →
      Knows places (MempoolState.replay {} before) := by
    rintro before after rfl
    exact knowsEmpty.replay fun payload member => placed payload (List.mem_append_left _ member)
  apply forall_front_iff
  · exact .empty
  · intro before payload after whole here
    rw [replay_append]
    refine here.step_iff (knows before (payload :: after) whole) ?_
    exact placed payload (whole ▸ List.mem_append_right _ List.mem_cons_self)

/-- Two transactions of one sender and one nonce; the second is announced ready without having
been decoded. -/
def readyOverPending : List EventPayload :=
  [.txDecoded (sampleValidatedTx 10 1 0 100).decoded, .txReady { hash := 11, sender := 1, nonce := 0 }]

theorem readyOverPending_slotInvariant_iff :
    (∀ before after, readyOverPending = before ++ after →
        SlotInvariant (MempoolState.replay {} before)) ↔
      ∀ before payload after, readyOverPending = before ++ payload :: after →
        (MempoolState.replay {} before).EntersOpen payload := by
  apply slotInvariant_iff (fun _ => (1, 0))
  intro payload member hash place named
  rcases List.mem_pair.mp member with rfl | rfl
  · cases named
    rfl
  · cases named
    rfl

/-- The ready event takes the slot of a transaction that stays pending. -/
theorem readyOverPending_not_slotInvariant :
    ¬ SlotInvariant (MempoolState.replay {} readyOverPending) := by
  intro invariant
  have pending : (MempoolState.replay {} readyOverPending).profile 10 =
      some ⟨some 1, some 0, .pending⟩ := by decide +kernel
  have taken : (MempoolState.replay {} readyOverPending).slot 1 0 = some 11 := by decide +kernel
  cases (invariant.seated pending).symm.trans taken

end MempoolState

end Mempulse.Replay
