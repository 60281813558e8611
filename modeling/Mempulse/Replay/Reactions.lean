import Mempulse.Replay.Locality

/-!
# How the replay model reacts to an event

An event announces a hash, retires one, reopens one or does nothing to the queues and the
statuses. What each of these does is said once, in terms of the profiles, the live queues and the
queue states, and for every state whose slots belong to the hashes in them: a state that was
restored from a checkpoint need not know the sender of a hash it has queued.
-/

set_option autoImplicit false

namespace Mempulse.Replay

open Std EventLog Library Scheduler

/-- What an event does to the queues and the statuses. -/
inductive Effect where
  /-- A hash enters its slot, over the transaction in it when it displaces that one, with the queue
  state the event states for it or the verdict of the scan. -/
  | announce (hash : TxHash) (sender : Address) (nonce : UInt64) (displaces : Bool)
      (stated : Option ReplayQueueState)
  /-- A hash gets a status that is not pending. Only an event that registers the hash does so for
  an unknown one. -/
  | retire (hash : TxHash) (status : TxLifecycleStatus) (registers : Bool)
  /-- A hash that was confirmed in a block is pending again. -/
  | reopen (hash : TxHash) (block : BlockHash)
  | idle
  deriving DecidableEq

/-- What a payload does, as the effects have it. -/
def effectOf : EventPayload → Effect
  | .txDecoded decoded => .announce decoded.hash decoded.sender decoded.nonce true none
  | .txReady ready => .announce ready.hash ready.sender ready.nonce false (some .ready)
  | .txBlocked blocked =>
    .announce blocked.hash blocked.sender blocked.nonce false (blocked.expectedNonce.map .blocked)
  | .txDropped dropped => .retire dropped.hash (.dropped dropped.reason) true
  | .txConfirmedProvisional confirmed =>
    .retire confirmed.hash (.confirmedProvisional confirmed.blockNumber confirmed.blockHash) true
  | .txConfirmedFinal confirmed =>
    .retire confirmed.hash (.confirmedFinal confirmed.blockNumber confirmed.blockHash) true
  | .txReplaced replaced => .retire replaced.hash (.replaced replaced.replacedBy) false
  | .txReorged reorged => .reopen reorged.hash reorged.oldBlockHash
  | .txSeen _ | .txFetched _ | .candidateQueued _ | .simDispatched _ | .oppDetected _
  | .simCompleted _ | .assemblyDecisionApplied _ | .bundleSubmitted _ => .idle

namespace MempoolState

/-- The block that confirmed a hash. -/
def confirmedIn (state : MempoolState) (hash : TxHash) : Option BlockHash :=
  (state.lifecycle hash).bind (·.confirmedIn)

/-- A hash has entered its slot and its sender has been scanned. -/
structure Announced (places : TxHash → Address × UInt64) (hash : TxHash) (sender : Address)
    (nonce : UInt64) (displaces : Bool) (stated : Option ReplayQueueState)
    (before after : MempoolState) : Prop where
  own : (sender, nonce) = places hash
  off : AgreesOff places sender before after
  entered : after.profile hash = some ⟨some sender, some nonce, .pending⟩
  others : ∀ other, hash ≠ other → after.profile other =
    if displaces ∧ before.slot sender nonce = some other then
      (before.profile other).map fun known => { known with status := .replaced hash }
    else before.profile other
  live : ∀ position other, (position, other) ∈ after.liveQueue sender ↔
    if nonce = position then hash = other else (position, other) ∈ before.liveQueue sender
  slots : ∀ position other, after.slot sender position = some other ↔
    (position, other) ∈ after.liveQueue sender
  states : ∀ visited ∈ after.verdicts sender, after.queueState visited.1.2 =
    some (if hash = visited.1.2 then stated.getD visited.2 else visited.2)

/-- A hash has left its slot and its sender has been scanned. -/
structure Retired (places : TxHash → Address × UInt64) (hash : TxHash) (sender : Address)
    (nonce : UInt64) (status : TxLifecycleStatus) (before after : MempoolState) : Prop where
  own : (sender, nonce) = places hash
  off : AgreesOff places sender before after
  left : after.profile hash = some ⟨some sender, some nonce, status⟩
  others : ∀ other, hash ≠ other → after.profile other = before.profile other
  live : after.liveQueue sender = (before.liveQueue sender).filter fun entry => entry.2 ≠ hash
  slots : ∀ position other, after.slot sender position = some other ↔
    (position, other) ∈ after.liveQueue sender
  states : ∀ visited ∈ after.verdicts sender, after.queueState visited.1.2 = some visited.2

/-- A hash whose sender or nonce is not known has got a status. -/
structure Marked (hash : TxHash) (status : TxLifecycleStatus) (before after : MempoolState) :
    Prop where
  slots : after.senderQueues = before.senderQueues
  others : ∀ other, hash ≠ other → after.txs[other]? = before.txs[other]?
  marked : ∃ sender nonce, after.profile hash = some ⟨sender, nonce, status⟩ ∧
    (before.profile hash).bind (·.sender) = sender ∧ (before.profile hash).bind (·.nonce) = nonce
  state : after.queueState hash = if status = .pending then before.queueState hash else none

/-- Nothing but block confirmations has changed. -/
structure Unchanged (before after : MempoolState) : Prop where
  slots : after.senderQueues = before.senderQueues
  entries : after.txs = before.txs

/-- The states before and after an effect. -/
def Reacts (places : TxHash → Address × UInt64) (before after : MempoolState) : Effect → Prop
  | .announce hash sender nonce displaces stated =>
    Announced places hash sender nonce displaces stated before after
  | .retire hash status registers =>
    status ≠ .pending ∧
      match before.place hash with
      | some (sender, nonce) => Retired places hash sender nonce status before after
      | none =>
        if registers ∨ before.profile hash ≠ none then Marked hash status before after
        else Unchanged before after
  | .reopen hash block =>
    if before.confirmedIn hash = some block then
      match before.place hash with
      | some (sender, nonce) => Announced places hash sender nonce false none before after
      | none => Marked hash .pending before after
    else Unchanged before after
  | .idle => Unchanged before after

section Reactions

variable {places : TxHash → Address × UInt64} {state after : MempoolState} {hash : TxHash}
  {sender : Address} {nonce : UInt64}

/-- Block confirmations do not matter. -/
theorem Reacts.confirming {effect : Effect} (reacts : Reacts places state after effect)
    (confirmations : ExtTreeMap BlockHash (ExtTreeSet TxHash)) :
    Reacts places state { after with blockConfirmations := confirmations } effect := by
  have announced : ∀ {hash : TxHash} {sender : Address} {nonce : UInt64} {displaces : Bool}
      {stated : Option ReplayQueueState},
      Announced places hash sender nonce displaces stated state after →
        Announced places hash sender nonce displaces stated state
          { after with blockConfirmations := confirmations } := fun held =>
    ⟨held.own, ⟨held.off.slots, held.off.entries⟩, held.entered, held.others, held.live, held.slots,
      held.states⟩
  have marked : ∀ {hash : TxHash} {status : TxLifecycleStatus}, Marked hash status state after →
      Marked hash status state { after with blockConfirmations := confirmations } := fun held =>
    ⟨held.slots, held.others, held.marked, held.state⟩
  have unchanged : Unchanged state after →
      Unchanged state { after with blockConfirmations := confirmations } := fun held =>
    ⟨held.slots, held.entries⟩
  cases effect with
  | announce => exact announced reacts
  | retire hash status registers =>
      obtain ⟨ended, reacts⟩ := reacts
      refine ⟨ended, ?_⟩
      split
      case h_1 sender nonce known =>
        rw [known] at reacts
        exact ⟨reacts.own, ⟨reacts.off.slots, reacts.off.entries⟩, reacts.left, reacts.others,
          reacts.live, reacts.slots, reacts.states⟩
      case h_2 unknown =>
        rw [unknown] at reacts
        split
        case isTrue noted => exact marked (by simpa only [if_pos noted] using reacts)
        case isFalse silent => exact unchanged (by simpa only [if_neg silent] using reacts)
  | reopen hash block =>
      dsimp only [Reacts] at reacts ⊢
      split
      case isTrue confirmed =>
        rw [if_pos confirmed] at reacts
        split
        case h_1 sender nonce known => exact announced (by simpa only [known] using reacts)
        case h_2 unknown => exact marked (by simpa only [unknown] using reacts)
      case isFalse elsewhere => exact unchanged (by simpa only [if_neg elsewhere] using reacts)
  | idle => exact unchanged reacts

/-! ## Scans -/

theorem slot_recompute_eq_some_iff {position : UInt64} {other : TxHash} :
    (state.recomputeSenderQueueStates sender).slot sender position = some other ↔
      (position, other) ∈ (state.recomputeSenderQueueStates sender).liveQueue sender := by
  rw [liveQueue_recompute, slot_recompute, if_pos rfl, Option.filter_eq_some_iff,
    decide_eq_true_eq, mem_liveQueue]

theorem Seats.queueState_scanned (seats : Seats places state)
    {visited : (UInt64 × TxHash) × ReplayQueueState}
    (member : visited ∈ (state.recomputeSenderQueueStates sender).verdicts sender) :
    (state.recomputeSenderQueueStates sender).queueState visited.1.2 = some visited.2 := by
  rw [verdicts, liveQueue_recompute] at member
  exact seats.queueState_recompute member

/-! ## Announcements -/

theorem Seats.mem_liveQueue_ensure (seats : Seats places state) (own : (sender, nonce) = places hash)
    (position : UInt64) (other : TxHash) :
    (position, other) ∈ (state.ensureSenderQueueEntry hash sender nonce).liveQueue sender ↔
      if nonce = position then hash = other else (position, other) ∈ state.liveQueue sender := by
  rw [mem_liveQueue, slot_ensure, lifecycle_eq, profile_ensure]
  by_cases here : nonce = position
  · rw [if_pos ⟨rfl, here⟩, if_pos here]
    constructor
    · exact fun both => Option.some.inj both.1
    · rintro rfl
      rw [if_pos rfl]
      exact ⟨rfl, rfl⟩
  · rw [if_neg fun both => here both.2, if_neg here, mem_liveQueue]
    refine and_congr_right fun held => ?_
    rw [if_neg, ← lifecycle_eq]
    rintro rfl
    exact here (congrArg Prod.snd (own.trans (seats held).symm))

theorem Seats.announced_enqueue (seats : Seats places state) (own : (sender, nonce) = places hash) :
    Announced places hash sender nonce false none state (state.enqueue hash sender nonce) where
  own := own
  off := seats.agreesOff_enqueue own
  entered := by rw [profile_enqueue, if_pos rfl]
  others other differs := by
    rw [profile_enqueue, if_neg differs, if_neg]
    exact fun both => Bool.false_ne_true both.1
  live position other := by
    rw [enqueue, liveQueue_recompute]
    exact seats.mem_liveQueue_ensure own position other
  slots _ _ := slot_recompute_eq_some_iff
  states visited member := by
    rw [Option.getD_none, ite_self]
    exact (seats.ensure own).queueState_scanned member

/-- Setting the queue state of the announced hash. -/
theorem Announced.stating {displaces : Bool}
    (announced : Announced places hash sender nonce displaces none state after)
    (stated : ReplayQueueState) :
    Announced places hash sender nonce displaces (some stated) state
      { after with txs := setQueueState after.txs hash (some stated) } := by
  have profiles : ∀ other, ({ after with txs := setQueueState after.txs hash (some stated) } :
      MempoolState).profile other = after.profile other := fun other =>
    profile_setQueueState after.txs hash other (some stated)
  have live : ({ after with txs := setQueueState after.txs hash (some stated) } :
      MempoolState).liveQueue sender = after.liveQueue sender := by
    rw [liveQueue_eq_iff]
    intro position other
    rw [mem_liveQueue, mem_liveQueue, lifecycle_eq, profiles, ← lifecycle_eq]
    rfl
  refine ⟨announced.own, announced.off.trans (agreesOff_txs fun other foreign => ?_),
    (profiles hash).trans announced.entered,
    fun other differs => (profiles other).trans (announced.others other differs), ?_, ?_, ?_⟩
  · rw [getElem?_setQueueState, if_neg]
    rintro rfl
    exact foreign (congrArg Prod.fst announced.own).symm
  · rw [live]
    exact announced.live
  · rw [live]
    exact announced.slots
  · intro visited member
    rw [verdicts, live] at member
    have before := announced.states visited member
    rw [Option.getD_none, ite_self] at before
    rw [queueState, Option.bind_eq_some_iff] at before
    obtain ⟨entry, stored, carried⟩ := before
    dsimp only [queueState]
    rw [getElem?_setQueueState, stored]
    split
    case isTrue => rfl
    case isFalse => exact carried

theorem Seats.mem_liveQueue_displace (seats : Seats places state) (decoded : TxDecoded)
    {position : UInt64} (elsewhere : decoded.nonce ≠ position) (other : TxHash) :
    (position, other) ∈ (state.displace decoded).2.liveQueue decoded.sender ↔
      (position, other) ∈ state.liveQueue decoded.sender := by
  rw [mem_liveQueue, mem_liveQueue, slot_displace, lifecycle_eq, profile_displace]
  refine and_congr_right fun held => ?_
  rw [if_neg, ← lifecycle_eq]
  exact fun both => elsewhere (seats.unique both.1 held).2

theorem Seats.announced_applyDecoded (seats : Seats places state) {decoded : TxDecoded}
    (own : (decoded.sender, decoded.nonce) = places decoded.hash) :
    Announced places decoded.hash decoded.sender decoded.nonce true none state
      (state.applyDecoded decoded).2 where
  own := own
  off := seats.agreesOff_applyDecoded own
  entered := by rw [profile_applyDecoded, if_pos rfl]
  others other differs := by
    rw [profile_applyDecoded, if_neg differs]
    simp only [true_and]
  live position other := by
    dsimp only [applyDecoded]
    rw [liveQueue_recompute, (seats.displace decoded).mem_liveQueue_ensure own]
    split
    case isTrue => rfl
    case isFalse elsewhere => exact seats.mem_liveQueue_displace decoded elsewhere other
  slots _ _ := slot_recompute_eq_some_iff
  states visited member := by
    rw [Option.getD_none, ite_self]
    exact ((seats.displace decoded).ensure own).queueState_scanned member

/-! ## Retirements -/

theorem liveQueue_removed {status : TxLifecycleStatus} (ended : status ≠ .pending)
    (owner other : Address) (position : UInt64) :
    ((state.restatus hash status).removeSenderQueueEntry hash owner position).liveQueue other =
      (state.liveQueue other).filter fun entry => entry.2 ≠ hash := by
  refine eq_of_increasing_keys (increasing_liveQueue _ _)
    ((increasing_liveQueue state other).filter _) ?_
  rintro ⟨place, holder⟩
  rw [List.mem_filter, mem_liveQueue, mem_liveQueue, decide_eq_true_eq,
    slot_removeSenderQueueEntry, slot_restatus, slot_restatus, lifecycle_eq,
    profile_removeSenderQueueEntry, profile_restatus]
  by_cases same : hash = holder
  · subst same
    simp [ended]
  · rw [if_neg same, ← lifecycle_eq]
    constructor
    · rintro ⟨held, pending⟩
      split at held
      case isTrue => cases held
      case isFalse => exact ⟨⟨held, pending⟩, Ne.symm same⟩
    · rintro ⟨⟨held, pending⟩, -⟩
      refine ⟨?_, pending⟩
      rw [if_neg, held]
      rintro ⟨rfl, rfl, taken⟩
      exact same (Option.some.inj (taken.symm.trans held))

theorem Seats.retired_retire (seats : Seats places state) (knows : Knows places state)
    {status : TxLifecycleStatus} (ended : status ≠ .pending)
    (known : state.place hash = some (sender, nonce)) :
    Retired places hash sender nonce status state (state.retire hash status) := by
  have own := knows.place_eq known
  obtain ⟨earlier, profiled⟩ := place_eq_some_iff.mp known
  have unqueued := retire_of_place known status
  have off : AgreesOff places sender state (state.retire hash status) := by
    have owner : sender = (places hash).1 := congrArg Prod.fst own
    rw [owner]
    exact seats.agreesOff_retire knows status
  refine ⟨own, off, ?_, fun other differs => ?_, ?_, ?_, ?_⟩
  · rw [profile_retire, if_pos rfl, profiled]
    rfl
  · rw [profile_retire, if_neg differs]
  · rw [unqueued, liveQueue_recompute]
    exact liveQueue_removed ended sender sender nonce
  · rw [unqueued]
    exact fun _ _ => slot_recompute_eq_some_iff
  · rw [unqueued]
    intro visited member
    exact ((seats.restatus hash status).removed hash sender nonce).queueState_scanned member

theorem marked_retire {status : TxLifecycleStatus} (ended : status ≠ .pending)
    (unknown : state.place hash = none) : Marked hash status state (state.retire hash status) := by
  rw [retire_of_place_eq_none unknown]
  refine ⟨rfl, fun other differs => getElem?_insert_ne differs, ?_, ?_⟩
  · rw [profile_restatus, if_pos rfl]
    cases state.profile hash <;> exact ⟨_, _, rfl, rfl, rfl⟩
  · dsimp only [queueState, restatus]
    rw [getElem?_insert_eq, if_pos rfl, if_neg ended]
    rfl

theorem Seats.reacts_retire (seats : Seats places state) (knows : Knows places state)
    {status : TxLifecycleStatus} (ended : status ≠ .pending) :
    Reacts places state (state.retire hash status) (.retire hash status true) := by
  refine ⟨ended, ?_⟩
  split
  case h_1 sender nonce known => exact seats.retired_retire knows ended known
  case h_2 unknown =>
    rw [if_pos (Or.inl rfl)]
    exact marked_retire ended unknown

theorem Seats.reacts_applyReplaced (seats : Seats places state) (knows : Knows places state)
    (replaced : TxReplaced) :
    Reacts places state (state.applyReplaced replaced).2
      (.retire replaced.hash (.replaced replaced.replacedBy) false) := by
  have stored : state.txs.contains replaced.hash = true ↔ state.profile replaced.hash ≠ none := by
    rw [contains_eq_isSome, profile, ne_eq, Option.map_eq_none_iff, Option.isSome_iff_ne_none]
  dsimp only [applyReplaced]
  refine ⟨by simp, ?_⟩
  split
  case h_1 sender nonce known =>
    obtain ⟨status, profiled⟩ := place_eq_some_iff.mp known
    rw [if_pos (stored.mpr (profiled ▸ Option.some_ne_none _))]
    exact seats.retired_retire knows (by simp) known
  case h_2 unknown =>
    by_cases present : state.txs.contains replaced.hash = true
    · rw [if_pos present, if_pos (Or.inr (stored.mp present))]
      exact marked_retire (by simp) unknown
    · rw [if_neg present, if_neg]
      · exact ⟨rfl, rfl⟩
      · rintro (registers | known)
        · cases registers
        · exact present (stored.mpr known)

/-! ## Reorgs -/

theorem confirmedIn_eq {entry : TxEntry} (stored : state.txs[hash]? = some entry) :
    state.confirmedIn hash = entry.status.confirmedIn := by
  rw [confirmedIn, lifecycle, stored]
  rfl

/-- Reopening a hash and entering its slot is announcing it. -/
theorem Seats.announced_reopened (seats : Seats places state) (own : (sender, nonce) = places hash)
    (entry : TxEntry) :
    Announced places hash sender nonce false none state
      ((state.reopened hash entry).enqueue hash sender nonce) := by
  have reopens : Seats places (state.reopened hash entry) := seats.of_slots fun _ _ _ held => held
  have announced := reopens.announced_enqueue own
  have off : AgreesOff places sender state (state.reopened hash entry) := by
    have owner : sender = (places hash).1 := congrArg Prod.fst own
    rw [owner]
    exact agreesOff_reopened entry
  refine ⟨own, off.trans announced.off, announced.entered, fun other differs => ?_,
    fun position other => ?_, announced.slots, announced.states⟩
  · rw [announced.others other differs, profile_reopened, if_neg differs]
    rfl
  · rw [announced.live]
    split
    case isTrue => rfl
    case isFalse elsewhere =>
      rw [mem_liveQueue, mem_liveQueue]
      refine and_congr_right fun held => ?_
      rw [lifecycle_eq, profile_reopened, if_neg, ← lifecycle_eq]
      rintro rfl
      exact elsewhere (congrArg Prod.snd (own.trans (seats held).symm))

theorem marked_reopened {entry : TxEntry} (stored : state.txs[hash]? = some entry) :
    Marked hash .pending state (state.reopened hash entry) := by
  refine ⟨rfl, fun other differs => getElem?_insert_ne differs, ?_, ?_⟩
  · rw [profile_reopened, if_pos rfl, profile, stored]
    exact ⟨_, _, rfl, rfl, rfl⟩
  · rw [if_pos rfl]
    dsimp only [queueState, reopened]
    rw [getElem?_insert_eq, if_pos rfl, stored]
    rfl

theorem place_eq_of_stored {entry : TxEntry} (stored : state.txs[hash]? = some entry) :
    state.place hash = match entry.sender, entry.nonce with
      | some sender, some nonce => some (sender, nonce)
      | _, _ => none := by
  obtain ⟨sender, nonce, status, carried⟩ := entry
  rw [place, profile, stored]
  cases sender <;> cases nonce <;> rfl

theorem Seats.reacts_reopened (seats : Seats places state) (knows : Knows places state)
    {entry : TxEntry} (stored : state.txs[hash]? = some entry) {block : BlockHash}
    (confirmed : entry.status.confirmedIn = some block) :
    Reacts places state
      (match entry.sender, entry.nonce with
        | some sender, some nonce => (state.reopened hash entry).enqueue hash sender nonce
        | _, _ => state.reopened hash entry)
      (.reopen hash block) := by
  have known := place_eq_of_stored stored
  dsimp only [Reacts]
  rw [confirmedIn_eq stored, if_pos confirmed, known]
  cases knowsSender : entry.sender with
  | none => exact marked_reopened stored
  | some sender =>
      cases knowsNonce : entry.nonce with
      | none => exact marked_reopened stored
      | some nonce =>
          rw [knowsSender, knowsNonce] at known
          exact seats.announced_reopened (knows.place_eq known) entry

theorem Seats.reacts_applyReorg (seats : Seats places state) (knows : Knows places state)
    (reorged : TxReorged) :
    Reacts places state (state.applyReorg reorged).2
      (.reopen reorged.hash reorged.oldBlockHash) := by
  unfold applyReorg
  cases stored : state.txs[reorged.hash]? with
  | none =>
      dsimp only [Reacts]
      rw [if_neg]
      · exact ⟨rfl, rfl⟩
      · rw [confirmedIn, lifecycle, stored]
        intro confirmed
        cases confirmed
  | some entry =>
      by_cases confirmed : entry.status.confirmedIn = some reorged.oldBlockHash
      · dsimp only
        rw [if_pos confirmed]
        exact (seats.reacts_reopened knows stored confirmed).confirming _
      · dsimp only [Reacts]
        rw [confirmedIn_eq stored, if_neg confirmed, if_neg confirmed]
        exact ⟨rfl, rfl⟩

/-! ## Events -/

/-- **What an event does to the replay model.** -/
theorem Seats.reacts_applyEvent (seats : Seats places state) (knows : Knows places state)
    {payload : EventPayload} (placed : Placed places payload) :
    Reacts places state (state.applyEvent payload).2 (effectOf payload) := by
  cases payload with
  | txDecoded decoded => exact seats.announced_applyDecoded (placed _ _ rfl)
  | txReady ready => exact (seats.announced_enqueue (placed _ _ rfl)).stating .ready
  | txBlocked blocked =>
      have entered : Announced places blocked.hash blocked.sender blocked.nonce false none state
          (state.enqueue blocked.hash blocked.sender blocked.nonce) :=
        seats.announced_enqueue (placed _ _ rfl)
      dsimp only [applyEvent, applyBlocked, effectOf, Reacts]
      cases blocked.expectedNonce with
      | none => exact entered
      | some expected => exact entered.stating (.blocked expected)
  | txDropped dropped => exact seats.reacts_retire knows (by simp)
  | txConfirmedProvisional confirmed => exact (seats.reacts_retire knows (by simp)).confirming _
  | txConfirmedFinal confirmed => exact (seats.reacts_retire knows (by simp)).confirming _
  | txReplaced replaced => exact seats.reacts_applyReplaced knows replaced
  | txReorged reorged => exact seats.reacts_applyReorg knows reorged
  | txSeen | txFetched | candidateQueued | simDispatched | oppDetected | simCompleted
  | assemblyDecisionApplied | bundleSubmitted => exact ⟨rfl, rfl⟩

/-! ## Slots -/

theorem Announced.seats {displaces : Bool} {stated : Option ReplayQueueState}
    (announced : Announced places hash sender nonce displaces stated state after)
    (seats : Seats places state) : Seats places after := by
  intro owner position holder held
  by_cases same : owner = sender
  · subst same
    have live := (announced.live position holder).mp ((announced.slots position holder).mp held)
    split at live
    case isTrue here =>
      rw [← here, ← live]
      exact announced.own
    case isFalse => exact seats (mem_liveQueue.mp live).1
  · rw [announced.off.slots owner same] at held
    exact seats held

theorem Retired.seats {status : TxLifecycleStatus}
    (retired : Retired places hash sender nonce status state after)
    (seats : Seats places state) : Seats places after := by
  intro owner position holder held
  by_cases same : owner = sender
  · subst same
    have live := (retired.slots position holder).mp held
    rw [retired.live] at live
    exact seats (mem_liveQueue.mp (List.mem_filter.mp live).1).1
  · rw [retired.off.slots owner same] at held
    exact seats held

/-- **Every slot still belongs to the hash in it.** -/
theorem Reacts.seats {effect : Effect} (reacts : Reacts places state after effect)
    (seats : Seats places state) : Seats places after := by
  have framed : after.senderQueues = state.senderQueues → Seats places after := by
    intro same owner position holder held
    rw [slot, same] at held
    exact seats held
  cases effect with
  | announce => exact Announced.seats reacts seats
  | retire hash status registers =>
      obtain ⟨-, reacts⟩ := reacts
      split at reacts
      · exact reacts.seats seats
      · split at reacts
        · exact framed reacts.slots
        · exact framed reacts.slots
  | reopen hash block =>
      dsimp only [Reacts] at reacts
      split at reacts
      · split at reacts
        · exact reacts.seats seats
        · exact framed reacts.slots
      · exact framed reacts.slots
  | idle => exact framed (Unchanged.slots reacts)

end Reactions

end MempoolState

end Mempulse.Replay
