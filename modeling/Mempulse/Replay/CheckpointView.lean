import Mempulse.Replay.Reactions

/-!
# What a replay from a checkpoint still knows

A checkpoint keeps which hashes are pending and which of them sit in which slot. It forgets the
sender and the nonce in each entry, the queue states, and every hash that is not pending. A replay
that starts from it learns a hash again when an event announces it, and the queue state of a hash
when it scans its sender. This module records what such a replay knows, says which events it
follows with this knowledge, and relates its states to those of the full replay.
-/

set_option autoImplicit false

namespace Mempulse.Replay

open Std EventLog Library Scheduler

namespace MempoolState

/-- What a replay from a checkpoint knows. -/
structure View where
  /-- The hashes an event has announced since the cut: their senders and nonces are known. -/
  announced : List TxHash
  /-- The hashes that have an entry. -/
  met : List TxHash
  /-- The hashes whose queue states have been found by a scan since the cut. -/
  carried : List TxHash
  /-- The slots, with those of forgotten hashes that have been retired since. -/
  slots : Address → UInt64 → Option TxHash

namespace View

/-- What the checkpoint of a state keeps. -/
def atCut (cut : MempoolState) : View where
  announced := []
  met := cut.pendingHashes
  carried := []
  slots := cut.slot

/-- A scan of a sender finds its queue states and drops the slots of what is not pending. -/
def scan (view : View) (after : MempoolState) (sender : Address) : View :=
  { view with
    carried := (after.liveQueue sender).map Prod.snd ++ view.carried
    slots := fun other nonce =>
      if other = sender then after.slot other nonce else view.slots other nonce }

/-- A transaction is announced, and its sender's queue is walked. -/
def announce (view : View) (after : MempoolState) (hash : TxHash) (sender : Address) : View :=
  { view with
    announced := hash :: view.announced
    met := hash :: view.met }.scan after sender

/-- A transaction leaves, and is no longer carried from the checkpoint. -/
def retire (view : View) (hash : TxHash) (registers : Bool) : View :=
  { view with
    met := if registers then hash :: view.met else view.met
    carried := view.carried.filter fun other => other ≠ hash }

/-- What is known after an effect; the states are those of the full replay. -/
def step (view : View) (before after : MempoolState) : Effect → View
  | .announce hash sender _ _ _ => view.announce after hash sender
  | .retire hash _ registers =>
    match before.place hash with
    | some (sender, _) =>
      if hash ∈ view.announced then (view.retire hash registers).scan after sender
      else view.retire hash registers
    | none => view.retire hash registers
  | .reopen hash block =>
    match before.place hash with
    | some (sender, _) =>
      if before.confirmedIn hash = some block ∧ hash ∈ view.announced then
        view.announce after hash sender
      else view
    | none => view
  | .idle => view

/-- Every entry of a sender's queue whose queue state has not been found since the cut has the
verdict of a scan. -/
def Shows (view : View) (state : MempoolState) (sender : Address) : Prop :=
  ∀ visited ∈ state.verdicts sender, visited.1.2 ∉ view.carried →
    (state.queueState visited.1.2).getD visited.2 = visited.2

/-- A scan of these entries gives the hashes whose queue states have been found the queue states
they have. -/
def Undisturbed (view : View) (state : MempoolState) (entries : List (UInt64 × TxHash)) : Prop :=
  ∀ visited ∈ GapCursor.scan checkedSucc {} entries, visited.1.2 ∈ view.carried →
    state.queueState visited.1.2 = some visited.2

/-- A forgotten hash leaves or enters its queue without changing what is known of the others. To
enter it, the hash must still sit in its slot, or have no slot and an entry. -/
def Admits (view : View) (state : MempoolState) : Effect → Prop
  | .retire hash _ _ =>
    hash ∉ view.announced → ∀ sender nonce, state.place hash = some (sender, nonce) →
      view.Undisturbed state ((state.liveQueue sender).filter fun entry => entry.2 ≠ hash)
  | .reopen hash block =>
    state.confirmedIn hash = some block → hash ∉ view.announced →
      match state.place hash with
      | some (sender, nonce) =>
        view.slots sender nonce = some hash ∧
          view.Undisturbed state
            (((state.senderQueues[sender]?).getD ∅).insert nonce hash).toList
      | none => hash ∈ view.met
  | .announce .. | .idle => True

end View

/-- The sender the full replay scans. -/
def scannedBy (state : MempoolState) : Effect → Option Address
  | .announce _ sender _ _ _ => some sender
  | .retire hash _ _ => (state.place hash).map Prod.fst
  | .reopen hash block =>
    if state.confirmedIn hash = some block then (state.place hash).map Prod.fst else none
  | .idle => none

/-- The effect can be followed from what is known. -/
def View.Follows (view : View) (state : MempoolState) (effect : Effect) : Prop :=
  (∀ sender, state.scannedBy effect ≠ some sender → view.Shows state sender) ∧
    view.Admits state effect

/-! ## The relation -/

/-- What the replay from the checkpoint has for a hash. -/
structure HashMirror (places : TxHash → Address × UInt64) (view : View)
    (full restored : MempoolState) (hash : TxHash) : Prop where
  pending : restored.lifecycle hash = some .pending ↔ full.lifecycle hash = some .pending
  known : hash ∈ view.announced →
    restored.profile hash = full.profile hash ∧ full.place hash = some (places hash)
  forgotten : hash ∉ view.announced → (restored.profile hash).bind (·.sender) = none
  met : hash ∈ view.met ↔ (restored.profile hash).isSome = true
  -- A forgotten hash that has lost its slot can have been replaced in it.
  status : ∀ status, restored.lifecycle hash = some status → full.lifecycle hash = some status ∨
    (status.confirmedIn = none ∧ full.place hash ≠ none ∧
      view.slots (places hash).1 (places hash).2 ≠ some hash)

/-- What the replay from the checkpoint has for a sender's queue. -/
structure QueueMirror (view : View) (full restored : MempoolState) (sender : Address) : Prop where
  slots : ∀ nonce, restored.slot sender nonce = view.slots sender nonce
  seated : ∀ nonce hash, view.slots sender nonce = some hash →
    full.place hash = some (sender, nonce) ∧ hash ∈ view.met
  live : ∀ nonce hash, full.slot sender nonce = some hash ↔
    view.slots sender nonce = some hash ∧ full.lifecycle hash = some .pending
  carried : ∀ nonce hash, full.slot sender nonce = some hash → hash ∈ view.carried →
    ∃ verdict, full.queueState hash = some verdict ∧ restored.queueState hash = some verdict
  blank : ∀ nonce hash, view.slots sender nonce = some hash → hash ∉ view.carried →
    restored.queueState hash = none
  stale : ∀ nonce hash, view.slots sender nonce = some hash →
    full.lifecycle hash ≠ some .pending → hash ∉ view.carried ∧ hash ∉ view.announced

/-- The state of the full replay and that of the replay from the checkpoint. -/
structure Mirrors (places : TxHash → Address × UInt64) (view : View)
    (full restored : MempoolState) : Prop where
  named : Named full
  knows : Knows places full
  hashes : ∀ hash, HashMirror places view full restored hash
  queues : ∀ sender, QueueMirror view full restored sender

section Mirrors

variable {places : TxHash → Address × UInt64} {view later : View}
  {full restored full' restored' : MempoolState} {hash : TxHash} {sender owner : Address}
  {nonce : UInt64}

namespace Mirrors

theorem knows_restored (mirrors : Mirrors places view full restored) : Knows places restored := by
  intro hash sender nonce status known
  by_cases announced : hash ∈ view.announced
  · rw [((mirrors.hashes hash).known announced).1] at known
    exact mirrors.knows known
  · have forgotten := (mirrors.hashes hash).forgotten announced
    rw [known] at forgotten
    cases forgotten

theorem seats_restored (mirrors : Mirrors places view full restored) : Seats places restored := by
  intro sender nonce hash held
  rw [(mirrors.queues sender).slots] at held
  exact mirrors.knows.place_eq ((mirrors.queues sender).seated nonce hash held).1

theorem seats (mirrors : Mirrors places view full restored) : Seats places full :=
  mirrors.named.seats mirrors.knows

theorem place_restored_of_forgotten (mirrors : Mirrors places view full restored)
    (forgotten : hash ∉ view.announced) : restored.place hash = none := by
  have unknown := (mirrors.hashes hash).forgotten forgotten
  rw [place]
  split
  case h_1 sender nonce status known =>
    rw [known] at unknown
    cases unknown
  case h_2 => rfl

theorem liveQueue_eq (mirrors : Mirrors places view full restored) (sender : Address) :
    full.liveQueue sender = restored.liveQueue sender := by
  rw [liveQueue_eq_iff]
  intro nonce hash
  rw [mirrors.named.mem_liveQueue, mem_liveQueue, (mirrors.queues sender).slots,
    (mirrors.queues sender).live, (mirrors.hashes hash).pending]

/-- **Mirrored states are alike exactly when what is not known shows the verdicts of a scan.** -/
theorem alike_iff (mirrors : Mirrors places view full restored) :
    Alike full restored ↔ ∀ sender, view.Shows full sender := by
  have blank : ∀ {sender : Address} {visited : (UInt64 × TxHash) × ReplayQueueState},
      visited ∈ full.verdicts sender → visited.1.2 ∉ view.carried →
        restored.queueState visited.1.2 = none := by
    intro sender visited member unknown
    have held := mirrors.named.mem_liveQueue.mp (mem_liveQueue_of_mem_verdicts member)
    exact (mirrors.queues sender).blank _ _ (((mirrors.queues sender).live _ _).mp held).1 unknown
  constructor
  · intro alike sender visited member unknown
    rw [alike.shown sender visited member, blank member unknown, Option.getD_none]
  · intro shows
    refine ⟨fun hash => (mirrors.hashes hash).pending.symm, mirrors.liveQueue_eq, ?_⟩
    intro sender visited member
    by_cases known : visited.1.2 ∈ view.carried
    · have held := mirrors.named.mem_liveQueue.mp (mem_liveQueue_of_mem_verdicts member)
      obtain ⟨verdict, stated, alsoStated⟩ := (mirrors.queues sender).carried _ _ held known
      rw [stated, alsoStated]
    · rw [shows sender visited member known, blank member known, Option.getD_none]

end Mirrors

/-! ## What an effect leaves alone -/

/-- A hash whose profiles are kept. -/
theorem HashMirror.congr (mirror : HashMirror places view full restored hash)
    (kept : full'.profile hash = full.profile hash)
    (alsoKept : restored'.profile hash = restored.profile hash)
    (announced : hash ∈ later.announced ↔ hash ∈ view.announced)
    (met : hash ∈ later.met ↔ hash ∈ view.met)
    (seat : later.slots (places hash).1 (places hash).2 = some hash →
      view.slots (places hash).1 (places hash).2 = some hash) :
    HashMirror places later full' restored' hash := by
  have fullStatus : full'.lifecycle hash = full.lifecycle hash := by
    rw [lifecycle_eq, kept, ← lifecycle_eq]
  have restoredStatus : restored'.lifecycle hash = restored.lifecycle hash := by
    rw [lifecycle_eq, alsoKept, ← lifecycle_eq]
  refine ⟨?_, fun known => ?_, fun unknown => ?_, ?_, fun status reached => ?_⟩
  · rw [fullStatus, restoredStatus]
    exact mirror.pending
  · rw [kept, alsoKept, place_congr kept]
    exact mirror.known (announced.mp known)
  · rw [alsoKept]
    exact mirror.forgotten (mt announced.mpr unknown)
  · rw [met, alsoKept]
    exact mirror.met
  · rw [restoredStatus] at reached
    rw [fullStatus, place_congr kept]
    rcases mirror.status status reached with same | ⟨unconfirmed, placed, unseated⟩
    · exact Or.inl same
    · exact Or.inr ⟨unconfirmed, placed, mt seat unseated⟩

/-- A hash that is announced and has the same profile on both sides. -/
theorem HashMirror.of_announced {profile : Profile} (announced : hash ∈ view.announced)
    (met : hash ∈ view.met) (profiled : full.profile hash = some profile)
    (alsoProfiled : restored.profile hash = some profile)
    (placed : full.place hash = some (places hash)) :
    HashMirror places view full restored hash := by
  have same : restored.lifecycle hash = full.lifecycle hash := by
    rw [lifecycle_eq, lifecycle_eq, profiled, alsoProfiled]
  refine ⟨by rw [same], fun _ => ⟨alsoProfiled.trans profiled.symm, placed⟩,
    fun unknown => absurd announced unknown, iff_of_true met (by rw [alsoProfiled]; rfl), ?_⟩
  intro status reached
  exact Or.inl (same ▸ reached)

/-- A queue whose slots are kept, with the entries of the hashes in them. -/
theorem QueueMirror.congr (mirror : QueueMirror view full restored sender)
    (fullSlots : ∀ nonce, full'.slot sender nonce = full.slot sender nonce)
    (restoredSlots : ∀ nonce, restored'.slot sender nonce = restored.slot sender nonce)
    (viewSlots : ∀ nonce, later.slots sender nonce = view.slots sender nonce)
    (kept : ∀ nonce hash, view.slots sender nonce = some hash →
      full'.profile hash = full.profile hash ∧ full'.queueState hash = full.queueState hash ∧
        restored'.queueState hash = restored.queueState hash)
    (lists : ∀ nonce hash, view.slots sender nonce = some hash →
      (hash ∈ view.met → hash ∈ later.met) ∧ (hash ∈ later.carried ↔ hash ∈ view.carried) ∧
        (hash ∈ later.announced ↔ hash ∈ view.announced)) :
    QueueMirror later full' restored' sender := by
  refine ⟨fun nonce => ?_, fun nonce hash seated => ?_, fun nonce hash => ?_,
    fun nonce hash held known => ?_, fun nonce hash seated unknown => ?_,
    fun nonce hash seated ended => ?_⟩
  · rw [restoredSlots, viewSlots, mirror.slots]
  · rw [viewSlots] at seated
    rw [place_congr (kept nonce hash seated).1]
    have before := mirror.seated nonce hash seated
    exact ⟨before.1, (lists nonce hash seated).1 before.2⟩
  · rw [fullSlots, viewSlots, mirror.live]
    refine and_congr_right fun seated => ?_
    rw [lifecycle_eq, lifecycle_eq, (kept nonce hash seated).1]
  · rw [fullSlots] at held
    have seated := ((mirror.live nonce hash).mp held).1
    rw [(kept nonce hash seated).2.1, (kept nonce hash seated).2.2]
    exact mirror.carried nonce hash held ((lists nonce hash seated).2.1.mp known)
  · rw [viewSlots] at seated
    rw [(kept nonce hash seated).2.2]
    exact mirror.blank nonce hash seated (mt (lists nonce hash seated).2.1.mpr unknown)
  · rw [viewSlots] at seated
    rw [lifecycle_eq, (kept nonce hash seated).1, ← lifecycle_eq] at ended
    have before := mirror.stale nonce hash seated ended
    exact ⟨mt (lists nonce hash seated).2.1.mp before.1,
      mt (lists nonce hash seated).2.2.mp before.2⟩

@[simp] theorem View.slots_scan (view : View) (state : MempoolState) (sender : Address)
    (nonce : UInt64) : (view.scan state sender).slots sender nonce = state.slot sender nonce :=
  if_pos rfl

/-- A queue both sides have scanned. -/
theorem QueueMirror.of_scan (named : Named full)
    (slots : ∀ nonce hash, full.slot sender nonce = some hash ↔
      restored.slot sender nonce = some hash)
    (met : ∀ nonce hash, full.slot sender nonce = some hash → hash ∈ view.met)
    (states : ∀ nonce hash, full.slot sender nonce = some hash →
      ∃ verdict, full.queueState hash = some verdict ∧ restored.queueState hash = some verdict) :
    QueueMirror (view.scan full sender) full restored sender := by
  have carried : ∀ {nonce : UInt64} {hash : TxHash}, full.slot sender nonce = some hash →
      hash ∈ (view.scan full sender).carried := fun held =>
    List.mem_append_left _ (List.mem_map_of_mem (f := Prod.snd) (named.mem_liveQueue.mpr held))
  refine ⟨fun nonce => ?_, fun nonce hash seated => ?_, fun nonce hash => ?_,
    fun nonce hash held _ => states nonce hash held, fun nonce hash seated unknown => ?_,
    fun nonce hash seated ended => ?_⟩
  · rw [View.slots_scan]
    exact Option.ext fun hash => (slots nonce hash).symm
  · rw [View.slots_scan] at seated
    exact ⟨named.place_eq seated, met nonce hash seated⟩
  · rw [View.slots_scan, and_iff_left_of_imp named.lifecycle]
  · rw [View.slots_scan] at seated
    exact absurd (carried seated) unknown
  · rw [View.slots_scan] at seated
    exact absurd (named.lifecycle seated) ended

/-- What is known of the hashes and slots of the other senders is kept. -/
structure View.AgreesOff (places : TxHash → Address × UInt64) (owner : Address)
    (view later : View) : Prop where
  announced : ∀ hash, (places hash).1 ≠ owner → (hash ∈ later.announced ↔ hash ∈ view.announced)
  met : ∀ hash, (places hash).1 ≠ owner → (hash ∈ later.met ↔ hash ∈ view.met)
  carried : ∀ hash, (places hash).1 ≠ owner → (hash ∈ later.carried ↔ hash ∈ view.carried)
  slots : ∀ sender, sender ≠ owner → ∀ nonce, later.slots sender nonce = view.slots sender nonce

/-- It is enough to look at one sender. -/
theorem Mirrors.of_owner (mirrors : Mirrors places view full restored) (named : Named full')
    (knows : Knows places full') (fullOff : AgreesOff places owner full full')
    (restoredOff : AgreesOff places owner restored restored')
    (viewOff : view.AgreesOff places owner later)
    (hashes : ∀ hash, (places hash).1 = owner → HashMirror places later full' restored' hash)
    (queue : QueueMirror later full' restored' owner) :
    Mirrors places later full' restored' := by
  refine ⟨named, knows, fun hash => ?_, fun sender => ?_⟩
  · by_cases own : (places hash).1 = owner
    · exact hashes hash own
    · refine (mirrors.hashes hash).congr (fullOff.profile own) (restoredOff.profile own)
        (viewOff.announced hash own) (viewOff.met hash own) fun seated => ?_
      rwa [viewOff.slots _ own] at seated
  · by_cases own : sender = owner
    · exact own ▸ queue
    · have foreign : ∀ nonce hash, view.slots sender nonce = some hash → (places hash).1 ≠ owner := by
        intro nonce hash seated
        have placed := mirrors.knows.place_eq ((mirrors.queues sender).seated nonce hash seated).1
        rwa [← congrArg Prod.fst placed]
      refine (mirrors.queues sender).congr (fullOff.slots sender own) (restoredOff.slots sender own)
        (viewOff.slots sender own) (fun nonce hash seated => ?_) fun nonce hash seated => ?_
      · have differs := foreign nonce hash seated
        exact ⟨fullOff.profile differs, fullOff.queueState differs, restoredOff.queueState differs⟩
      · have differs := foreign nonce hash seated
        exact ⟨(viewOff.met hash differs).mpr, viewOff.carried hash differs,
          viewOff.announced hash differs⟩

theorem Mirrors.of_unchanged (mirrors : Mirrors places view full restored)
    (fullKept : Unchanged full full') (restoredKept : Unchanged restored restored') :
    Mirrors places view full' restored' := by
  obtain ⟨txs, queues, confirmations⟩ := full'
  obtain ⟨restoredTxs, restoredQueues, restoredConfirmations⟩ := restored'
  obtain ⟨rfl, rfl⟩ := fullKept
  obtain ⟨rfl, rfl⟩ := restoredKept
  refine ⟨mirrors.named, mirrors.knows, fun hash => ?_, fun sender => ?_⟩
  · exact (mirrors.hashes hash).congr rfl rfl Iff.rfl Iff.rfl id
  · exact (mirrors.queues sender).congr (fun _ => rfl) (fun _ => rfl) (fun _ => rfl)
      (fun _ _ _ => ⟨rfl, rfl, rfl⟩) fun _ _ _ => ⟨id, Iff.rfl, Iff.rfl⟩

/-! ## Slots that name pending transactions -/

theorem Named.of_owner (named : Named full) (knows : Knows places full)
    (off : AgreesOff places owner full full')
    (own : ∀ nonce hash, full'.slot owner nonce = some hash →
      full'.profile hash = some ⟨some owner, some nonce, .pending⟩) : Named full' := by
  intro sender nonce hash held
  by_cases same : sender = owner
  · rw [same] at held ⊢
    exact own nonce hash held
  · rw [off.slots sender same] at held
    rw [off.profile, named held]
    rwa [← congrArg Prod.fst (knows (named held))]

theorem Announced.named {displaces : Bool} {stated : Option ReplayQueueState}
    (announced : Announced places hash sender nonce displaces stated full full') (named : Named full)
    (knows : Knows places full) : Named full' := by
  refine named.of_owner knows announced.off fun position other held => ?_
  rw [announced.slots, announced.live] at held
  split at held
  case isTrue here => rw [← here, ← held, announced.entered]
  case isFalse elsewhere =>
    have before := named.mem_liveQueue.mp held
    have differs : hash ≠ other := by
      rintro rfl
      exact elsewhere (congrArg Prod.snd (announced.own.trans (knows (named before)).symm))
    rw [announced.others other differs, if_neg, named before]
    exact fun displaced => elsewhere (named.unique displaced.2 before).2

theorem Retired.named {status : TxLifecycleStatus}
    (retired : Retired places hash sender nonce status full full') (named : Named full)
    (knows : Knows places full) : Named full' := by
  refine named.of_owner knows retired.off fun position other held => ?_
  rw [retired.slots, retired.live, List.mem_filter, named.mem_liveQueue, decide_eq_true_eq] at held
  rw [retired.others other (Ne.symm held.2), named held.1]

theorem Marked.slot {status : TxLifecycleStatus} (marked : Marked hash status full full')
    (sender : Address) (nonce : UInt64) : full'.slot sender nonce = full.slot sender nonce := by
  rw [MempoolState.slot, MempoolState.slot, marked.slots]

theorem Marked.profile {status : TxLifecycleStatus} (marked : Marked hash status full full')
    {other : TxHash} (differs : hash ≠ other) : full'.profile other = full.profile other := by
  rw [MempoolState.profile, MempoolState.profile, marked.others other differs]

theorem Marked.queueState {status : TxLifecycleStatus} (marked : Marked hash status full full')
    {other : TxHash} (differs : hash ≠ other) : full'.queueState other = full.queueState other := by
  rw [MempoolState.queueState, MempoolState.queueState, marked.others other differs]

theorem Marked.off {status : TxLifecycleStatus} (marked : Marked hash status full full') :
    AgreesOff places (places hash).1 full full' :=
  ⟨fun sender _ nonce => marked.slot sender nonce,
    fun other foreign => marked.others other (ne_of_foreign foreign)⟩

theorem Marked.lifecycle {status : TxLifecycleStatus} (marked : Marked hash status full full') :
    full'.lifecycle hash = some status := by
  obtain ⟨_, _, profiled, -, -⟩ := marked.marked
  rw [lifecycle_eq, profiled]
  rfl

theorem Marked.place {status : TxLifecycleStatus} (marked : Marked hash status full full')
    (unknown : full.place hash = none) : full'.place hash = none := by
  obtain ⟨sender, nonce, profiled, knowsSender, knowsNonce⟩ := marked.marked
  cases known : full'.place hash with
  | none => rfl
  | some seat =>
      obtain ⟨holder, position⟩ := seat
      obtain ⟨_, same⟩ := place_eq_some_iff.mp known
      rw [profiled] at same
      cases same
      obtain ⟨⟨_, _, earlier⟩, before, rfl⟩ := Option.bind_eq_some_iff.mp knowsSender
      rw [before] at knowsNonce
      obtain rfl : _ = some position := knowsNonce
      rw [place_eq_some_iff.mpr ⟨earlier, before⟩] at unknown
      cases unknown

/-- A hash whose sender or nonce is not known sits in no slot. -/
theorem Named.slot_ne_of_place (named : Named full) (unknown : full.place hash = none)
    (sender : Address) (nonce : UInt64) : full.slot sender nonce ≠ some hash := by
  intro held
  rw [named.place_eq held] at unknown
  cases unknown

theorem Marked.named {status : TxLifecycleStatus} (marked : Marked hash status full full')
    (unknown : full.place hash = none) (named : Named full) : Named full' := by
  intro sender nonce other held
  rw [marked.slot] at held
  rw [marked.profile, named held]
  rintro rfl
  exact named.slot_ne_of_place unknown sender nonce held

end Mirrors

end MempoolState

end Mempulse.Replay
