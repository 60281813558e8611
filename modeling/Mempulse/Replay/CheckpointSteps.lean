import Mempulse.Replay.CheckpointView

/-!
# A replay from a checkpoint follows an event

An event changes the queue of one sender in the full replay and in the replay from the checkpoint.
When both scan it they agree on it afterwards. When the hash is forgotten only the full replay
scans it, and the other one agrees with it exactly when the scan changes nothing that it carries.
-/

set_option autoImplicit false

namespace Mempulse.Replay

open Std EventLog Library Scheduler

namespace MempoolState

variable {places : TxHash → Address × UInt64} {view later : View}
  {full restored full' restored' : MempoolState} {hash : TxHash} {sender owner : Address}
  {nonce : UInt64}

/-! ## Announcements -/

theorem View.agreesOff_scan (seats : Seats places full) (view : View) (owner : Address) :
    View.AgreesOff places owner view (view.scan full owner) := by
  refine ⟨fun _ _ => Iff.rfl, fun _ _ => Iff.rfl, fun hash foreign => ?_, fun sender differs nonce =>
    if_neg differs⟩
  refine ⟨fun listed => ?_, fun listed => List.mem_append_right _ listed⟩
  rcases List.mem_append.mp listed with queued | earlier
  · obtain ⟨⟨nonce, _⟩, live, rfl⟩ := List.mem_map.mp queued
    exact absurd (mem_liveQueue.mp live).1 (seats.elsewhere foreign nonce)
  · exact earlier

theorem View.AgreesOff.trans {middle : View} (first : View.AgreesOff places owner view middle)
    (second : View.AgreesOff places owner middle later) : View.AgreesOff places owner view later :=
  ⟨fun hash foreign => (second.announced hash foreign).trans (first.announced hash foreign),
    fun hash foreign => (second.met hash foreign).trans (first.met hash foreign),
    fun hash foreign => (second.carried hash foreign).trans (first.carried hash foreign),
    fun sender differs nonce => (second.slots sender differs nonce).trans
      (first.slots sender differs nonce)⟩

theorem View.agreesOff_announce (seats : Seats places full) (view : View)
    (own : (places hash).1 = owner) :
    View.AgreesOff places owner view (view.announce full hash owner) := by
  have noted : ∀ (list : List TxHash) (other : TxHash), (places other).1 ≠ owner →
      (other ∈ hash :: list ↔ other ∈ list) := by
    intro list other foreign
    refine ⟨fun listed => (List.mem_cons.mp listed).resolve_left ?_, List.mem_cons_of_mem hash⟩
    rintro rfl
    exact foreign own
  have entered : View.AgreesOff places owner view
      { view with announced := hash :: view.announced, met := hash :: view.met } :=
    ⟨noted view.announced, noted view.met, fun _ _ => Iff.rfl, fun _ _ _ => rfl⟩
  exact entered.trans (View.agreesOff_scan seats _ owner)

theorem View.agreesOff_retire (view : View) (registers : Bool) :
    View.AgreesOff places (places hash).1 view (view.retire hash registers) := by
  refine ⟨fun _ _ => Iff.rfl, fun other foreign => ?_, fun other foreign => ?_, fun _ _ _ => rfl⟩
  · have differs : other ≠ hash := Ne.symm (ne_of_foreign foreign)
    cases registers with
    | false => exact Iff.rfl
    | true => exact ⟨fun listed => (List.mem_cons.mp listed).resolve_left differs,
        List.mem_cons_of_mem hash⟩
  · have differs : other ≠ hash := Ne.symm (ne_of_foreign foreign)
    dsimp only [View.retire]
    rw [List.mem_filter, and_iff_left (decide_eq_true differs)]

/-- Both sides have scanned a sender and found the same queue and the same queue states. -/
theorem QueueMirror.of_states (named : Named full)
    (live : full.liveQueue sender = restored.liveQueue sender)
    (slots : ∀ nonce hash, full.slot sender nonce = some hash ↔
      (nonce, hash) ∈ full.liveQueue sender)
    (alsoSlots : ∀ nonce hash, restored.slot sender nonce = some hash ↔
      (nonce, hash) ∈ restored.liveQueue sender)
    (met : ∀ nonce hash, (nonce, hash) ∈ full.liveQueue sender → hash ∈ view.met)
    {found : (UInt64 × TxHash) × ReplayQueueState → ReplayQueueState}
    (states : ∀ visited ∈ full.verdicts sender, full.queueState visited.1.2 = some (found visited))
    (alsoStates : ∀ visited ∈ restored.verdicts sender,
      restored.queueState visited.1.2 = some (found visited)) :
    QueueMirror (view.scan full sender) full restored sender := by
  refine QueueMirror.of_scan named (fun nonce hash => ?_) (fun nonce hash held => ?_)
    fun nonce hash held => ?_
  · rw [slots, alsoSlots, live]
  · exact met nonce hash ((slots nonce hash).mp held)
  · obtain ⟨verdict, visited⟩ := exists_verdict ((slots nonce hash).mp held)
    have alsoVisited : ((nonce, hash), verdict) ∈ restored.verdicts sender := by
      rwa [verdicts, ← live]
    exact ⟨found ((nonce, hash), verdict), states _ visited, alsoStates _ alsoVisited⟩

theorem lifecycle_of_profile_map {status : TxLifecycleStatus}
    (mapped : full'.profile hash =
      (full.profile hash).map fun known => { known with status := status }) :
    full'.lifecycle hash = (full.profile hash).map fun _ => status := by
  rw [lifecycle_eq, mapped, Option.map_map]
  rfl

theorem place_of_profile_map {status : TxLifecycleStatus}
    (mapped : full'.profile hash =
      (full.profile hash).map fun known => { known with status := status }) :
    full'.place hash = full.place hash := by
  cases profiled : full.profile hash with
  | none =>
      rw [profiled] at mapped
      exact place_congr (mapped.trans profiled.symm)
  | some known =>
      obtain ⟨sender, nonce, earlier⟩ := known
      rw [profiled] at mapped
      rw [place, place, mapped, profiled]
      cases sender <;> cases nonce <;> rfl

/-- A hash that both sides have displaced. -/
theorem HashMirror.of_displaced {status : TxLifecycleStatus} (ended : status ≠ .pending)
    (mirror : HashMirror places view full restored hash) (present : full.profile hash ≠ none)
    (mapped : full'.profile hash =
      (full.profile hash).map fun known => { known with status := status })
    (alsoMapped : restored'.profile hash =
      (restored.profile hash).map fun known => { known with status := status })
    (announced : hash ∈ later.announced ↔ hash ∈ view.announced)
    (met : hash ∈ later.met ↔ hash ∈ view.met) :
    HashMirror places later full' restored' hash := by
  have fullStatus : full'.lifecycle hash = some status := by
    rw [lifecycle_of_profile_map mapped]
    obtain ⟨known, profiled⟩ := Option.ne_none_iff_exists'.mp present
    rw [profiled]
    rfl
  have restoredStatus : ∀ reached, restored'.lifecycle hash = some reached → status = reached := by
    intro reached held
    rw [lifecycle_of_profile_map alsoMapped] at held
    obtain ⟨_, -, same⟩ := Option.map_eq_some_iff.mp held
    exact same
  refine ⟨iff_of_false (fun pending => ended (restoredStatus _ pending)) ?_, fun known => ?_,
    fun unknown => ?_, ?_, fun reached held => Or.inl (restoredStatus reached held ▸ fullStatus)⟩
  · rw [fullStatus]
    exact fun pending => ended (Option.some.inj pending)
  · have before := mirror.known (announced.mp known)
    rw [mapped, alsoMapped, before.1, place_of_profile_map mapped]
    exact ⟨rfl, before.2⟩
  · have before := mirror.forgotten (mt announced.mpr unknown)
    rw [alsoMapped, Option.bind_map]
    exact before
  · rw [met, mirror.met, alsoMapped, Option.isSome_map]

/-- A retired hash whose slot only the replay from the checkpoint had kept. -/
theorem HashMirror.of_unseated {status : TxLifecycleStatus} (ended : status ≠ .pending)
    (unconfirmed : status.confirmedIn = none) (mirror : HashMirror places view full restored hash)
    (retired : full.lifecycle hash ≠ some .pending) (forgotten : hash ∉ view.announced)
    (placed : full.place hash ≠ none) (kept : full'.profile hash = full.profile hash)
    (alsoMapped : restored'.profile hash =
      (restored.profile hash).map fun known => { known with status := status })
    (announced : hash ∈ later.announced ↔ hash ∈ view.announced)
    (met : hash ∈ later.met ↔ hash ∈ view.met)
    (unseated : later.slots (places hash).1 (places hash).2 ≠ some hash) :
    HashMirror places later full' restored' hash := by
  have restoredStatus : ∀ reached, restored'.lifecycle hash = some reached → status = reached := by
    intro reached held
    rw [lifecycle_of_profile_map alsoMapped] at held
    obtain ⟨_, -, same⟩ := Option.map_eq_some_iff.mp held
    exact same
  refine ⟨iff_of_false (fun pending => ended (restoredStatus _ pending)) ?_,
    fun known => absurd (announced.mp known) forgotten, fun _ => ?_, ?_, fun reached held => ?_⟩
  · rwa [lifecycle_eq, kept, ← lifecycle_eq]
  · rw [alsoMapped, Option.bind_map]
    exact mirror.forgotten forgotten
  · rw [met, mirror.met, alsoMapped, Option.isSome_map]
  · rw [← restoredStatus reached held, place_congr kept]
    exact Or.inr ⟨unconfirmed, placed, unseated⟩

/-- Both sides announce a hash. -/
theorem Mirrors.announce {displaces : Bool} {stated : Option ReplayQueueState}
    (mirrors : Mirrors places view full restored) (knows : Knows places full')
    (announced : Announced places hash sender nonce displaces stated full full')
    (alsoAnnounced : Announced places hash sender nonce displaces stated restored restored') :
    Mirrors places (view.announce full' hash sender) full' restored' := by
  have own : (places hash).1 = sender := (congrArg Prod.fst announced.own).symm
  have named := announced.named mirrors.named mirrors.knows
  have queue := mirrors.queues sender
  have live : full'.liveQueue sender = restored'.liveQueue sender := by
    rw [liveQueue_eq_iff]
    intro position other
    rw [announced.live, alsoAnnounced.live, mirrors.liveQueue_eq]
  -- The slots of a hash other than the announced one.
  have earlier : ∀ position other, hash ≠ other → full'.slot sender position = some other →
      nonce ≠ position ∧ full.slot sender position = some other := by
    intro position other differs held
    rw [announced.slots, announced.live] at held
    split at held
    case isTrue => exact absurd held differs
    case isFalse elsewhere => exact ⟨elsewhere, mirrors.named.mem_liveQueue.mp held⟩
  refine mirrors.of_owner named knows announced.off alsoAnnounced.off
    (View.agreesOff_announce (named.seats knows) view own) (fun other belongs => ?_) ?_
  · by_cases same : hash = other
    · subst same
      refine HashMirror.of_announced List.mem_cons_self List.mem_cons_self announced.entered
        alsoAnnounced.entered ?_
      rw [← announced.own]
      exact place_eq_some_iff.mpr ⟨_, announced.entered⟩
    · have lists : ∀ list : List TxHash, other ∈ hash :: list ↔ other ∈ list := fun list =>
        ⟨fun listed => (List.mem_cons.mp listed).resolve_left (Ne.symm same),
          List.mem_cons_of_mem hash⟩
      have after := announced.others other same
      have alsoAfter := alsoAnnounced.others other same
      have mirror := mirrors.hashes other
      by_cases displaced : displaces ∧ full.slot sender nonce = some other
      · have seated := ((queue.live nonce other).mp displaced.2).1
        rw [if_pos displaced] at after
        rw [queue.slots, if_pos ⟨displaced.1, seated⟩] at alsoAfter
        exact mirror.of_displaced (by simp) (by rw [mirrors.named displaced.2]; nofun) after alsoAfter
          (lists _) (lists _)
      · rw [if_neg displaced] at after
        by_cases unseats : displaces ∧ restored.slot sender nonce = some other
        · have seated := unseats.2
          rw [queue.slots] at seated
          have retired : full.lifecycle other ≠ some .pending := fun pending =>
            displaced ⟨unseats.1, (queue.live nonce other).mpr ⟨seated, pending⟩⟩
          rw [if_pos unseats] at alsoAfter
          have placed := (queue.seated nonce other seated).1
          refine mirror.of_unseated (by simp) rfl retired (queue.stale nonce other seated retired).2
            (by rw [placed]; nofun) after alsoAfter (lists _) (lists _) ?_
          rw [← mirrors.knows.place_eq placed, View.announce, View.slots_scan]
          exact fun held => (earlier nonce other same held).1 rfl
        · rw [if_neg unseats] at alsoAfter
          refine mirror.congr after alsoAfter (lists _) (lists _) fun seated => ?_
          rw [belongs, View.announce, View.slots_scan] at seated
          rw [belongs]
          exact ((queue.live _ _).mp (earlier _ other same seated).2).1
  · refine QueueMirror.of_states named live announced.slots alsoAnnounced.slots ?_ announced.states
      alsoAnnounced.states
    intro position other listed
    by_cases same : hash = other
    · exact same ▸ List.mem_cons_self
    · have held := (earlier position other same ((announced.slots position other).mpr listed)).2
      exact List.mem_cons_of_mem _ (queue.seated _ _ ((queue.live _ _).mp held).1).2

/-! ## Retirements -/

/-- Both sides retire a hash whose sender and nonce they know. -/
theorem Mirrors.retire_known {status : TxLifecycleStatus} (registers : Bool)
    (mirrors : Mirrors places view full restored) (knows : Knows places full')
    (known : hash ∈ view.announced)
    (retired : Retired places hash sender nonce status full full')
    (alsoRetired : Retired places hash sender nonce status restored restored') :
    Mirrors places ((view.retire hash registers).scan full' sender) full' restored' := by
  have own : (places hash).1 = sender := (congrArg Prod.fst retired.own).symm
  have named := retired.named mirrors.named mirrors.knows
  have queue := mirrors.queues sender
  have live : full'.liveQueue sender = restored'.liveQueue sender := by
    rw [retired.live, alsoRetired.live, mirrors.liveQueue_eq]
  have met : ∀ {other : TxHash}, other ∈ view.met → other ∈ (view.retire hash registers).met := by
    intro other listed
    cases registers with
    | false => exact listed
    | true => exact List.mem_cons_of_mem hash listed
  have alreadyMet : hash ∈ view.met := by
    obtain ⟨same, placed⟩ := (mirrors.hashes hash).known known
    obtain ⟨_, profiled⟩ := place_eq_some_iff.mp placed
    rw [(mirrors.hashes hash).met, same, profiled]
    rfl
  have stillMet : ∀ other, other ∈ (view.retire hash registers).met ↔ other ∈ view.met := by
    intro other
    refine ⟨fun listed => ?_, met⟩
    cases registers with
    | false => exact listed
    | true =>
        rcases List.mem_cons.mp listed with rfl | earlier
        · exact alreadyMet
        · exact earlier
  have earlier : ∀ position other, full'.slot sender position = some other →
      full.slot sender position = some other := by
    intro position other held
    rw [retired.slots, retired.live, List.mem_filter] at held
    exact mirrors.named.mem_liveQueue.mp held.1
  refine mirrors.of_owner named knows retired.off alsoRetired.off
    ((own ▸ View.agreesOff_retire view registers).trans
      (View.agreesOff_scan (named.seats knows) _ sender)) (fun other belongs => ?_) ?_
  · by_cases same : hash = other
    · subst same
      refine HashMirror.of_announced known (met alreadyMet) retired.left alsoRetired.left ?_
      rw [← retired.own]
      exact place_eq_some_iff.mpr ⟨_, retired.left⟩
    · refine (mirrors.hashes other).congr (retired.others other same) (alsoRetired.others other same)
        Iff.rfl (stillMet other) fun seated => ?_
      have scanned : full'.slot sender (places other).2 = some other := by
        rwa [belongs, View.slots_scan] at seated
      rw [belongs]
      exact ((queue.live _ _).mp (earlier _ other scanned)).1
  · refine QueueMirror.of_states named live retired.slots alsoRetired.slots ?_ retired.states
      alsoRetired.states
    intro position other listed
    have held := earlier position other ((retired.slots position other).mpr listed)
    exact met (queue.seated _ _ ((queue.live _ _).mp held).1).2

/-- What retiring a forgotten hash does to the replay from the checkpoint. -/
structure Noted (hash : TxHash) (status : TxLifecycleStatus) (registers : Bool)
    (before after : MempoolState) : Prop where
  slots : ∀ sender nonce, after.slot sender nonce = before.slot sender nonce
  others : ∀ other, hash ≠ other → after.txs[other]? = before.txs[other]?
  forgotten : (after.profile hash).bind (·.sender) = none
  met : (after.profile hash).isSome = true ↔
    registers = true ∨ (before.profile hash).isSome = true
  status : ∀ reached, after.lifecycle hash = some reached → reached = status
  state : after.queueState hash = none

theorem Mirrors.noted {status : TxLifecycleStatus} {registers : Bool}
    (mirrors : Mirrors places view full restored) (forgotten : hash ∉ view.announced)
    (reacts : Reacts places restored restored' (.retire hash status registers)) :
    Noted hash status registers restored restored' := by
  obtain ⟨ended, reacts⟩ := reacts
  have unknown := (mirrors.hashes hash).forgotten forgotten
  rw [mirrors.place_restored_of_forgotten forgotten] at reacts
  dsimp only at reacts
  split at reacts
  case isTrue noted =>
    obtain ⟨sender, nonce, profiled, knowsSender, -⟩ := reacts.marked
    refine ⟨reacts.slot, reacts.others, ?_, ?_, fun reached held => ?_, ?_⟩
    · rw [profiled, ← knowsSender]
      exact unknown
    · rw [profiled, Option.isSome_iff_ne_none (o := restored.profile hash)]
      exact iff_of_true rfl noted
    · rw [reacts.lifecycle] at held
      exact (Option.some.inj held).symm
    · rw [reacts.state, if_neg ended]
  case isFalse silent =>
    have absent : restored.profile hash = none := by
      by_contra present
      exact silent (Or.inr present)
    have unstored : restored'.txs[hash]? = none := by
      rw [reacts.entries]
      exact Option.map_eq_none_iff.mp absent
    have unprofiled : restored'.profile hash = none := by
      rw [profile, unstored]
      rfl
    refine ⟨fun sender nonce => ?_, fun other _ => by rw [reacts.entries], ?_, ?_,
      fun reached held => ?_, ?_⟩
    · rw [slot, slot, reacts.slots]
    · rw [unprofiled]
      rfl
    · rw [unprofiled, absent]
      refine iff_of_false Bool.false_ne_true ?_
      rintro (registered | present)
      · exact silent (Or.inl registered)
      · cases present
    · rw [lifecycle_eq, unprofiled] at held
      cases held
    · rw [queueState, unstored]
      rfl

theorem Noted.off {status : TxLifecycleStatus} {registers : Bool}
    (noted : Noted hash status registers restored restored') :
    AgreesOff places (places hash).1 restored restored' :=
  ⟨fun sender _ nonce => noted.slots sender nonce,
    fun other foreign => noted.others other (ne_of_foreign foreign)⟩

theorem Noted.profile {status : TxLifecycleStatus} {registers : Bool}
    (noted : Noted hash status registers restored restored') {other : TxHash}
    (differs : hash ≠ other) : restored'.profile other = restored.profile other := by
  rw [MempoolState.profile, MempoolState.profile, noted.others other differs]

theorem Noted.queueState {status : TxLifecycleStatus} {registers : Bool}
    (noted : Noted hash status registers restored restored') {other : TxHash}
    (differs : hash ≠ other) : restored'.queueState other = restored.queueState other := by
  rw [MempoolState.queueState, MempoolState.queueState, noted.others other differs]

theorem View.mem_met_retire {registers : Bool} :
    hash ∈ (view.retire hash registers).met ↔ registers = true ∨ hash ∈ view.met := by
  cases registers with
  | false => simp [View.retire]
  | true => simp [View.retire]

theorem View.mem_met_retire_of_ne (registers : Bool) {other : TxHash} (differs : hash ≠ other) :
    other ∈ (view.retire hash registers).met ↔ other ∈ view.met := by
  cases registers with
  | false => simp [View.retire]
  | true => simp [View.retire, Ne.symm differs]

theorem View.mem_carried_retire {registers : Bool} {other : TxHash} :
    other ∈ (view.retire hash registers).carried ↔ other ∈ view.carried ∧ other ≠ hash := by
  rw [View.retire, List.mem_filter, decide_eq_true_eq]

/-- A forgotten hash that has been retired. -/
theorem HashMirror.of_noted {status : TxLifecycleStatus} {registers : Bool}
    (mirror : HashMirror places view full restored hash) (forgotten : hash ∉ view.announced)
    (noted : Noted hash status registers restored restored') (ended : status ≠ .pending)
    (retired : full'.lifecycle hash ≠ some .pending)
    (reaches : (restored'.profile hash).isSome = true → full'.lifecycle hash = some status) :
    HashMirror places (view.retire hash registers) full' restored' hash := by
  refine ⟨iff_of_false (fun pending => ended (noted.status _ pending).symm) retired,
    fun known => absurd known forgotten, fun _ => noted.forgotten, ?_, fun reached held => ?_⟩
  · rw [View.mem_met_retire, mirror.met, noted.met]
  · have present : (restored'.profile hash).isSome = true := by
      rw [lifecycle_eq] at held
      obtain ⟨_, profiled, -⟩ := Option.map_eq_some_iff.mp held
      rw [profiled]
      rfl
    rw [noted.status reached held]
    exact Or.inl (reaches present)

/-- The full replay retires a hash that the other one has forgotten, and scans its sender. -/
theorem Mirrors.retire_forgotten {status : TxLifecycleStatus} {registers : Bool}
    (mirrors : Mirrors places view full restored) (knows : Knows places full')
    (forgotten : hash ∉ view.announced) (ended : status ≠ .pending)
    (retired : Retired places hash sender nonce status full full')
    (noted : Noted hash status registers restored restored')
    (undisturbed : view.Undisturbed full
      ((full.liveQueue sender).filter fun entry => entry.2 ≠ hash)) :
    Mirrors places (view.retire hash registers) full' restored' := by
  have own : (places hash).1 = sender := (congrArg Prod.fst retired.own).symm
  have queue := mirrors.queues sender
  have reached : full'.lifecycle hash = some status := by
    rw [lifecycle_eq, retired.left]
    rfl
  have notPending : full'.lifecycle hash ≠ some .pending := by
    rw [reached]
    exact fun pending => ended (Option.some.inj pending)
  have lifecycles : ∀ {other : TxHash}, hash ≠ other →
      full'.lifecycle other = full.lifecycle other := by
    intro other differs
    rw [lifecycle_eq, retired.others other differs, ← lifecycle_eq]
  have slots : ∀ position other, full'.slot sender position = some other ↔
      full.slot sender position = some other ∧ other ≠ hash := by
    intro position other
    rw [retired.slots, retired.live, List.mem_filter, mirrors.named.mem_liveQueue, decide_eq_true_eq]
  refine mirrors.of_owner (retired.named mirrors.named mirrors.knows) knows retired.off
    (own ▸ noted.off) (own ▸ View.agreesOff_retire view registers) (fun other _ => ?_) ?_
  · by_cases same : hash = other
    · subst same
      exact (mirrors.hashes hash).of_noted forgotten noted ended notPending fun _ => reached
    · exact (mirrors.hashes other).congr (retired.others other same) (noted.profile same) Iff.rfl
        (View.mem_met_retire_of_ne registers same) id
  · refine ⟨fun position => ?_, fun position other seated => ?_, fun position other => ?_,
      fun position other held known => ?_, fun position other seated unknown => ?_,
      fun position other seated outside => ?_⟩
    · rw [noted.slots]
      exact queue.slots position
    · obtain ⟨placed, listed⟩ := queue.seated position other seated
      by_cases same : hash = other
      · subst same
        have here := retired.own.trans (mirrors.knows.place_eq placed).symm
        rw [← here]
        exact ⟨place_eq_some_iff.mpr ⟨_, retired.left⟩, View.mem_met_retire.mpr (Or.inr listed)⟩
      · rw [place_congr (retired.others other same)]
        exact ⟨placed, (View.mem_met_retire_of_ne registers same).mpr listed⟩
    · rw [slots, queue.live]
      by_cases same : hash = other
      · subst same
        exact iff_of_false (fun both => both.2 rfl) fun both => notPending both.2
      · rw [lifecycles same, and_iff_left (Ne.symm same)]
        rfl
    · obtain ⟨before, differs⟩ := (slots position other).mp held
      have carried := (View.mem_carried_retire.mp known).1
      obtain ⟨verdict, visited⟩ := exists_verdict ((retired.slots position other).mp held)
      have found := retired.states _ visited
      rw [verdicts, retired.live] at visited
      have kept := undisturbed _ visited carried
      obtain ⟨stated, first, second⟩ := queue.carried position other before carried
      refine ⟨verdict, found, ?_⟩
      rw [noted.queueState (Ne.symm differs), second, ← first]
      exact kept
    · by_cases same : hash = other
      · exact same ▸ noted.state
      · rw [noted.queueState same]
        exact queue.blank position other seated fun listed =>
          unknown (View.mem_carried_retire.mpr ⟨listed, Ne.symm same⟩)
    · by_cases same : hash = other
      · subst same
        exact ⟨fun listed => (View.mem_carried_retire.mp listed).2 rfl, forgotten⟩
      · rw [lifecycles same] at outside
        obtain ⟨uncarried, unannounced⟩ := queue.stale position other seated outside
        exact ⟨fun listed => uncarried (View.mem_carried_retire.mp listed).1, unannounced⟩

/-! ## Hashes without a place -/

/-- A hash whose sender or nonce the full replay does not know is in no queue, so only its own
entry matters. -/
theorem Mirrors.of_placeless (mirrors : Mirrors places view full restored)
    (knows : Knows places full') (unknown : full.place hash = none)
    (slots : ∀ sender nonce, full'.slot sender nonce = full.slot sender nonce)
    (others : ∀ other, hash ≠ other → full'.txs[other]? = full.txs[other]?)
    (alsoSlots : ∀ sender nonce, restored'.slot sender nonce = restored.slot sender nonce)
    (alsoOthers : ∀ other, hash ≠ other → restored'.txs[other]? = restored.txs[other]?)
    (viewSlots : later.slots = view.slots) (announced : later.announced = view.announced)
    (lists : ∀ other, hash ≠ other → (other ∈ later.met ↔ other ∈ view.met) ∧
      (other ∈ later.carried ↔ other ∈ view.carried))
    (mirror : HashMirror places later full' restored' hash) :
    Mirrors places later full' restored' := by
  have unseated : ∀ {sender : Address} {nonce : UInt64} {other : TxHash},
      view.slots sender nonce = some other → hash ≠ other := by
    rintro sender nonce other seated rfl
    have placed := ((mirrors.queues sender).seated nonce hash seated).1
    rw [unknown] at placed
    cases placed
  have profile : ∀ {other : TxHash}, hash ≠ other → full'.profile other = full.profile other := by
    intro other differs
    rw [MempoolState.profile, MempoolState.profile, others other differs]
  have named : Named full' := by
    intro sender nonce other held
    rw [slots] at held
    have seated := (((mirrors.queues sender).live nonce other).mp held).1
    rw [profile (unseated seated)]
    exact mirrors.named held
  refine ⟨named, knows, fun other => ?_, fun sender => ?_⟩
  · by_cases same : hash = other
    · exact same ▸ mirror
    · refine (mirrors.hashes other).congr (profile same) ?_ (by rw [announced]) (lists other same).1
        (by rw [viewSlots]; exact id)
      rw [MempoolState.profile, MempoolState.profile, alsoOthers other same]
  · refine (mirrors.queues sender).congr (slots sender) (alsoSlots sender)
      (fun nonce => by rw [viewSlots]) (fun nonce other seated => ?_) fun nonce other seated => ?_
    · have differs := unseated seated
      refine ⟨profile differs, ?_, ?_⟩
      · rw [queueState, queueState, others other differs]
      · rw [queueState, queueState, alsoOthers other differs]
    · have differs := unseated seated
      exact ⟨(lists other differs).1.mpr, (lists other differs).2, by rw [announced]⟩

/-- The full replay knows every hash that the replay from the checkpoint knows. -/
theorem HashMirror.known_full (mirror : HashMirror places view full restored hash)
    (present : (restored.profile hash).isSome = true) : full.profile hash ≠ none := by
  obtain ⟨known, profiled⟩ := Option.isSome_iff_exists.mp present
  intro absent
  have held : restored.lifecycle hash = some known.status := by
    rw [lifecycle_eq, profiled]
    rfl
  rcases mirror.status _ held with same | ⟨-, placed, -⟩
  · rw [lifecycle_eq, absent] at same
    cases same
  · apply placed
    rw [place, absent]

theorem Mirrors.retire_placeless {status : TxLifecycleStatus} {registers : Bool}
    (mirrors : Mirrors places view full restored) (knows : Knows places full')
    (forgotten : hash ∉ view.announced) (ended : status ≠ .pending)
    (unknown : full.place hash = none)
    (reacts : if registers ∨ full.profile hash ≠ none then Marked hash status full full'
      else Unchanged full full')
    (noted : Noted hash status registers restored restored') :
    Mirrors places (view.retire hash registers) full' restored' := by
  have mirror := mirrors.hashes hash
  have lists : ∀ other, hash ≠ other →
      (other ∈ (view.retire hash registers).met ↔ other ∈ view.met) ∧
        (other ∈ (view.retire hash registers).carried ↔ other ∈ view.carried) := fun other differs =>
    ⟨View.mem_met_retire_of_ne registers differs,
      View.mem_carried_retire.trans (and_iff_left (Ne.symm differs))⟩
  split at reacts
  case isTrue =>
    have reached := reacts.lifecycle
    refine mirrors.of_placeless knows unknown reacts.slot reacts.others noted.slots noted.others rfl
      rfl lists (mirror.of_noted forgotten noted ended ?_ fun _ => reached)
    rw [reached]
    exact fun pending => ended (Option.some.inj pending)
  case isFalse silent =>
    have absent : full.profile hash = none := by
      by_contra present
      exact silent (Or.inr present)
    have entries : full'.txs = full.txs := reacts.entries
    refine mirrors.of_placeless knows unknown (fun sender nonce => by rw [slot, slot, reacts.slots])
      (fun _ _ => by rw [entries]) noted.slots noted.others rfl rfl lists
      (mirror.of_noted forgotten noted ended ?_ fun present => ?_)
    · rw [lifecycle, entries, ← lifecycle, lifecycle_eq, absent]
      intro pending
      cases pending
    · rcases noted.met.mp present with registered | before
      · exact absurd (Or.inl registered) silent
      · exact absurd absent (mirror.known_full before)

/-! ## Reorgs -/

/-- Only a hash with the status of the full replay can look confirmed. -/
theorem HashMirror.confirmedIn (mirror : HashMirror places view full restored hash)
    {block : BlockHash} (confirmed : restored.confirmedIn hash = some block) :
    full.confirmedIn hash = some block := by
  obtain ⟨status, held, inBlock⟩ := Option.bind_eq_some_iff.mp confirmed
  rcases mirror.status status held with same | ⟨unconfirmed, -⟩
  · rw [MempoolState.confirmedIn, same]
    exact inBlock
  · rw [unconfirmed] at inBlock
    cases inBlock

/-- A hash that still sits in its slot, or has no place, has the status of the full replay. -/
theorem HashMirror.lifecycle_eq (mirror : HashMirror places view full restored hash)
    (met : hash ∈ view.met)
    (seated : full.place hash = none ∨ view.slots (places hash).1 (places hash).2 = some hash) :
    restored.lifecycle hash = full.lifecycle hash := by
  obtain ⟨known, profiled⟩ := Option.isSome_iff_exists.mp (mirror.met.mp met)
  have held : restored.lifecycle hash = some known.status := by
    rw [MempoolState.lifecycle_eq, profiled]
    rfl
  rcases mirror.status _ held with same | ⟨-, placed, unseated⟩
  · rw [held, same]
  · rcases seated with placeless | seated
    · exact absurd placeless placed
    · exact absurd seated unseated

/-- A forgotten hash that is reopened on both sides. -/
theorem HashMirror.of_reopened (mirror : HashMirror places view full restored hash)
    (forgotten : hash ∉ view.announced) (met : hash ∈ view.met)
    (pending : full'.lifecycle hash = some .pending)
    (marked : Marked hash .pending restored restored') :
    HashMirror places view full' restored' hash := by
  obtain ⟨sender, nonce, profiled, knowsSender, -⟩ := marked.marked
  refine ⟨iff_of_true marked.lifecycle pending, fun known => absurd known forgotten, fun _ => ?_, ?_,
    fun status held => ?_⟩
  · rw [profiled, ← mirror.forgotten forgotten, knowsSender]
    rfl
  · rw [profiled]
    exact iff_of_true met rfl
  · rw [marked.lifecycle] at held
    exact Or.inl (held ▸ pending)

/-- The full replay reopens a hash that the other one has forgotten, and scans its sender. -/
theorem Mirrors.reopen_forgotten (mirrors : Mirrors places view full restored)
    (knows : Knows places full') (forgotten : hash ∉ view.announced)
    (ended : full.lifecycle hash ≠ some .pending)
    (announced : Announced places hash sender nonce false none full full')
    (marked : Marked hash .pending restored restored')
    (seated : view.slots sender nonce = some hash)
    (undisturbed : view.Undisturbed full (full'.liveQueue sender)) :
    Mirrors places view full' restored' := by
  have own : (places hash).1 = sender := (congrArg Prod.fst announced.own).symm
  have queue := mirrors.queues sender
  have uncarried := (queue.stale nonce hash seated ended).1
  have pending : full'.lifecycle hash = some .pending := by
    rw [lifecycle_eq, announced.entered]
    rfl
  have others : ∀ {other : TxHash}, hash ≠ other →
      full'.profile other = full.profile other := by
    intro other differs
    rw [announced.others other differs, if_neg]
    exact fun displaced => Bool.false_ne_true displaced.1
  refine mirrors.of_owner (announced.named mirrors.named mirrors.knows) knows announced.off
    (own ▸ marked.off) ⟨fun _ _ => Iff.rfl, fun _ _ => Iff.rfl, fun _ _ => Iff.rfl, fun _ _ _ => rfl⟩
    (fun other _ => ?_) ?_
  · by_cases same : hash = other
    · subst same
      exact (mirrors.hashes hash).of_reopened forgotten (queue.seated nonce hash seated).2 pending
        marked
    · exact (mirrors.hashes other).congr (others same) (marked.profile same) Iff.rfl Iff.rfl id
  · refine ⟨fun position => ?_, fun position other held => ?_, fun position other => ?_,
      fun position other held known => ?_, fun position other held unknown => ?_,
      fun position other held outside => ?_⟩
    · rw [marked.slot]
      exact queue.slots position
    · obtain ⟨placed, listed⟩ := queue.seated position other held
      refine ⟨?_, listed⟩
      by_cases same : hash = other
      · subst same
        have here := announced.own.trans (mirrors.knows.place_eq placed).symm
        rw [← here]
        exact place_eq_some_iff.mpr ⟨_, announced.entered⟩
      · rw [place_congr (others same)]
        exact placed
    · rw [announced.slots, announced.live]
      by_cases here : nonce = position
      · subst here
        rw [if_pos rfl, seated, Option.some.injEq]
        exact ⟨fun same => ⟨same, same ▸ pending⟩, And.left⟩
      · rw [if_neg here, mirrors.named.mem_liveQueue, queue.live]
        refine and_congr_right fun held => ?_
        have differs : hash ≠ other := by
          rintro rfl
          have placed := mirrors.knows.place_eq (queue.seated position hash held).1
          exact here (congrArg Prod.snd (announced.own.trans placed.symm))
        rw [lifecycle_eq full', others differs, ← lifecycle_eq]
    · have differs : hash ≠ other := by
        rintro rfl
        exact uncarried known
      obtain ⟨verdict, visited⟩ := exists_verdict ((announced.slots position other).mp held)
      have found := announced.states _ visited
      rw [Option.getD_none, ite_self] at found
      have kept := undisturbed _ visited known
      have before : full.slot sender position = some other := by
        rw [announced.slots, announced.live] at held
        split at held
        case isTrue => exact absurd held differs
        case isFalse => exact mirrors.named.mem_liveQueue.mp held
      obtain ⟨stated, first, second⟩ := queue.carried position other before known
      refine ⟨verdict, found, ?_⟩
      rw [marked.queueState differs, second, ← first]
      exact kept
    · by_cases same : hash = other
      · subst same
        rw [marked.state, if_pos rfl]
        exact queue.blank position hash held unknown
      · rw [marked.queueState same]
        exact queue.blank position other held unknown
    · have differs : hash ≠ other := by
        rintro rfl
        exact outside pending
      rw [lifecycle_eq, others differs, ← lifecycle_eq] at outside
      exact queue.stale position other held outside

/-- Both sides reopen a hash without a place. -/
theorem Mirrors.reopen_placeless (mirrors : Mirrors places view full restored)
    (knows : Knows places full') (forgotten : hash ∉ view.announced)
    (unknown : full.place hash = none) (met : hash ∈ view.met)
    (marked : Marked hash .pending full full')
    (alsoMarked : Marked hash .pending restored restored') :
    Mirrors places view full' restored' :=
  mirrors.of_placeless knows unknown marked.slot marked.others alsoMarked.slot alsoMarked.others rfl
    rfl (fun _ _ => ⟨Iff.rfl, Iff.rfl⟩)
    ((mirrors.hashes hash).of_reopened forgotten met marked.lifecycle alsoMarked)

end MempoolState

end Mempulse.Replay
