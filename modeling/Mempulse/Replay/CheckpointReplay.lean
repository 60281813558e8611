import Mempulse.Library.Lockstep
import Mempulse.Replay.CheckpointSteps

/-!
# Replay from a checkpoint

A checkpoint keeps the pending hashes and the queues of a state, and a replay can continue from
it. Seeding writes an entry for every pending hash first and then puts the queue entries in where
there is none, so the senders, the nonces and the queue states of the queues are never used. The
replay from the checkpoint gives the frames of the full replay exactly as long as it can follow
the events with what it knows.
-/

set_option autoImplicit false

namespace Mempulse.Replay

open Std EventLog Library Scheduler

namespace MempoolState

section Reactions

variable {places : TxHash → Address × UInt64} {view : View}
  {full restored full' restored' : MempoolState} {effect : Effect} {hash : TxHash}
  {sender owner : Address} {nonce : UInt64}

/-! ## Following an effect -/

/-- The queue with a hash in one of its slots. -/
theorem Announced.liveQueue_eq {displaces : Bool} {stated : Option ReplayQueueState}
    (announced : Announced places hash sender nonce displaces stated full full')
    (named : Named full) :
    full'.liveQueue sender = (((full.senderQueues[sender]?).getD ∅).insert nonce hash).toList := by
  refine eq_of_increasing_keys (increasing_liveQueue full' sender) ExtTreeMap.ordered_keys_toList ?_
  rintro ⟨position, other⟩
  rw [announced.live, mem_toList, getElem?_insert_eq, named.mem_liveQueue, slot,
    SchedulerState.slotOf]
  split
  case isTrue => rw [Option.some.injEq]
  case isFalse =>
    cases full.senderQueues[sender]? with
    | none => simp
    | some queue => rfl

/-- **An effect that is admitted keeps the states mirrored.** -/
theorem Mirrors.react (mirrors : Mirrors places view full restored) (knows : Knows places full')
    (reacts : Reacts places full full' effect) (alsoReacts : Reacts places restored restored' effect)
    (admits : view.Admits full effect) :
    Mirrors places (view.step full full' effect) full' restored' := by
  cases effect with
  | announce hash sender nonce displaces stated => exact mirrors.announce knows reacts alsoReacts
  | retire hash status registers =>
      dsimp only [View.step]
      by_cases known : hash ∈ view.announced
      · obtain ⟨same, placed⟩ := (mirrors.hashes hash).known known
        have alsoPlaced := (place_congr same).trans placed
        obtain ⟨-, reacts⟩ := reacts
        obtain ⟨-, alsoReacts⟩ := alsoReacts
        obtain ⟨sender, nonce⟩ := places hash
        rw [placed] at reacts ⊢
        rw [alsoPlaced] at alsoReacts
        dsimp only
        rw [if_pos known]
        exact mirrors.retire_known registers knows known reacts alsoReacts
      · have noted := mirrors.noted known alsoReacts
        obtain ⟨ended, reacts⟩ := reacts
        cases placed : full.place hash with
        | none =>
            rw [placed] at reacts
            exact mirrors.retire_placeless knows known ended placed reacts noted
        | some seat =>
            obtain ⟨sender, nonce⟩ := seat
            rw [placed] at reacts
            dsimp only
            rw [if_neg known]
            exact mirrors.retire_forgotten knows known ended reacts noted
              (admits known sender nonce placed)
  | reopen hash block =>
      have mirror := mirrors.hashes hash
      dsimp only [View.step]
      by_cases confirmed : full.confirmedIn hash = some block
      · dsimp only [Reacts] at reacts alsoReacts
        rw [if_pos confirmed] at reacts
        by_cases known : hash ∈ view.announced
        · obtain ⟨same, placed⟩ := mirror.known known
          have alsoPlaced := (place_congr same).trans placed
          have alsoConfirmed : restored.confirmedIn hash = some block := by
            rw [confirmedIn, MempoolState.lifecycle_eq, same, ← MempoolState.lifecycle_eq]
            exact confirmed
          rw [if_pos alsoConfirmed] at alsoReacts
          obtain ⟨sender, nonce⟩ := places hash
          rw [placed] at reacts ⊢
          rw [alsoPlaced] at alsoReacts
          dsimp only
          rw [if_pos ⟨confirmed, known⟩]
          exact mirrors.announce knows reacts alsoReacts
        · have admitted := admits confirmed known
          have unplaced := mirrors.place_restored_of_forgotten known
          rw [unplaced] at alsoReacts
          have following : hash ∈ view.met → (full.place hash = none ∨
              view.slots (places hash).1 (places hash).2 = some hash) →
                Marked hash .pending restored restored' := by
            intro met seated
            have alsoConfirmed : restored.confirmedIn hash = some block := by
              rw [confirmedIn, mirror.lifecycle_eq met seated]
              exact confirmed
            rwa [if_pos alsoConfirmed] at alsoReacts
          cases placed : full.place hash with
          | none =>
              rw [placed] at reacts admitted
              exact mirrors.reopen_placeless knows known placed admitted reacts
                (following admitted (Or.inl placed))
          | some seat =>
              obtain ⟨sender, nonce⟩ := seat
              rw [placed] at reacts admitted
              obtain ⟨seated, undisturbed⟩ := admitted
              dsimp only
              rw [if_neg fun both => known both.2]
              have own := mirrors.knows.place_eq placed
              have marked := following ((mirrors.queues sender).seated nonce hash seated).2
                (Or.inr (by rw [← own]; exact seated))
              refine mirrors.reopen_forgotten knows known (fun pending => ?_) reacts marked seated ?_
              · rw [confirmedIn, pending] at confirmed
                cases confirmed
              · rw [reacts.liveQueue_eq mirrors.named]
                exact undisturbed
      · have alsoElsewhere : restored.confirmedIn hash ≠ some block := fun alsoConfirmed =>
          confirmed (mirror.confirmedIn alsoConfirmed)
        dsimp only [Reacts] at reacts alsoReacts
        rw [if_neg confirmed] at reacts
        rw [if_neg alsoElsewhere] at alsoReacts
        split
        case h_1 =>
          rw [if_neg fun both => confirmed both.1]
          exact mirrors.of_unchanged reacts alsoReacts
        case h_2 => exact mirrors.of_unchanged reacts alsoReacts
  | idle => exact mirrors.of_unchanged reacts alsoReacts

/-! ## When the frames are equal -/

/-- What is known of the queue state of a queued hash is what the frame shows. -/
theorem Mirrors.undisturbed (mirrors : Mirrors places view full restored)
    (alike : Alike full' restored')
    (states : ∀ visited ∈ full'.verdicts sender, full'.queueState visited.1.2 = some visited.2)
    (earlier : ∀ nonce other, (nonce, other) ∈ full'.liveQueue sender → other ∈ view.carried →
      (nonce, other) ∈ full.liveQueue sender ∧
        restored'.queueState other = restored.queueState other) :
    view.Undisturbed full (full'.liveQueue sender) := by
  intro visited member known
  have found := states visited member
  obtain ⟨listed, kept⟩ := earlier _ _ (mem_liveQueue_of_mem_verdicts member) known
  obtain ⟨verdict, stated, alsoStated⟩ := (mirrors.queues sender).carried _ _
    (mirrors.named.mem_liveQueue.mp listed) known
  have shown := alike.shown sender visited member
  rw [found, kept, alsoStated] at shown
  rw [stated]
  exact congrArg some shown.symm

/-- **If the frames are equal the effect was admitted.** -/
theorem Mirrors.admits (mirrors : Mirrors places view full restored)
    (reacts : Reacts places full full' effect) (alsoReacts : Reacts places restored restored' effect)
    (alike : Alike full' restored') : view.Admits full effect := by
  cases effect with
  | announce => trivial
  | idle => trivial
  | retire hash status registers =>
      intro forgotten sender nonce placed
      have noted := mirrors.noted forgotten alsoReacts
      obtain ⟨-, reacts⟩ := reacts
      rw [placed] at reacts
      have undisturbed := mirrors.undisturbed alike reacts.states (by
        intro position other listed _
        rw [reacts.live, List.mem_filter, decide_eq_true_eq] at listed
        exact ⟨listed.1, noted.queueState (Ne.symm listed.2)⟩)
      rwa [reacts.live] at undisturbed
  | reopen hash block =>
      intro confirmed forgotten
      have ended : full.lifecycle hash ≠ some .pending := by
        intro pending
        rw [confirmedIn, pending] at confirmed
        cases confirmed
      dsimp only [Reacts] at reacts alsoReacts
      rw [if_pos confirmed] at reacts
      rw [mirrors.place_restored_of_forgotten forgotten] at alsoReacts
      have slots : ∀ sender nonce, restored'.slot sender nonce = restored.slot sender nonce := by
        split at alsoReacts
        · exact alsoReacts.slot
        · exact fun sender nonce => by rw [slot, slot, alsoReacts.slots]
      have others : ∀ other, hash ≠ other → restored'.queueState other = restored.queueState other := by
        split at alsoReacts
        · exact fun _ => alsoReacts.queueState
        · exact fun other _ => by rw [queueState, queueState, alsoReacts.entries]
      cases placed : full.place hash with
      | none =>
          rw [placed] at reacts
          have pending := (alike.pending hash).mp reacts.lifecycle
          rw [(mirrors.hashes hash).met]
          split at alsoReacts
          · rename_i alsoConfirmed
            obtain ⟨status, held, -⟩ := Option.bind_eq_some_iff.mp alsoConfirmed
            rw [lifecycle_eq, Option.map_eq_some_iff] at held
            obtain ⟨known, profiled, -⟩ := held
            rw [profiled]
            rfl
          · rw [lifecycle, alsoReacts.entries, ← lifecycle, lifecycle_eq,
              Option.map_eq_some_iff] at pending
            obtain ⟨known, profiled, -⟩ := pending
            rw [profiled]
            rfl
      | some seat =>
          obtain ⟨sender, nonce⟩ := seat
          rw [placed] at reacts
          have announced : Announced places hash sender nonce false none full full' := reacts
          have listed : (nonce, hash) ∈ full'.liveQueue sender := by
            rw [announced.live, if_pos rfl]
          have seated : view.slots sender nonce = some hash := by
            rw [alike.live] at listed
            rw [← (mirrors.queues sender).slots, ← slots]
            exact (mem_liveQueue.mp listed).1
          have uncarried := ((mirrors.queues sender).stale nonce hash seated ended).1
          refine ⟨seated, ?_⟩
          rw [← announced.liveQueue_eq mirrors.named]
          refine mirrors.undisturbed alike (fun visited member => ?_) fun position other listed known => ?_
          · rw [announced.states visited member, Option.getD_none, ite_self]
          · have differs : hash ≠ other := by
              rintro rfl
              exact uncarried known
            rw [announced.live] at listed
            split at listed
            case isTrue => exact absurd listed differs
            case isFalse => exact ⟨listed, others other differs⟩

/-- A sender's queue shows the same when its entries and what is known of them are kept. -/
theorem View.shows_congr {later : View} (live : full'.liveQueue sender = full.liveQueue sender)
    (kept : ∀ nonce hash, (nonce, hash) ∈ full.liveQueue sender →
      full'.queueState hash = full.queueState hash ∧ (hash ∈ later.carried ↔ hash ∈ view.carried)) :
    later.Shows full' sender ↔ view.Shows full sender := by
  rw [View.Shows, View.Shows, verdicts, live]
  refine forall_congr' fun visited => forall_congr' fun member => ?_
  obtain ⟨states, carried⟩ := kept _ _ (mem_liveQueue_of_mem_verdicts member)
  rw [states, carried]

/-- A scan of one sender. -/
theorem Mirrors.shows_iff_of_scan {later : View} (mirrors : Mirrors places view full restored)
    (off : AgreesOff places owner full full') (viewOff : View.AgreesOff places owner view later)
    (shows : later.Shows full' owner) :
    (∀ sender, later.Shows full' sender) ↔
      ∀ sender, some owner ≠ some sender → view.Shows full sender := by
  have elsewhere : ∀ sender, sender ≠ owner →
      (later.Shows full' sender ↔ view.Shows full sender) := by
    intro sender differs
    refine View.shows_congr (off.liveQueue mirrors.seats differs) fun nonce hash listed => ?_
    have foreign : (places hash).1 ≠ owner := by
      rwa [← congrArg Prod.fst (mirrors.seats (mem_liveQueue.mp listed).1)]
    exact ⟨off.queueState foreign, viewOff.carried hash foreign⟩
  constructor
  · intro all sender other
    exact (elsewhere sender fun same => other (by rw [same])).mp (all sender)
  · intro others sender
    by_cases same : sender = owner
    · exact same ▸ shows
    · exact (elsewhere sender same).mpr (others sender fun equal => same (Option.some.inj equal).symm)

/-- Nothing is scanned. -/
theorem Mirrors.shows_iff_of_placeless {later : View} (mirrors : Mirrors places view full restored)
    (unknown : full.place hash = none)
    (slots : ∀ sender nonce, full'.slot sender nonce = full.slot sender nonce)
    (others : ∀ other, hash ≠ other → full'.txs[other]? = full.txs[other]?)
    (carried : ∀ other, hash ≠ other → (other ∈ later.carried ↔ other ∈ view.carried)) :
    (∀ sender, later.Shows full' sender) ↔
      ∀ sender, (none : Option Address) ≠ some sender → view.Shows full sender := by
  have differs : ∀ {sender : Address} {nonce : UInt64} {other : TxHash},
      full.slot sender nonce = some other → hash ≠ other := by
    rintro sender nonce other held rfl
    exact mirrors.named.slot_ne_of_place unknown sender nonce held
  refine forall_congr' fun sender => ?_
  rw [forall_prop_of_true nofun]
  refine View.shows_congr ?_ fun nonce other listed => ?_
  · rw [liveQueue_eq_iff]
    intro nonce other
    rw [mem_liveQueue, mem_liveQueue, slots]
    refine and_congr_right fun held => ?_
    rw [lifecycle, others other (differs held), ← lifecycle]
  · have apart := differs (mem_liveQueue.mp listed).1
    rw [queueState, queueState, others other apart]
    exact ⟨rfl, carried other apart⟩

theorem Unchanged.slot (unchanged : Unchanged full full') (sender : Address) (nonce : UInt64) :
    full'.slot sender nonce = full.slot sender nonce := by
  rw [MempoolState.slot, MempoolState.slot, unchanged.slots]

theorem Mirrors.shows_iff_of_unchanged (unchanged : Unchanged full full') :
    (∀ sender, view.Shows full' sender) ↔
      ∀ sender, (none : Option Address) ≠ some sender → view.Shows full sender := by
  refine forall_congr' fun sender => ?_
  rw [forall_prop_of_true nofun]
  refine View.shows_congr ?_ fun nonce other _ => ⟨?_, Iff.rfl⟩
  · rw [liveQueue_eq_iff]
    intro nonce other
    rw [mem_liveQueue, mem_liveQueue, unchanged.slot, lifecycle, unchanged.entries, ← lifecycle]
  · rw [queueState, queueState, unchanged.entries]

theorem View.shows_of_states {later : View}
    (states : ∀ visited ∈ full'.verdicts sender, full'.queueState visited.1.2 = some visited.2) :
    later.Shows full' sender := fun visited member _ => by
  rw [states visited member, Option.getD_some]

theorem View.shows_scan (view : View) : (view.scan full' sender).Shows full' sender :=
  fun _ member unknown => absurd (List.mem_append_left _
    (List.mem_map_of_mem (f := Prod.snd) (mem_liveQueue_of_mem_verdicts member))) unknown

/-- **After an effect every queue shows what is known exactly when the unscanned ones did.** -/
theorem Mirrors.shows_iff (mirrors : Mirrors places view full restored) (knows : Knows places full')
    (named : Named full') (reacts : Reacts places full full' effect) :
    (∀ sender, (view.step full full' effect).Shows full' sender) ↔
      ∀ sender, full.scannedBy effect ≠ some sender → view.Shows full sender := by
  have seats := named.seats knows
  cases effect with
  | announce hash sender nonce displaces stated =>
      have announced : Announced places hash sender nonce displaces stated full full' := reacts
      exact mirrors.shows_iff_of_scan announced.off
        (View.agreesOff_announce seats view (congrArg Prod.fst announced.own).symm)
        (View.shows_scan _)
  | retire hash status registers =>
      obtain ⟨-, reacts⟩ := reacts
      dsimp only [View.step, scannedBy]
      cases placed : full.place hash with
      | some seat =>
          obtain ⟨sender, nonce⟩ := seat
          rw [placed] at reacts
          have retired : Retired places hash sender nonce status full full' := reacts
          have own : (places hash).1 = sender := (congrArg Prod.fst retired.own).symm
          have viewOff : View.AgreesOff places sender view (view.retire hash registers) :=
            own ▸ View.agreesOff_retire view registers
          dsimp only [Option.map_some]
          split
          · exact mirrors.shows_iff_of_scan retired.off
              (viewOff.trans (View.agreesOff_scan seats _ sender)) (View.shows_scan _)
          · exact mirrors.shows_iff_of_scan retired.off viewOff (View.shows_of_states retired.states)
      | none =>
          rw [placed] at reacts
          have carried : ∀ other, hash ≠ other →
              (other ∈ (view.retire hash registers).carried ↔ other ∈ view.carried) :=
            fun other differs => View.mem_carried_retire.trans (and_iff_left (Ne.symm differs))
          dsimp only [Option.map_none]
          dsimp only at reacts
          split at reacts
          · exact mirrors.shows_iff_of_placeless placed reacts.slot reacts.others carried
          · exact mirrors.shows_iff_of_placeless placed reacts.slot
              (fun other _ => by rw [reacts.entries]) carried
  | reopen hash block =>
      dsimp only [Reacts] at reacts
      dsimp only [View.step, scannedBy]
      by_cases confirmed : full.confirmedIn hash = some block
      · rw [if_pos confirmed] at reacts ⊢
        cases placed : full.place hash with
        | some seat =>
            obtain ⟨sender, nonce⟩ := seat
            rw [placed] at reacts
            have announced : Announced places hash sender nonce false none full full' := reacts
            have own : (places hash).1 = sender := (congrArg Prod.fst announced.own).symm
            dsimp only [Option.map_some]
            split
            · exact mirrors.shows_iff_of_scan announced.off (View.agreesOff_announce seats view own)
                (View.shows_scan _)
            · refine mirrors.shows_iff_of_scan announced.off ⟨fun _ _ => Iff.rfl, fun _ _ => Iff.rfl,
                fun _ _ => Iff.rfl, fun _ _ _ => rfl⟩ (View.shows_of_states fun visited member => ?_)
              rw [announced.states visited member, Option.getD_none, ite_self]
        | none =>
            rw [placed] at reacts
            exact mirrors.shows_iff_of_placeless placed reacts.slot reacts.others
              fun _ _ => Iff.rfl
      · rw [if_neg confirmed] at reacts ⊢
        split
        · rw [if_neg fun both => confirmed both.1]
          exact Mirrors.shows_iff_of_unchanged reacts
        · exact Mirrors.shows_iff_of_unchanged reacts
  | idle => exact Mirrors.shows_iff_of_unchanged reacts

end Reactions

/-! ## Two replays in lockstep -/

/-- The full replay, with what the replay from the checkpoint knows. -/
def watch (run : View × MempoolState) (event : EventEnvelope) :
    ReplayFrame × (View × MempoolState) :=
  let after := (run.2.applyEvent event.payload).2
  (frameOf (event, after), (run.1.step run.2 after (effectOf event.payload), after))

/-- The replay from the checkpoint. -/
def resume (state : MempoolState) (event : EventEnvelope) : ReplayFrame × MempoolState :=
  let after := (state.applyEvent event.payload).2
  (frameOf (event, after), after)

/-- The event can be followed from what is known. -/
def Followed (run : View × MempoolState) (event : EventEnvelope) : Prop :=
  run.1.Follows run.2 (effectOf event.payload)

theorem Reacts.named {places : TxHash → Address × UInt64} {full full' : MempoolState}
    {effect : Effect} (reacts : Reacts places full full' effect) (named : Named full)
    (knows : Knows places full) : Named full' := by
  have unchanged : Unchanged full full' → Named full' := by
    intro kept sender nonce hash held
    rw [kept.slot] at held
    rw [profile, kept.entries]
    exact named held
  cases effect with
  | announce => exact Announced.named reacts named knows
  | retire hash status registers =>
      obtain ⟨-, reacts⟩ := reacts
      split at reacts
      case h_1 => exact reacts.named named knows
      case h_2 unknown =>
        split at reacts
        · exact reacts.named unknown named
        · exact unchanged reacts
  | reopen hash block =>
      dsimp only [Reacts] at reacts
      split at reacts
      · split at reacts
        case h_1 => exact reacts.named named knows
        case h_2 unknown => exact reacts.named unknown named
      · exact unchanged reacts
  | idle => exact unchanged reacts

/-- Every slot names a pending transaction, and the model knows each hash by its own place. -/
theorem tidy_replay {places : TxHash → Address × UInt64} {payloads : List EventPayload}
    (placed : ∀ payload ∈ payloads, Placed places payload) :
    Named (MempoolState.replay {} payloads) ∧ Knows places (MempoolState.replay {} payloads) := by
  have onward : ∀ {state : MempoolState}, Named state → Knows places state →
      (∀ payload ∈ payloads, Placed places payload) → Named (state.replay payloads) := by
    induction payloads with
    | nil => exact fun named _ _ => named
    | cons payload rest ih =>
        intro state named knows placed
        obtain ⟨first, others⟩ := List.forall_mem_cons.mp placed
        have reacts := (named.seats knows).reacts_applyEvent knows first
        exact ih others (reacts.named named knows) (knows.step first) others
  have knows : Knows places {} := by
    intro hash sender nonce status known
    simp [profile] at known
  exact ⟨onward Named.empty knows placed, knows.replay placed⟩

theorem lockstep_mirrors (places : TxHash → Address × UInt64) :
    Lockstep watch resume (fun event => Placed places event.payload) Followed
      fun run restored => Mirrors places run.1 run.2 restored where
  alike_iff := by
    rintro ⟨view, full⟩ restored event mirrors placed
    have reacts := mirrors.seats.reacts_applyEvent mirrors.knows placed
    have alsoReacts := mirrors.seats_restored.reacts_applyEvent mirrors.knows_restored placed
    have knows := mirrors.knows.step placed
    have named := reacts.named mirrors.named mirrors.knows
    dsimp only [watch, resume, Followed, View.Follows]
    rw [frameOf_eq_iff, ← mirrors.shows_iff knows named reacts]
    constructor
    · intro alike
      have admits := mirrors.admits reacts alsoReacts alike
      exact ⟨(mirrors.react knows reacts alsoReacts admits).alike_iff.mp alike, admits⟩
    · rintro ⟨shows, admits⟩
      exact (mirrors.react knows reacts alsoReacts admits).alike_iff.mpr shows
  kept := by
    rintro ⟨view, full⟩ restored event mirrors placed followed
    exact mirrors.react (mirrors.knows.step placed)
      (mirrors.seats.reacts_applyEvent mirrors.knows placed)
      (mirrors.seats_restored.reacts_applyEvent mirrors.knows_restored placed) followed.2

end MempoolState

end Mempulse.Replay
