import Mempulse.Replay.CheckpointReplay

/-!
# Resuming a replay at a checkpoint

A replay resumes at a checkpoint that was captured from the same events. The state it starts from
has the pending hashes and the slots of the captured state and nothing else of it, so the frames
from there on are those of the full replay exactly when every later event can be followed from
what the checkpoint keeps and the events since then have shown.
-/

set_option autoImplicit false

namespace Mempulse.Replay

open Std EventLog Library Scheduler

namespace MempoolState

/-! ## Seeding -/

/-- An entry that knows nothing but that its hash is pending. -/
def bareEntry : TxEntry where
  sender := none
  nonce := none
  status := .pending
  queueState := none

theorem getElem?_fromPendingHashes (hashes : List TxHash) (hash : TxHash) :
    (fromPendingHashes hashes).txs[hash]? = if hash ∈ hashes then some bareEntry else none := by
  have folded : ∀ txs : ExtTreeMap TxHash TxEntry,
      (hashes.foldl (fun txs hash => txs.insert hash bareEntry) txs)[hash]? =
        if hash ∈ hashes then some bareEntry else txs[hash]? := by
    induction hashes with
    | nil => simp
    | cons first rest ih =>
        intro txs
        rw [List.foldl_cons, ih, getElem?_insert_eq]
        by_cases later : hash ∈ rest
        · simp [later]
        · by_cases here : first = hash
          · simp [here]
          · simp [later, here, Ne.symm here]
  have vacant : (∅ : ExtTreeMap TxHash TxEntry)[hash]? = none := by simp
  exact (folded ∅).trans (by rw [vacant])

/-- The entries of the reported queues, each with its sender. -/
def reported (queues : List ReplaySenderQueue) : List (Address × ReplaySenderQueueEntry) :=
  queues.flatMap fun queue => queue.queued.map fun entry => (queue.sender, entry)

theorem fromCheckpoint_eq (hashes : List TxHash) (queues : List ReplaySenderQueue) :
    fromCheckpoint hashes queues =
      (reported queues).foldl (fun state entry => seedQueueEntry entry.1 state entry.2)
        (fromPendingHashes hashes) := by
  rw [fromCheckpoint, reported, List.foldl_flatMap]
  simp only [List.foldl_map]

section Seeding

variable {entries : List (Address × ReplaySenderQueueEntry)} {state : MempoolState}

/-- Entries of pending hashes are never put in: the hashes have entries already. -/
theorem txs_seeded (present : ∀ entry ∈ entries, state.txs.contains entry.2.hash = true) :
    (entries.foldl (fun state entry => seedQueueEntry entry.1 state entry.2) state).txs =
      state.txs := by
  induction entries generalizing state with
  | nil => rfl
  | cons first rest ih =>
      obtain ⟨stored, others⟩ := List.forall_mem_cons.mp present
      have kept : (seedQueueEntry first.1 state first.2).txs = state.txs := by
        dsimp only [seedQueueEntry, orInsert]
        rw [if_pos stored]
      rw [List.foldl_cons, ih (by rw [kept]; exact others), kept]

theorem slot_seedQueueEntry (sender other : Address) (entry : ReplaySenderQueueEntry)
    (nonce : UInt64) :
    (seedQueueEntry sender state entry).slot other nonce =
      if sender = other ∧ entry.nonce = nonce then some entry.hash else state.slot other nonce :=
  SchedulerState.slotOf_insertQueueEntry state.senderQueues sender other entry.nonce nonce entry.hash

variable {slots : Address → UInt64 → Option TxHash}
  (fits : ∀ entry ∈ entries, slots entry.1 entry.2.nonce = some entry.2.hash)

include fits

theorem slot_seeded_of_slot {sender : Address} {nonce : UInt64}
    (held : state.slot sender nonce = slots sender nonce) :
    (entries.foldl (fun state entry => seedQueueEntry entry.1 state entry.2) state).slot sender
      nonce = slots sender nonce := by
  induction entries generalizing state with
  | nil => exact held
  | cons first rest ih =>
      obtain ⟨fit, others⟩ := List.forall_mem_cons.mp fits
      refine ih others ?_
      rw [slot_seedQueueEntry]
      split
      case isTrue here => rw [← here.1, ← here.2, fit]
      case isFalse => exact held

theorem slot_seeded_of_mem {entry : Address × ReplaySenderQueueEntry} (member : entry ∈ entries) :
    (entries.foldl (fun state entry => seedQueueEntry entry.1 state entry.2) state).slot entry.1
      entry.2.nonce = some entry.2.hash := by
  induction entries generalizing state with
  | nil => cases member
  | cons first rest ih =>
      obtain ⟨fit, others⟩ := List.forall_mem_cons.mp fits
      rcases List.mem_cons.mp member with rfl | later
      · rw [← fit]
        refine slot_seeded_of_slot others ?_
        rw [slot_seedQueueEntry, if_pos ⟨rfl, rfl⟩, fit]
      · exact ih others later

end Seeding

/-- The state a replay starts from. -/
def seeded (checkpoint : LifecycleCheckpoint) : MempoolState :=
  if checkpoint.senderQueues.isEmpty then fromPendingHashes checkpoint.pendingHashes
  else fromCheckpoint checkpoint.pendingHashes checkpoint.senderQueues

section Cut

variable {places : TxHash → Address × UInt64} {cut : MempoolState} {event : EventEnvelope}

theorem mem_reported {entry : Address × ReplaySenderQueueEntry} :
    entry ∈ reported cut.senderQueuesReport ↔ entry.2 ∈ cut.shownQueue entry.1 := by
  obtain ⟨sender, shown⟩ := entry
  simp only [reported, List.mem_flatMap, List.mem_map, Prod.mk.injEq]
  constructor
  · rintro ⟨queue, listed, other, member, rfl, rfl⟩
    rw [← (mem_senderQueuesReport.mp listed).1]
    exact member
  · intro member
    refine ⟨⟨sender, cut.shownQueue sender⟩, mem_senderQueuesReport.mpr ⟨rfl, ?_⟩, shown, member, rfl,
      rfl⟩
    exact List.ne_nil_of_mem member

theorem mem_liveQueue_of_mem_shownQueue {sender : Address} {entry : ReplaySenderQueueEntry}
    (member : entry ∈ cut.shownQueue sender) : (entry.nonce, entry.hash) ∈ cut.liveQueue sender := by
  obtain ⟨visited, listed, rfl⟩ := List.mem_map.mp member
  exact mem_liveQueue_of_mem_verdicts listed

theorem seeded_checkpointOf :
    (seeded (checkpointOf (event, cut))).txs = (fromPendingHashes cut.sortedPending).txs ∧
      ∀ sender nonce, (seeded (checkpointOf (event, cut))).slot sender nonce =
        if cut.senderQueuesReport.isEmpty then none
        else ((reported cut.senderQueuesReport).foldl
          (fun state entry => seedQueueEntry entry.1 state entry.2)
            (fromPendingHashes cut.sortedPending)).slot sender nonce := by
  have present : ∀ entry ∈ reported cut.senderQueuesReport,
      (fromPendingHashes cut.sortedPending).txs.contains entry.2.hash = true := by
    intro entry member
    have listed := mem_liveQueue_of_mem_shownQueue (mem_reported.mp member)
    rw [contains_eq_isSome, getElem?_fromPendingHashes,
      if_pos (mem_sortedPending.mpr (mem_liveQueue.mp listed).2)]
    rfl
  dsimp only [seeded, checkpointOf]
  split
  case isTrue => exact ⟨rfl, fun _ _ => rfl⟩
  case isFalse =>
    rw [fromCheckpoint_eq]
    exact ⟨txs_seeded present, fun _ _ => rfl⟩

/-- **The seeded state has the slots of the captured one.** -/
theorem Named.slot_seeded (named : Named cut) (sender : Address) (nonce : UInt64) :
    (seeded (checkpointOf (event, cut))).slot sender nonce = cut.slot sender nonce := by
  have fits : ∀ entry ∈ reported cut.senderQueuesReport,
      cut.slot entry.1 entry.2.nonce = some entry.2.hash := fun entry member =>
    named.mem_liveQueue.mp (mem_liveQueue_of_mem_shownQueue (mem_reported.mp member))
  rw [seeded_checkpointOf.2]
  cases held : cut.slot sender nonce with
  | none =>
      split
      case isTrue => rfl
      case isFalse =>
        rw [slot_seeded_of_slot fits, held]
        exact held.symm
  | some hash =>
      obtain ⟨verdict, visited⟩ := exists_verdict (named.mem_liveQueue.mpr held)
      have listed := List.mem_map_of_mem (f := fun visited : (UInt64 × TxHash) × ReplayQueueState =>
        (⟨visited.1.2, visited.1.1, (cut.queueState visited.1.2).getD visited.2⟩ :
          ReplaySenderQueueEntry)) visited
      have member : (sender, (⟨hash, nonce, (cut.queueState hash).getD verdict⟩ :
          ReplaySenderQueueEntry)) ∈ reported cut.senderQueuesReport := mem_reported.mpr listed
      have nonempty : ¬ cut.senderQueuesReport.isEmpty = true := by
        intro empty
        rw [List.isEmpty_iff.mp empty] at member
        cases member
      rw [if_neg nonempty]
      exact slot_seeded_of_mem fits member

/-- The seeded state has an entry for every pending hash that knows nothing but that it is
pending. -/
theorem getElem?_seeded (hash : TxHash) :
    (seeded (checkpointOf (event, cut))).txs[hash]? =
      if cut.lifecycle hash = some .pending then some bareEntry else none := by
  rw [seeded_checkpointOf.1, getElem?_fromPendingHashes]
  simp only [mem_sortedPending]

/-- **The seeded state mirrors the captured one.** -/
theorem mirrors_atCut (named : Named cut) (knows : Knows places cut) :
    Mirrors places (View.atCut cut) cut (seeded (checkpointOf (event, cut))) := by
  have lifecycles : ∀ hash status, (seeded (checkpointOf (event, cut))).lifecycle hash = some status →
      status = .pending ∧ cut.lifecycle hash = some .pending := by
    intro hash status held
    rw [lifecycle, getElem?_seeded] at held
    split at held
    case isTrue pending => exact ⟨(Option.some.inj held).symm, pending⟩
    case isFalse => cases held
  refine ⟨named, knows, fun hash => ?_, fun sender => ?_⟩
  · refine ⟨⟨fun pending => (lifecycles hash _ pending).2, fun pending => ?_⟩,
      (fun met => by cases met), fun _ => ?_, ?_, fun status held => Or.inl ?_⟩
    · rw [lifecycle, getElem?_seeded, if_pos pending]
      rfl
    · rw [profile, getElem?_seeded]
      split <;> rfl
    · rw [profile, getElem?_seeded, View.atCut, mem_pendingHashes]
      split
      case isTrue pending => exact iff_of_true pending rfl
      case isFalse ended => exact iff_of_false ended Bool.false_ne_true
    · obtain ⟨rfl, pending⟩ := lifecycles hash status held
      exact pending
  · refine ⟨named.slot_seeded sender, fun nonce hash held => ⟨named.place_eq held, ?_⟩,
      fun nonce hash => (and_iff_left_of_imp named.lifecycle).symm,
      (fun nonce hash held carried => absurd carried List.not_mem_nil),
      fun nonce hash _ _ => ?_,
      fun nonce hash held ended => absurd (named.lifecycle held) ended⟩
    · exact mem_pendingHashes.mpr (named.lifecycle held)
    · rw [queueState, getElem?_seeded]
      split <;> rfl

end Cut

end MempoolState

/-! ## Frames -/

/-- The state of the full replay after the events up to a sequence id. -/
def stateAt (events : List EventEnvelope) (seqId : UInt64) : MempoolState :=
  MempoolState.replay {} (((sortDeterministic events).filter fun event =>
    event.seqId ≤ seqId).map (·.payload))

/-- The events after a sequence id. -/
def tailAfter (events : List EventEnvelope) (seqId : UInt64) : List EventEnvelope :=
  (sortDeterministic events).filter fun event => seqId < event.seqId

section Frames

variable {events : List EventEnvelope} {seqId : UInt64}

theorem trace_append (state : MempoolState) (earlier later : List EventEnvelope) :
    trace state (earlier ++ later) =
      trace state earlier ++ trace (state.replay (earlier.map (·.payload))) later := by
  induction earlier generalizing state with
  | nil => rfl
  | cons event rest ih =>
      rw [List.cons_append, trace, trace, ih]
      rfl

theorem outputs_watch (run : MempoolState.View × MempoolState) (events : List EventEnvelope) :
    outputs MempoolState.watch run events = (trace run.2 events).map frameOf := by
  induction events generalizing run with
  | nil => rfl
  | cons event rest ih => exact congrArg _ (ih _)

theorem outputs_resume (state : MempoolState) (events : List EventEnvelope) :
    outputs MempoolState.resume state events = (trace state events).map frameOf := by
  induction events generalizing state with
  | nil => rfl
  | cons event rest ih => exact congrArg _ (ih _)

theorem mem_of_mem_trace {state : MempoolState} {step : EventEnvelope × MempoolState}
    (member : step ∈ trace state events) : step.1 ∈ events :=
  map_fst_trace state events ▸ List.mem_map_of_mem member

/-- The sorted events around the one with a sequence id. -/
theorem exists_cut (distinct : (events.map (·.seqId)).Nodup) (member : seqId ∈ events.map (·.seqId)) :
    ∃ front cut, sortDeterministic events = front ++ cut :: tailAfter events seqId ∧
      cut.seqId = seqId ∧ (∀ event ∈ front, event.seqId < seqId) ∧
        stateAt events seqId = MempoolState.replay {} ((front ++ [cut]).map (·.payload)) := by
  obtain ⟨cut, listed, rfl⟩ := List.mem_map.mp member
  obtain ⟨front, tail, whole⟩ := List.append_of_mem
    ((stableSort_perm cmpDeterministic events).mem_iff.mpr listed)
  have increasing := increasing_sortDeterministic distinct
  change sortDeterministic events = front ++ cut :: tail at whole
  rw [whole, List.pairwise_append, List.pairwise_cons] at increasing
  obtain ⟨-, ⟨above, -⟩, below⟩ := increasing
  have before : ∀ event ∈ front, event.seqId < cut.seqId := fun event inFront =>
    below event inFront cut List.mem_cons_self
  have kept : tailAfter events cut.seqId = tail := by
    rw [tailAfter, whole, List.filter_append, List.filter_cons_of_neg (by simp),
      List.filter_eq_nil_iff.mpr, List.filter_eq_self.mpr, List.nil_append]
    · exact fun event inTail => decide_eq_true (above event inTail)
    · exact fun event inFront => by simpa using UInt64.le_of_lt (before event inFront)
  have earlier : (sortDeterministic events).filter (fun event => event.seqId ≤ cut.seqId) =
      front ++ [cut] := by
    rw [whole, List.filter_append, List.filter_cons_of_pos (by simp), List.filter_eq_self.mpr,
      List.filter_eq_nil_iff.mpr]
    · exact fun event inTail => by simpa using above event inTail
    · exact fun event inFront => decide_eq_true (UInt64.le_of_lt (before event inFront))
  refine ⟨front, cut, by rw [kept]; exact whole, rfl, before, ?_⟩
  rw [stateAt, earlier]

/-- The frames of the full replay after the cut. -/
theorem replayFrames_after (iteration : MapIteration) (distinct : (events.map (·.seqId)).Nodup)
    (member : seqId ∈ events.map (·.seqId)) :
    (iteration.replayFrames events .deterministicEventReplay 1).filter
        (fun frame => seqId < frame.seqHi) =
      (trace (stateAt events seqId) (tailAfter events seqId)).map frameOf := by
  obtain ⟨front, cut, whole, own, below, state⟩ := exists_cut distinct member
  have frames : iteration.replayFrames events .deterministicEventReplay 1 =
      (trace {} (sortDeterministic events)).map frameOf :=
    replayDeterministicLoop_one iteration _ _ _ _
  have split : sortDeterministic events = (front ++ [cut]) ++ tailAfter events seqId := by
    rw [whole, List.append_assoc, List.singleton_append]
  rw [frames, split, trace_append, ← state, List.map_append, List.filter_append,
    List.filter_eq_nil_iff.mpr, List.filter_eq_self.mpr, List.nil_append]
  · intro frame emitted
    obtain ⟨step, traced, rfl⟩ := List.mem_map.mp emitted
    exact (List.mem_filter.mp (mem_of_mem_trace traced)).2
  · intro frame emitted
    obtain ⟨step, traced, rfl⟩ := List.mem_map.mp emitted
    have early : step.1.seqId ≤ seqId := by
      rcases List.mem_append.mp (mem_of_mem_trace traced) with inFront | here
      · exact UInt64.le_of_lt (below _ inFront)
      · rw [List.mem_singleton.mp here, own]
        exact UInt64.le_refl seqId
    exact fun late => UInt64.not_lt.mpr early (of_decide_eq_true late)

/-- The checkpoint that is captured at a cut. -/
theorem lifecycleSnapshot_at (iteration : MapIteration) (distinct : (events.map (·.seqId)).Nodup)
    (member : seqId ∈ events.map (·.seqId)) :
    ∃ cut : EventEnvelope, cut.seqId = seqId ∧ iteration.lifecycleSnapshot events seqId =
      some (checkpointOf (cut, stateAt events seqId)) := by
  obtain ⟨front, cut, whole, own, below, state⟩ := exists_cut distinct member
  refine ⟨cut, own, ?_⟩
  have others : (trace {} front).filter (fun step =>
      (ExtTreeSet.ofList [seqId]).contains step.1.seqId) = [] := by
    refine List.filter_eq_nil_iff.mpr fun step traced listed => ?_
    rw [ExtTreeSet.contains_ofList, List.contains_iff_mem, List.mem_singleton] at listed
    exact UInt64.ne_of_lt (below _ (mem_of_mem_trace traced)) listed
  have here : (ExtTreeSet.ofList [seqId]).contains cut.seqId = true := by
    rw [ExtTreeSet.contains_ofList, List.contains_iff_mem, List.mem_singleton, own]
  rw [MapIteration.lifecycleSnapshot, lifecycleCheckpoints_eq, whole, trace_append,
    List.filter_append, others, List.nil_append, trace, List.filter_cons, if_pos here, List.map_cons,
    List.head?_cons, state, List.map_append, MempoolState.replay_append]
  rfl

end Frames

/-- **A replay from a checkpoint gives the frames of the full replay exactly when it can follow
every event after the cut**, when each hash is announced with one sender and one nonce. -/
theorem replayFromCheckpoint_iff (places : TxHash → Address × UInt64) {events : List EventEnvelope}
    (distinct : (events.map (·.seqId)).Nodup)
    (placed : ∀ event ∈ events, Placed places event.payload) {seqId : UInt64}
    (member : seqId ∈ events.map (·.seqId)) (captured resumed whole : MapIteration) :
    (∃ checkpoint, captured.lifecycleSnapshot events seqId = some checkpoint ∧
      resumed.replayFromCheckpoint events checkpoint 1 =
        (whole.replayFrames events .deterministicEventReplay 1).filter
          fun frame => seqId < frame.seqHi) ↔
      RunAllowed MempoolState.watch MempoolState.Followed
        (.atCut (stateAt events seqId), stateAt events seqId) (tailAfter events seqId) := by
  obtain ⟨cut, own, captures⟩ := lifecycleSnapshot_at captured distinct member
  have listed : ∀ event ∈ sortDeterministic events, Placed places event.payload :=
    fun event inSorted => placed event ((stableSort_perm cmpDeterministic events).mem_iff.mp inSorted)
  have tidy : MempoolState.Named (stateAt events seqId) ∧
      MempoolState.Knows places (stateAt events seqId) := by
    apply MempoolState.tidy_replay
    intro payload inPayloads
    obtain ⟨event, inFront, rfl⟩ := List.mem_map.mp inPayloads
    exact listed event (List.mem_of_mem_filter inFront)
  have resumes : resumed.replayFromCheckpoint events
      (checkpointOf (cut, stateAt events seqId)) 1 =
        outputs MempoolState.resume (MempoolState.seeded (checkpointOf (cut, stateAt events seqId)))
          (tailAfter events seqId) := by
    rw [outputs_resume]
    have sameTail : (sortDeterministic events).filter (fun event =>
        (checkpointOf (cut, stateAt events seqId)).seqId < event.seqId) = tailAfter events seqId := by
      rw [tailAfter, ← own]
      rfl
    rw [MapIteration.replayFromCheckpoint, sameTail]
    exact replayDeterministicLoop_one resumed _ _ _ _
  have tailPlaced : ∀ event ∈ tailAfter events seqId, Placed places event.payload :=
    fun event inTail => listed event (List.mem_of_mem_filter inTail)
  have mirrors : MempoolState.Mirrors places (.atCut (stateAt events seqId)) (stateAt events seqId)
      (MempoolState.seeded (checkpointOf (cut, stateAt events seqId))) :=
    MempoolState.mirrors_atCut tidy.1 tidy.2
  have follows : outputs MempoolState.watch (.atCut (stateAt events seqId), stateAt events seqId)
        (tailAfter events seqId) =
      outputs MempoolState.resume (MempoolState.seeded (checkpointOf (cut, stateAt events seqId)))
        (tailAfter events seqId) ↔ _ :=
    (MempoolState.lockstep_mirrors places).outputs_eq_iff mirrors tailPlaced
  rw [replayFrames_after whole distinct member, ← outputs_watch (.atCut (stateAt events seqId), _),
    ← follows]
  constructor
  · rintro ⟨checkpoint, captured, same⟩
    rw [captures] at captured
    cases captured
    rw [← same, resumes]
  · intro same
    exact ⟨_, captures, by rw [resumes, same]⟩

/-- Two transactions of different senders; the first is dropped before the cut and the second
after it, with a third decoded in between. -/
def droppedAroundCut : List EventEnvelope :=
  [sampleEnvelope 1 (.txDecoded (Scheduler.sampleValidatedTx 10 1 0 100).decoded),
    sampleEnvelope 2 (.txDecoded (Scheduler.sampleValidatedTx 11 2 0 100).decoded),
    sampleEnvelope 3 (.txDropped { hash := 10, reason := "evicted" }),
    sampleEnvelope 4 (.txDecoded (Scheduler.sampleValidatedTx 12 3 0 100).decoded),
    sampleEnvelope 5 (.txDropped { hash := 11, reason := "included" })]

theorem droppedAroundCut_replayFromCheckpoint_iff :
    (∃ checkpoint, MapIteration.increasing.lifecycleSnapshot droppedAroundCut 3 = some checkpoint ∧
      MapIteration.decreasing.replayFromCheckpoint droppedAroundCut checkpoint 1 =
        (MapIteration.increasing.replayFrames droppedAroundCut .deterministicEventReplay 1).filter
          fun frame => 3 < frame.seqHi) ↔
      RunAllowed MempoolState.watch MempoolState.Followed
        (.atCut (stateAt droppedAroundCut 3), stateAt droppedAroundCut 3)
        (tailAfter droppedAroundCut 3) := by
  refine replayFromCheckpoint_iff (fun hash => (BitVec.ofNat 160 (hash.toNat - 9), 0)) (by decide) ?_
    (by decide) .increasing .decreasing .increasing
  intro event listed hash place named
  fin_cases listed <;> cases named <;> rfl

/-- A transaction that was announced blocked although nothing is queued in front of it, and an
event that changes nothing. -/
def blockedBeforeCut : List EventEnvelope :=
  [sampleEnvelope 1 (.txBlocked { hash := 10, sender := 1, nonce := 2, expectedNonce := some 0 }),
    sampleEnvelope 2 (.txFetched { hash := 11, fetchedAtUnixMs := 0 })]

/-- The checkpoint says the transaction is blocked, and the replay from it says it is ready. -/
theorem blockedBeforeCut_replayFromCheckpoint_ne :
    ¬ ∃ checkpoint,
      MapIteration.increasing.lifecycleSnapshot blockedBeforeCut 1 = some checkpoint ∧
        MapIteration.increasing.replayFromCheckpoint blockedBeforeCut checkpoint 1 =
          (MapIteration.increasing.replayFrames blockedBeforeCut .deterministicEventReplay 1).filter
            fun frame => 1 < frame.seqHi := by
  rintro ⟨checkpoint, captured, same⟩
  have blocked : MapIteration.increasing.lifecycleSnapshot blockedBeforeCut 1 =
      some ⟨1, [10], [⟨1, [⟨10, 2, .blocked 0⟩]⟩]⟩ := by decide +kernel
  rw [blocked] at captured
  cases captured
  revert same
  decide +kernel

end Mempulse.Replay
