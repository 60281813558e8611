import Mempulse.Dashboard.EventsV1
import Mempulse.Dashboard.Producer

/-!
# Resuming from a frame

A client that reconnects gives the id of its last frame as its cursor, so a frame is safe when
everything published up to its id was delivered, or the client was reset. The id of a delta frame is
safe as long as nothing left the buffer before the subscription. A keepalive is named by the
watermark, which runs ahead of the receiver while a delta is in flight or queued.
-/

set_option autoImplicit false

namespace Mempulse.Dashboard

open Library
open DashboardStreamBroadcaster (initialEvents)

/-! ## Safe cursors -/

/-- The client was told to start over. -/
def ResetDelivered (frames : List DashboardEventsV1Frame) : Prop :=
  ∃ frame ∈ frames, frame.event = "reset"

/-- A frame delivers the dispatch of an event. -/
def DeltaDelivered (frames : List DashboardEventsV1Frame) (event : DashboardStreamBroadcastEvent) :
    Prop :=
  ∃ frame ∈ frames, ∃ dispatch, frame.data = .dispatch dispatch ∧ event = .delta dispatch

/-- A client that got some frames, since it subscribed after `afterSeqId`, misses nothing up to a
cursor. -/
def SafeCursor (afterSeqId : UInt64) (published : List DashboardStreamBroadcastEvent)
    (frames : List DashboardEventsV1Frame) (cursor : UInt64) : Prop :=
  ResetDelivered frames ∨
    ∀ event ∈ published, afterSeqId < event.seqId → event.seqId ≤ cursor →
      DeltaDelivered frames event

/-- **Stream cursors are safe to resume from.** At every frame, a client that reconnects with its id
has missed nothing so far. -/
def CursorsSafe (afterSeqId : UInt64) (published : List DashboardStreamBroadcastEvent)
    (frames : List DashboardEventsV1Frame) : Prop :=
  ∀ earlier frame later, frames = earlier ++ frame :: later → ∀ queryAfter,
    SafeCursor afterSeqId published (earlier ++ [frame])
      (resolveDashboardEventsV1After (some frame.id) queryAfter)

/-- The deltas of a producer's run, in the order in which it publishes them. -/
def Produced (published : List DashboardStreamBroadcastEvent) : Prop :=
  ∃ config history producer, Run ProducerState.Takes (.start config) history producer ∧
    published = producer.published.map .delta

/-- The buffer still has every pushed event after a cursor. -/
def Kept (afterSeqId : UInt64) (capacity : Nat) (pushed : List DashboardStreamBroadcastEvent) :
    Prop :=
  fresh afterSeqId (lastOf capacity pushed) = fresh afterSeqId pushed

/-- No event after a cursor waits for the receiver or is in flight in the publisher. -/
def EventsV1State.Quiet (afterSeqId : UInt64) (state : EventsV1State) : Prop :=
  ∀ event ∈ state.queue ++ state.stream.publish.inFlight.2 ++ state.stream.publish.inFlight.1,
    event.seqId ≤ afterSeqId

/-- What keeps the id of a frame from running ahead of what was delivered, for a subscription to a
buffer to which some events had been pushed. -/
def EventsV1State.Meets (afterSeqId : UInt64) (capacity : Nat)
    (pushed : List DashboardStreamBroadcastEvent) (state : EventsV1State) : EventsV1Step → Prop
  -- A delta frame: nothing was evicted before the subscription.
  | .deliverInitial => ResetDelivered state.frames ∨
    (∃ event ∈ state.pending.head?, event.isReset) ∨ Kept afterSeqId capacity pushed
  | .receive => ResetDelivered state.frames ∨
    (∃ event ∈ state.queue.head?, event.isReset) ∨ Kept afterSeqId capacity pushed
  -- A keepalive: the watermark is not ahead of the receiver, either.
  | .deliverKeepalive => ResetDelivered state.frames ∨
    Kept afterSeqId capacity pushed ∧ state.Quiet afterSeqId
  | .publisher _ | .lag | .deliverReset | .timeout => True

/-! ## What was delivered -/

theorem ResetDelivered.append {frames : List DashboardEventsV1Frame}
    (delivered : ResetDelivered frames) (more : List DashboardEventsV1Frame) :
    ResetDelivered (frames ++ more) := by
  obtain ⟨frame, member, reset⟩ := delivered
  exact ⟨frame, List.mem_append_left _ member, reset⟩

theorem ResetDelivered.last (frames : List DashboardEventsV1Frame) {frame : DashboardEventsV1Frame}
    (reset : frame.event = "reset") : ResetDelivered (frames ++ [frame]) :=
  ⟨frame, List.mem_append_right _ List.mem_cons_self, reset⟩

theorem resetDelivered_concat_iff {frames : List DashboardEventsV1Frame}
    {frame : DashboardEventsV1Frame} (other : frame.event ≠ "reset") :
    ResetDelivered (frames ++ [frame]) ↔ ResetDelivered frames := by
  simp [ResetDelivered, or_and_right, exists_or, other]

theorem deltaDelivered_concat_iff {frames : List DashboardEventsV1Frame}
    {frame : DashboardEventsV1Frame} {event : DashboardStreamBroadcastEvent} :
    DeltaDelivered (frames ++ [frame]) event ↔ DeltaDelivered frames event ∨
      ∃ dispatch, frame.data = .dispatch dispatch ∧ event = .delta dispatch := by
  simp [DeltaDelivered, or_and_right, exists_or]

/-- Where a subscriber is that got no reset so far: it has delivered some events, and those left of
its initial events and of its receiver's queue come next. -/
inductive Progress (afterSeqId : UInt64) (kept : List DashboardStreamBroadcastEvent)
    (receiver : Nat) (state : EventsV1State) : Prop
  | reset (delivered : ResetDelivered state.frames)
  | lagged (lagged : state.stage = .lagged)
  | resetting {event : DashboardStreamBroadcastEvent} (first : state.pending = [event])
      (reset : event.isReset = true)
  | follows (delivered : List DashboardStreamBroadcastEvent)
      (exactly : ∀ event, DeltaDelivered state.frames event ↔ event ∈ delivered)
      (whole : delivered ++ (state.pending ++ state.queue) =
        fresh afterSeqId kept ++ state.stream.broadcaster.sender.drop receiver)

/-- Where a receiver made at `receiver` stands in what was sent and kept. -/
structure Tracks (afterSeqId : UInt64) (kept : List DashboardStreamBroadcastEvent)
    (receiver : Nat) (state : EventsV1State) : Prop where
  position : state.position ≤ state.stream.broadcaster.sender.length
  started : receiver ≤ state.stream.broadcaster.sender.length
  timedOut : state.stage = .timedOut → state.pending = []
  progress : Progress afterSeqId kept receiver state

theorem StreamState.Takes.sender {afterSeqId : UInt64} {state next : StreamState}
    {label : StreamStep} (taken : state.Takes afterSeqId label next) :
    ∃ more, next.broadcaster.sender = state.broadcaster.sender ++ more := by
  unfold StreamState.Takes StreamState.step at taken
  cases label with
  | send event =>
      dsimp only at taken
      split at taken <;> cases taken
      exact ⟨[event], rfl⟩
  | advanceLatest event | pushReplay event | copyReplay | readLatest | createReceiver =>
      dsimp only at taken
      split at taken <;> cases taken
      exact ⟨[], (List.append_nil _).symm⟩

/-- A delta frame is the next of the events to deliver. -/
theorem delivered_of_frame {frames : List DashboardEventsV1Frame}
    {delivered : List DashboardStreamBroadcastEvent} {event : DashboardStreamBroadcastEvent}
    (exactly : ∀ event, DeltaDelivered frames event ↔ event ∈ delivered)
    (noReset : event.isReset = false) (other : DashboardStreamBroadcastEvent) :
    DeltaDelivered (frames ++ [buildDashboardEventsV1Frame event]) other ↔
      other ∈ delivered ++ [event] := by
  obtain ⟨dispatch, rfl, built⟩ := buildDashboardEventsV1Frame_of_not_isReset noReset
  rw [deltaDelivered_concat_iff, built, exactly, List.mem_append, List.mem_singleton]
  simp

section Step

variable {afterSeqId : UInt64} {channelCapacity : Nat}
  {kept : List DashboardStreamBroadcastEvent} {receiver : Nat} {state next : EventsV1State}
  {label : EventsV1Step}

/-- The frame of the next event to deliver is delivered. -/
theorem Progress.deliver {event : DashboardStreamBroadcastEvent}
    {rest : List DashboardStreamBroadcastEvent} (progress : Progress afterSeqId kept receiver state)
    (polling : state.stage = .polling) (first : state.pending ++ state.queue = event :: rest)
    (frames : next.frames = state.frames ++ [buildDashboardEventsV1Frame event])
    (stream : next.stream = state.stream) (left : next.pending ++ next.queue = rest) :
    Progress afterSeqId kept receiver next := by
  by_cases reset : event.isReset = true
  · refine .reset ?_
    rw [frames]
    exact .last _ (buildDashboardEventsV1Frame_of_isReset reset)
  · cases progress with
    | reset delivered =>
        refine .reset ?_
        rw [frames]
        exact delivered.append _
    | lagged lagged =>
        rw [polling] at lagged
        cases lagged
    | resetting only resets =>
        rw [only] at first
        obtain ⟨rfl, -⟩ := List.cons.inj first
        exact absurd resets reset
    | follows delivered exactly whole =>
        refine .follows (delivered ++ [event]) ?_ ?_
        · rw [frames]
          exact delivered_of_frame exactly (Bool.eq_false_of_not_eq_true reset)
        · rw [left, stream, List.append_assoc]
          rw [first] at whole
          exact whole

/-- **What one step of the loop or of the publisher keeps.** -/
theorem Tracks.step (tracks : Tracks afterSeqId kept receiver state)
    (taken : state.Takes afterSeqId channelCapacity label next) :
    Tracks afterSeqId kept receiver next := by
  obtain ⟨position, start, timedOut, progress⟩ := tracks
  cases taken.moves with
  | @publisher step stream moved =>
      obtain ⟨more, sent⟩ := moved.sender
      have longer : state.stream.broadcaster.sender.length ≤ stream.broadcaster.sender.length := by
        rw [sent, List.length_append]
        omega
      refine ⟨position.trans longer, start.trans longer, timedOut, ?_⟩
      cases progress with
      | reset delivered => exact .reset delivered
      | lagged lagged => exact .lagged lagged
      | resetting first reset => exact .resetting first reset
      | follows delivered exactly whole =>
          refine .follows delivered exactly ?_
          have queue : stream.broadcaster.sender.drop state.position = state.queue ++ more := by
            rw [sent, List.drop_append_of_le_length position]
            rfl
          change _ ++ (state.pending ++ stream.broadcaster.sender.drop state.position) = _
          rw [queue, sent, List.drop_append_of_le_length start, ← List.append_assoc,
            ← List.append_assoc, List.append_assoc _ _ state.queue, whole, List.append_assoc]
  | @deliverInitial event pending polling first =>
      refine ⟨position, start, (fun late => nomatch polling.symm.trans late), ?_⟩
      have next : state.pending ++ state.queue = event :: (pending ++ state.queue) := by
        rw [first, List.cons_append]
      exact progress.deliver polling next rfl rfl rfl
  | @receive event queue polling finished first =>
      have inside : state.position < state.stream.broadcaster.sender.length := by
        by_contra past
        have empty : state.queue = [] := List.drop_eq_nil_of_le (not_lt.mp past)
        rw [empty] at first
        cases first
      refine ⟨inside, start, (fun late => nomatch polling.symm.trans late), ?_⟩
      have next : state.pending ++ state.queue = event :: queue := by
        rw [finished, first, List.nil_append]
      have tail : state.stream.broadcaster.sender.drop (state.position + 1) = queue := by
        rw [← List.tail_drop]
        exact congrArg List.tail first
      refine progress.deliver polling next rfl rfl ?_
      change state.pending ++ state.stream.broadcaster.sender.drop (state.position + 1) = queue
      rw [finished, tail, List.nil_append]
  | lag finished =>
      exact ⟨Nat.sub_le .., start, (fun late => nomatch late), .lagged rfl⟩
  | deliverReset lagged =>
      exact ⟨position, start, (fun late => nomatch late), .reset (.last _ rfl)⟩
  | timeout polling finished =>
      refine ⟨position, start, fun _ => finished, ?_⟩
      cases progress with
      | reset delivered => exact .reset delivered
      | lagged lagged => exact nomatch polling.symm.trans lagged
      | resetting first reset => exact .resetting first reset
      | follows delivered exactly whole => exact .follows delivered exactly whole
  | deliverKeepalive late =>
      refine ⟨position, start, (fun late => nomatch late), ?_⟩
      cases progress with
      | reset delivered => exact .reset (delivered.append _)
      | lagged lagged => exact nomatch late.symm.trans lagged
      | resetting first reset => exact .resetting first reset
      | follows delivered exactly whole =>
          refine .follows delivered (fun event => ?_) whole
          rw [deltaDelivered_concat_iff, exactly, buildDashboardEventsV1KeepaliveFrame]
          simp

end Step

/-! ## Cursors and what was delivered -/

/-- What a buffer has lost. -/
def evicted (capacity : Nat) (pushed : List DashboardStreamBroadcastEvent) :
    List DashboardStreamBroadcastEvent :=
  pushed.take (pushed.length - capacity)

theorem evicted_append_lastOf (capacity : Nat) (pushed : List DashboardStreamBroadcastEvent) :
    evicted capacity pushed ++ lastOf capacity pushed = pushed :=
  List.take_append_drop ..

theorem kept_iff {afterSeqId : UInt64} {capacity : Nat}
    {pushed : List DashboardStreamBroadcastEvent} :
    Kept afterSeqId capacity pushed ↔ fresh afterSeqId (evicted capacity pushed) = [] := by
  have parts := fresh_append afterSeqId (evicted capacity pushed) (lastOf capacity pushed)
  rw [evicted_append_lastOf] at parts
  rw [Kept, parts, List.self_eq_append_left]

theorem mem_fresh {afterSeqId : UInt64} {events : List DashboardStreamBroadcastEvent}
    {event : DashboardStreamBroadcastEvent} :
    event ∈ fresh afterSeqId events ↔ event ∈ events ∧ afterSeqId < event.seqId := by
  rw [fresh, List.mem_filter, decide_eq_true_eq]

/-- **When nothing is missing up to a cursor.** The events published in increasing order are those
lost before the subscription, those of the buffer, those sent later and the rest. Of the ones to
deliver, some are delivered and the others wait. -/
theorem delivered_upTo_iff {afterSeqId : UInt64} (cursor : UInt64)
    {lost kept sent rest delivered waiting : List DashboardStreamBroadcastEvent}
    (increasing : (lost ++ (kept ++ sent) ++ rest).Pairwise
      fun earlier later => earlier.seqId < later.seqId)
    (whole : delivered ++ waiting = fresh afterSeqId kept ++ sent)
    (reached : ∀ event ∈ lost, event.seqId ≤ cursor) :
    (∀ event ∈ lost ++ (kept ++ sent) ++ rest, afterSeqId < event.seqId → event.seqId ≤ cursor →
        event ∈ delivered) ↔
      fresh afterSeqId lost = [] ∧
        ∀ event ∈ waiting ++ rest, afterSeqId < event.seqId → ¬ event.seqId ≤ cursor := by
  obtain ⟨front, -, beforeRest⟩ := List.pairwise_append.mp increasing
  obtain ⟨-, middle, beforeMiddle⟩ := List.pairwise_append.mp front
  have sublist : (delivered ++ waiting).Sublist (kept ++ sent) := by
    rw [whole]
    exact List.filter_sublist.append (List.Sublist.refl sent)
  have listed : ∀ event ∈ delivered, event ∈ kept ++ sent := fun event member =>
    sublist.subset (List.mem_append_left _ member)
  obtain ⟨-, -, beforeWaiting⟩ := List.pairwise_append.mp (middle.sublist sublist)
  constructor
  · intro upTo
    refine ⟨List.eq_nil_iff_forall_not_mem.mpr fun event member => ?_, fun event member after => ?_⟩
    · obtain ⟨gone, after⟩ := mem_fresh.mp member
      have found := upTo event (List.mem_append_left _ (List.mem_append_left _ gone)) after
        (reached event gone)
      exact UInt64.lt_irrefl _ (beforeMiddle event gone event (listed event found))
    · intro before
      rcases List.mem_append.mp member with waits | later
      · have here := sublist.subset (List.mem_append_right _ waits)
        have listed := List.mem_append_left rest (List.mem_append_right lost here)
        have found := upTo event listed after before
        exact UInt64.lt_irrefl _ (beforeWaiting event found event waits)
      · have found := upTo event (List.mem_append_right _ later) after before
        exact UInt64.lt_irrefl _ (beforeRest event (List.mem_append_right _ (listed event found))
          event later)
  · rintro ⟨noneLost, ahead⟩ event member after before
    have due : event ∈ fresh afterSeqId kept ++ sent → event ∈ delivered := by
      rw [← whole]
      intro due
      rcases List.mem_append.mp due with found | waits
      · exact found
      · exact absurd before (ahead event (List.mem_append_left _ waits) after)
    rcases List.mem_append.mp member with early | later
    · rcases List.mem_append.mp early with gone | toDeliver
      · have found := mem_fresh.mpr ⟨gone, after⟩
        rw [noneLost] at found
        cases found
      · rcases List.mem_append.mp toDeliver with buffered | afterwards
        · exact due (List.mem_append_left _ (mem_fresh.mpr ⟨buffered, after⟩))
        · exact due (List.mem_append_right _ afterwards)
    · exact absurd before (ahead event (List.mem_append_right _ later) after)

/-! ## The watermark -/

/-- The watermark is that of the last event published. -/
structure Watermark (published : List DashboardStreamBroadcastEvent) (latestSeqId : UInt64) :
    Prop where
  above : ∀ event ∈ published, event.seqId ≤ latestSeqId
  attained : latestSeqId = 0 ∨ ∃ event ∈ published, event.seqId = latestSeqId

theorem Watermark.advance {published : List DashboardStreamBroadcastEvent} {latestSeqId : UInt64}
    (watermark : Watermark published latestSeqId) (event : DashboardStreamBroadcastEvent) :
    Watermark (published ++ [event]) (max latestSeqId event.seqId) := by
  have larger : max latestSeqId event.seqId =
      if latestSeqId ≤ event.seqId then event.seqId else latestSeqId := rfl
  obtain ⟨above, attained⟩ := watermark
  rw [larger]
  split
  case isTrue raised =>
    refine ⟨fun other member => ?_, .inr ⟨event, List.mem_append_right _ List.mem_cons_self, rfl⟩⟩
    rcases List.mem_append.mp member with before | now
    · exact UInt64.le_trans (above other before) raised
    · rw [List.mem_singleton.mp now]
      exact UInt64.le_refl _
  case isFalse below =>
    refine ⟨fun other member => ?_, attained.imp_right fun ⟨other, member, same⟩ =>
      ⟨other, List.mem_append_left _ member, same⟩⟩
    rcases List.mem_append.mp member with before | now
    · exact above other before
    · rw [List.mem_singleton.mp now]
      exact UInt64.le_of_lt (UInt64.not_le.mp below)

theorem Watermark.of_run {capacity : Nat} {afterSeqId : UInt64} {history : List StreamStep}
    {last : StreamState}
    (run : Run (StreamState.Takes afterSeqId) (StreamState.start capacity) history last) :
    Watermark (publishedIn history) last.broadcaster.latestSeqId := by
  refine run.invariant (motive := fun past state =>
    Watermark (publishedIn past) state.broadcaster.latestSeqId)
    ⟨(fun event member => nomatch member), .inl rfl⟩ ?_
  intro past state next label _ watermark taken
  rw [publishedIn_concat]
  unfold StreamState.Takes StreamState.step at taken
  cases label with
  | advanceLatest event =>
      dsimp only at taken
      split at taken <;> cases taken
      exact watermark.advance _
  | pushReplay event | send event | copyReplay | readLatest | createReceiver =>
      dsimp only at taken
      split at taken <;> cases taken
      rw [StreamStep.events, List.append_nil]
      exact watermark

/-! ## The frames of a run -/

/-- A state of the loop in a run that publishes some events in the end, after a subscription to a
buffer to which some of them had been pushed. -/
structure Reached (afterSeqId : UInt64) (capacity : Nat)
    (pushed published : List DashboardStreamBroadcastEvent) (state : EventsV1State) : Prop where
  tracks : Tracks afterSeqId (lastOf capacity pushed) pushed.length state
  increasing : published.Pairwise fun earlier later => earlier.seqId < later.seqId
  deltas : ∀ event ∈ published, ∃ dispatch, event = .delta dispatch ∧ dispatch.seq = event.seqId
  whole : ∃ later, published = pushed ++ state.stream.broadcaster.sender.drop pushed.length ++
    (state.stream.publish.inFlight.2 ++ state.stream.publish.inFlight.1 ++ later)
  watermark : Watermark (pushed ++ state.stream.broadcaster.sender.drop pushed.length ++
    (state.stream.publish.inFlight.2 ++ state.stream.publish.inFlight.1))
    state.stream.broadcaster.latestSeqId

namespace Reached

variable {afterSeqId : UInt64} {capacity channelCapacity : Nat}
  {pushed published : List DashboardStreamBroadcastEvent} {state next : EventsV1State}

/-- A delta frame is safe when nothing was lost before the subscription. -/
theorem safeCursor_delta (reached : Reached afterSeqId capacity pushed published state)
    (noReset : ¬ ResetDelivered state.frames) {event : DashboardStreamBroadcastEvent}
    (delta : event.isReset = false) {delivered waiting : List DashboardStreamBroadcastEvent}
    (exactly : ∀ event, DeltaDelivered state.frames event ↔ event ∈ delivered)
    (whole : delivered ++ event :: waiting = fresh afterSeqId (lastOf capacity pushed) ++
      state.stream.broadcaster.sender.drop pushed.length) (queryAfter : Option UInt64) :
    SafeCursor afterSeqId published (state.frames ++ [buildDashboardEventsV1Frame event])
        (resolveDashboardEventsV1After (some (buildDashboardEventsV1Frame event).id) queryAfter) ↔
      Kept afterSeqId capacity pushed := by
  obtain ⟨later, split⟩ := reached.whole
  have increasing := reached.increasing
  rw [← evicted_append_lastOf capacity pushed, List.append_assoc (evicted capacity pushed),
    evicted_append_lastOf] at split
  rw [split] at increasing
  obtain ⟨front, -, beforeRest⟩ := List.pairwise_append.mp increasing
  obtain ⟨-, middle, beforeMiddle⟩ := List.pairwise_append.mp front
  have sublist : (delivered ++ event :: waiting).Sublist
      (lastOf capacity pushed ++ state.stream.broadcaster.sender.drop pushed.length) := by
    rw [whole]
    exact List.filter_sublist.append (List.Sublist.refl _)
  have here := sublist.subset (List.mem_append_right _ List.mem_cons_self)
  have ahead : ∀ other ∈ waiting, event.seqId < other.seqId :=
    (List.pairwise_cons.mp (List.pairwise_append.mp (middle.sublist sublist)).2.1).1
  obtain ⟨dispatch, rfl, built⟩ := buildDashboardEventsV1Frame_of_not_isReset delta
  have seq : dispatch.seq = (DashboardStreamBroadcastEvent.delta dispatch).seqId := by
    obtain ⟨other, same, seq⟩ := reached.deltas (.delta dispatch) (by
      rw [split]
      exact List.mem_append_left _ (List.mem_append_right _ here))
    cases same
    exact seq
  have other : (buildDashboardEventsV1Frame (.delta dispatch)).event ≠ "reset" := by
    rw [built]
    exact (by decide : "delta" ≠ "reset")
  have cursor : resolveDashboardEventsV1After
      (some (buildDashboardEventsV1Frame (.delta dispatch)).id) queryAfter =
        (DashboardStreamBroadcastEvent.delta dispatch).seqId := by
    rw [built, resolveDashboardEventsV1After_toString, seq]
  have whole : delivered ++ [.delta dispatch] ++ waiting =
      fresh afterSeqId (lastOf capacity pushed) ++
        state.stream.broadcaster.sender.drop pushed.length := by
    rw [List.append_assoc]
    exact whole
  have upTo := delivered_upTo_iff (DashboardStreamBroadcastEvent.delta dispatch).seqId increasing
    whole fun event lost => UInt64.le_of_lt (beforeMiddle event lost _ here)
  rw [SafeCursor, resetDelivered_concat_iff other, or_iff_right noReset, cursor, kept_iff, split]
  simp only [delivered_of_frame exactly delta]
  rw [upTo, and_iff_left]
  intro event member _
  rcases List.mem_append.mp member with waits | rest
  · exact UInt64.not_le.mpr (ahead event waits)
  · exact UInt64.not_le.mpr (beforeRest _ (List.mem_append_right _ here) event rest)

/-- An event published after the watermark was read lies above it. -/
theorem not_le_latest (reached : Reached afterSeqId capacity pushed published state)
    {later : List DashboardStreamBroadcastEvent}
    (split : published = pushed ++ state.stream.broadcaster.sender.drop pushed.length ++
      (state.stream.publish.inFlight.2 ++ state.stream.publish.inFlight.1 ++ later))
    {event : DashboardStreamBroadcastEvent} (member : event ∈ later)
    (after : afterSeqId < event.seqId) :
    ¬ event.seqId ≤ state.stream.broadcaster.latestSeqId := by
  have increasing := reached.increasing
  rw [split, ← List.append_assoc _ _ later] at increasing
  rcases reached.watermark.attained with zero | ⟨last, listed, same⟩
  · rw [zero]
    intro none
    have positive := UInt64.lt_iff_toNat_lt.mp (UInt64.lt_of_lt_of_le after none)
    exact Nat.not_lt_zero _ positive
  · rw [← same]
    exact UInt64.not_le.mpr ((List.pairwise_append.mp increasing).2.2 last listed event member)

/-- A keepalive is safe when nothing was lost before the subscription and the watermark is not ahead
of what the receiver has yielded. -/
theorem safeCursor_keepalive (reached : Reached afterSeqId capacity pushed published state)
    (noReset : ¬ ResetDelivered state.frames) (timedOut : state.stage = .timedOut)
    (queryAfter : Option UInt64) :
    SafeCursor afterSeqId published
        (state.frames ++
          [buildDashboardEventsV1KeepaliveFrame state.stream.broadcaster.latestSeqId])
        (resolveDashboardEventsV1After
          (some (buildDashboardEventsV1KeepaliveFrame state.stream.broadcaster.latestSeqId).id)
            queryAfter) ↔
      Kept afterSeqId capacity pushed ∧ state.Quiet afterSeqId := by
  have finished := reached.tracks.timedOut timedOut
  cases reached.tracks.progress with
  | reset delivered => exact absurd delivered noReset
  | lagged lagged => exact nomatch timedOut.symm.trans lagged
  | resetting first reset =>
      rw [finished] at first
      cases first
  | follows delivered exactly whole =>
      obtain ⟨later, split⟩ := reached.whole
      have increasing := reached.increasing
      have above := reached.watermark.above
      rw [finished, List.nil_append] at whole
      have queued : ∀ event ∈ state.queue,
          event ∈ pushed ++ state.stream.broadcaster.sender.drop pushed.length := by
        intro event member
        have listed : event ∈ fresh afterSeqId (lastOf capacity pushed) ++
            state.stream.broadcaster.sender.drop pushed.length :=
          whole ▸ List.mem_append_right _ member
        rcases List.mem_append.mp listed with buffered | sent
        · exact List.mem_append_left _ (List.mem_of_mem_drop (mem_fresh.mp buffered).1)
        · exact List.mem_append_right _ sent
      have beyond := fun event (member : event ∈ later) => reached.not_le_latest split member
      rw [← evicted_append_lastOf capacity pushed, List.append_assoc (evicted capacity pushed),
        evicted_append_lastOf] at split
      rw [split] at increasing
      have upTo := delivered_upTo_iff state.stream.broadcaster.latestSeqId increasing whole
        fun event lost => above event (by
          refine List.mem_append_left _ (List.mem_append_left _ ?_)
          rw [← evicted_append_lastOf capacity pushed]
          exact List.mem_append_left _ lost)
      have other : (buildDashboardEventsV1KeepaliveFrame
          state.stream.broadcaster.latestSeqId).event ≠ "reset" :=
        (by decide : "keepalive" ≠ "reset")
      have same : ∀ event, DeltaDelivered (state.frames ++
          [buildDashboardEventsV1KeepaliveFrame state.stream.broadcaster.latestSeqId]) event ↔
            event ∈ delivered := by
        intro event
        rw [deltaDelivered_concat_iff, exactly, buildDashboardEventsV1KeepaliveFrame]
        simp
      rw [SafeCursor, resetDelivered_concat_iff other, or_iff_right noReset,
        buildDashboardEventsV1KeepaliveFrame, resolveDashboardEventsV1After_toString, kept_iff,
        split]
      change (∀ event ∈ _, _ → _ → DeltaDelivered (state.frames ++
        [buildDashboardEventsV1KeepaliveFrame state.stream.broadcaster.latestSeqId]) event) ↔ _
      simp only [same]
      rw [upTo, EventsV1State.Quiet]
      refine and_congr_right fun _ => ⟨fun ahead event member => ?_, fun quiet event member => ?_⟩
      · by_contra after
        have waits : event ∈ state.queue ++
            (state.stream.publish.inFlight.2 ++ state.stream.publish.inFlight.1) := by
          rwa [← List.append_assoc]
        refine ahead event ?_ (UInt64.not_le.mp after) (above event ?_)
        · rw [← List.append_assoc]
          exact List.mem_append_left _ waits
        · rcases List.mem_append.mp waits with queue | flight
          · exact List.mem_append_left _ (queued event queue)
          · exact List.mem_append_right _ flight
      · rw [← List.append_assoc, ← List.append_assoc] at member
        rcases List.mem_append.mp member with waits | rest
        · exact fun after => absurd (quiet event waits) (UInt64.not_le.mpr after)
        · exact beyond event rest

/-- The frame of an event is safe when it resets the client, too. -/
theorem safeCursor_event (reached : Reached afterSeqId capacity pushed published state)
    (noReset : ¬ ResetDelivered state.frames) {event : DashboardStreamBroadcastEvent}
    (due : event.isReset = false → ∃ delivered waiting,
      (∀ event, DeltaDelivered state.frames event ↔ event ∈ delivered) ∧
        delivered ++ event :: waiting = fresh afterSeqId (lastOf capacity pushed) ++
          state.stream.broadcaster.sender.drop pushed.length) (queryAfter : Option UInt64) :
    SafeCursor afterSeqId published (state.frames ++ [buildDashboardEventsV1Frame event])
        (resolveDashboardEventsV1After (some (buildDashboardEventsV1Frame event).id) queryAfter) ↔
      event.isReset = true ∨ Kept afterSeqId capacity pushed := by
  cases reset : event.isReset with
  | true =>
      exact ⟨fun _ => .inl rfl,
        fun _ => .inl (.last _ (buildDashboardEventsV1Frame_of_isReset reset))⟩
  | false =>
      obtain ⟨delivered, waiting, exactly, whole⟩ := due reset
      rw [reached.safeCursor_delta noReset reset exactly whole,
        or_iff_right Bool.false_ne_true]

/-- **When a frame is safe.** -/
theorem safeCursor_iff (reached : Reached afterSeqId capacity pushed published state)
    {label : EventsV1Step} (taken : state.Takes afterSeqId channelCapacity label next)
    {frame : DashboardEventsV1Frame} (one : next.frames = state.frames ++ [frame])
    (queryAfter : Option UInt64) :
    SafeCursor afterSeqId published next.frames
        (resolveDashboardEventsV1After (some frame.id) queryAfter) ↔
      state.Meets afterSeqId capacity pushed label := by
  rw [one]
  have unchanged : state.frames ≠ state.frames ++ [frame] := by simp
  by_cases reset : ResetDelivered state.frames
  · refine ⟨fun _ => ?_, fun _ => .inl (reset.append _)⟩
    cases taken.moves with
    | publisher | lag | deliverReset | timeout => trivial
    | deliverInitial | receive | deliverKeepalive => exact .inl reset
  cases taken.moves with
  | publisher | lag | timeout => exact absurd one unchanged
  | deliverReset =>
      obtain rfl := List.singleton_inj.mp (List.append_cancel_left one)
      exact ⟨fun _ => trivial, fun _ => .inl (.last _ rfl)⟩
  | deliverKeepalive timedOut =>
      obtain rfl := List.singleton_inj.mp (List.append_cancel_left one)
      rw [reached.safeCursor_keepalive reset timedOut, EventsV1State.Meets, or_iff_right reset]
  | @deliverInitial event pending polling first =>
      obtain rfl := List.singleton_inj.mp (List.append_cancel_left one)
      rw [reached.safeCursor_event reset, EventsV1State.Meets, or_iff_right reset, first]
      · simp
      intro delta
      cases reached.tracks.progress with
      | reset delivered => exact absurd delivered reset
      | lagged lagged => exact nomatch polling.symm.trans lagged
      | resetting only resets =>
          rw [first] at only
          cases only
          exact nomatch delta.symm.trans resets
      | follows delivered exactly whole =>
          rw [first] at whole
          exact ⟨delivered, pending ++ state.queue, exactly, whole⟩
  | @receive event queue polling finished first =>
      obtain rfl := List.singleton_inj.mp (List.append_cancel_left one)
      rw [reached.safeCursor_event reset, EventsV1State.Meets, or_iff_right reset, first]
      · simp
      intro _
      cases reached.tracks.progress with
      | reset delivered => exact absurd delivered reset
      | lagged lagged => exact nomatch polling.symm.trans lagged
      | resetting only _ => exact nomatch finished.symm.trans only
      | follows delivered exactly whole =>
          rw [finished, first] at whole
          exact ⟨delivered, queue, exactly, whole⟩

end Reached

section Runs

variable {capacity channelCapacity : Nat} {afterSeqId : UInt64} {before : List StreamStep}
  {stream : StreamState}

/-- A loop starts with the initial events of its subscription. -/
theorem tracks_start
    (subscribing : Run (StreamState.Takes afterSeqId) (StreamState.start capacity)
      (before ++ [StreamStep.copyReplay, .readLatest, .createReceiver]) stream) :
    Tracks afterSeqId (lastOf (max capacity 1) (pushedIn before)) (sentIn before).length
      (.start stream) := by
  have whole : before ++ [StreamStep.copyReplay, .readLatest, .createReceiver] =
      before ++ StreamStep.copyReplay ::
        ([StreamStep.readLatest] ++ StreamStep.createReceiver :: []) := rfl
  obtain ⟨latestSeqId, done⟩ := subscription_of_run (whole ▸ subscribing)
  have sender := (Recorded.run subscribing).sender
  rw [sentIn_append] at sender
  have receiver : stream.receiver = (sentIn before).length := by
    rw [StreamState.receiver, done]
    exact congrArg List.length (List.append_nil _)
  have initial : stream.initial = initialEvents afterSeqId
      (lastOf (max capacity 1) (pushedIn before)) latestSeqId := by
    rw [StreamState.initial, done]
  have length : stream.broadcaster.sender.length = (sentIn before).length := by
    rw [sender]
    exact congrArg List.length (List.append_nil _)
  refine ⟨(receiver.trans length.symm).le, length.ge, (fun late => by cases late), ?_⟩
  rcases initialEvents_cases afterSeqId latestSeqId (lastOf (max capacity 1) (pushedIn before)) with
    ⟨-, reason, latest, reset⟩ | ⟨-, buffered⟩
  · exact .resetting (initial.trans reset) rfl
  · refine .follows [] (fun event => by simp [DeltaDelivered, EventsV1State.start]) ?_
    change [] ++ (stream.initial ++ stream.broadcaster.sender.drop stream.receiver) = _
    rw [initial, buffered, receiver]
    rfl

theorem reached_of_run
    (subscribing : Run (StreamState.Takes afterSeqId) (StreamState.start capacity)
      (before ++ [StreamStep.copyReplay, .readLatest, .createReceiver]) stream)
    (idle : stream.publish = .idle) {past : List EventsV1Step} {state : EventsV1State}
    (run : Run (EventsV1State.Takes afterSeqId channelCapacity) (.start stream) past state)
    {published later : List DashboardStreamBroadcastEvent}
    (split : published = publishedIn (before ++ streamSteps past) ++ later)
    (produced : Produced published) :
    Reached afterSeqId (max capacity 1) (pushedIn before) published state := by
  have atStart := Recorded.run subscribing
  have sentBefore : pushedIn before = sentIn before := by
    have pushed := atStart.pushed
    rw [idle, pushedIn_append, sentIn_append] at pushed
    simpa [pushedIn, sentIn, PublishStage.inFlight] using pushed
  have streams := subscribing.append (EventsV1State.stream_run run)
  have recorded := Recorded.run streams
  have sent : state.stream.broadcaster.sender.drop (pushedIn before).length =
      sentIn (streamSteps past) := by
    rw [recorded.sender, List.append_assoc, sentIn_append, sentBefore]
    exact List.drop_left
  have all : publishedIn (before ++ streamSteps past) =
      pushedIn before ++ state.stream.broadcaster.sender.drop (pushedIn before).length ++
        (state.stream.publish.inFlight.2 ++ state.stream.publish.inFlight.1) := by
    have published := recorded.published
    rw [recorded.pushed, List.append_assoc before, publishedIn_append, sentIn_append] at published
    rw [publishedIn_append, sent, sentBefore, List.append_assoc, ← List.append_assoc _ _
      state.stream.publish.inFlight.1]
    simpa [publishedIn, sentIn] using published
  have watermark := Watermark.of_run streams
  rw [List.append_assoc before, publishedIn_append] at watermark
  obtain ⟨config, history, producer, produces, rfl⟩ := produced
  have ascending := ProducerState.ascending_of_run produces
  have seqId : ∀ dispatch ∈ producer.published,
      (DashboardStreamBroadcastEvent.delta dispatch).seqId = dispatch.seq := by
    intro dispatch member
    rw [DashboardStreamBroadcastEvent.seqId, ascending.watermark dispatch member]
    exact ite_self _
  have receiver : (pushedIn before).length = (sentIn before).length := by rw [sentBefore]
  refine ⟨?_, ?_, ?_, ⟨later, ?_⟩, ?_⟩
  · rw [receiver]
    exact run.invariant (motive := fun _ state => Tracks afterSeqId _ _ state)
      (tracks_start subscribing) fun _ tracks taken => tracks.step taken
  · refine List.pairwise_map.mpr (ascending.increasing.imp_of_mem fun first second below => ?_)
    rw [seqId _ first, seqId _ second]
    exact below
  · intro event member
    obtain ⟨dispatch, listed, rfl⟩ := List.mem_map.mp member
    exact ⟨dispatch, rfl, (seqId dispatch listed).symm⟩
  · rw [split, all, List.append_assoc _ _ later]
  · rw [← all, publishedIn_append]
    exact watermark

/-- **When stream cursors are safe to resume from.** In every run of the loop of a subscription that
was made while nothing was being published, beside a publisher that goes on publishing the deltas of
a producer's run, they are exactly when each step meets its condition. -/
theorem cursorsSafe_iff
    (subscribing : Run (StreamState.Takes afterSeqId) (StreamState.start capacity)
      (before ++ [.copyReplay, .readLatest, .createReceiver]) stream)
    (idle : stream.publish = .idle) {history : List EventsV1Step} {last : EventsV1State}
    (run : Run (EventsV1State.Takes afterSeqId channelCapacity) (.start stream) history last)
    (produced : Produced (publishedIn (before ++ streamSteps history))) :
    CursorsSafe afterSeqId (publishedIn (before ++ streamSteps history)) last.frames ↔
      ∀ past label rest state, history = past ++ label :: rest →
        Run (EventsV1State.Takes afterSeqId channelCapacity) (.start stream) past state →
          state.Meets afterSeqId (max capacity 1) (pushedIn before) label := by
  have published : ∀ past rest, history = past ++ rest →
      publishedIn (before ++ streamSteps history) =
        publishedIn (before ++ streamSteps past) ++ publishedIn (streamSteps rest) := by
    rintro past rest rfl
    rw [streamSteps, List.flatMap_append, ← List.append_assoc, publishedIn_append]
    rfl
  have reached := fun past rest state (whole : history = past ++ rest)
      (front : Run (EventsV1State.Takes afterSeqId channelCapacity) (.start stream) past state) =>
    reached_of_run subscribing idle front (published past rest whole) produced
  constructor
  · rintro safe past label rest state rfl front
    obtain ⟨middle, same, onward⟩ := run.split
    cases Run.unique front same
    cases onward with
    | cons taken tail =>
        rcases taken.frames with unchanged | ⟨frame, one⟩
        · cases taken.moves with
          | publisher | lag | deliverReset | timeout => trivial
          | deliverInitial | receive | deliverKeepalive => simp at unchanged
        · obtain ⟨more, grown⟩ := EventsV1State.frames_of_run tail
          have here := safe state.frames frame more (by
            rw [grown, one, List.append_assoc, List.singleton_append]) none
          rw [← one] at here
          exact ((reached past _ state rfl front).safeCursor_iff taken one none).mp here
  · intro met
    refine run.invariant_of_history (motive := fun _ state =>
      CursorsSafe afterSeqId (publishedIn (before ++ streamSteps history)) state.frames) ?_ ?_
    · intro earlier frame later none
      simp [EventsV1State.start] at none
    · intro past state next label rest whole front safe taken
      rcases taken.frames with unchanged | ⟨frame, one⟩
      · rw [unchanged]
        exact safe
      · intro earlier other later split queryAfter
        rw [one] at split
        rcases split_append_singleton split with ⟨rfl, rfl, rfl⟩ | ⟨init, rfl, shorter⟩
        · rw [← one]
          exact ((reached past _ state whole front).safeCursor_iff taken one queryAfter).mpr
            (met past label rest state whole front)
        · exact safe earlier other init shorter queryAfter

end Runs

instance (afterSeqId : UInt64) (capacity : Nat) (pushed : List DashboardStreamBroadcastEvent)
    (state : EventsV1State) : (label : EventsV1Step) →
      Decidable (state.Meets afterSeqId capacity pushed label)
  | .deliverInitial => inferInstanceAs (Decidable ((∃ frame ∈ state.frames, frame.event = "reset") ∨
      (∃ event ∈ state.pending.head?, event.isReset) ∨
        fresh afterSeqId (lastOf capacity pushed) = fresh afterSeqId pushed))
  | .receive => inferInstanceAs (Decidable ((∃ frame ∈ state.frames, frame.event = "reset") ∨
      (∃ event ∈ state.queue.head?, event.isReset) ∨
        fresh afterSeqId (lastOf capacity pushed) = fresh afterSeqId pushed))
  | .deliverKeepalive => inferInstanceAs (Decidable (
      (∃ frame ∈ state.frames, frame.event = "reset") ∨
        fresh afterSeqId (lastOf capacity pushed) = fresh afterSeqId pushed ∧
          ∀ event ∈ state.queue ++ state.stream.publish.inFlight.2 ++
            state.stream.publish.inFlight.1, event.seqId ≤ afterSeqId))
  | .publisher _ | .lag | .deliverReset | .timeout => isTrue trivial

/-- The deltas of two ticks, with a transaction before each. -/
def twoTicks : List ProducerStep :=
  [.append (decodedEvent 1 10), .tick noLookups, .append (decodedEvent 2 11), .tick noLookups]

/-- Two deltas a producer published. -/
def twoDeltas : List DashboardStreamBroadcastEvent :=
  (ProducerState.after {} twoTicks).published.map .delta

/-- The steps in which some events are published. -/
def publications (events : List DashboardStreamBroadcastEvent) : List StreamStep :=
  events.flatMap fun event => [.advanceLatest event, .pushReplay event, .send event]

/-- A subscription once the first delta is published, with the service's capacity. -/
def subscription : List StreamStep :=
  publications (twoDeltas.take 1) ++ [.copyReplay, .readLatest, .createReceiver]

/-- The loop after some steps, where they are possible. -/
def EventsV1State.after (afterSeqId : UInt64) (history : List EventsV1Step) : EventsV1State :=
  (history.foldlM (EventsV1State.step afterSeqId 256)
    (.start (stateAfter afterSeqId subscription))).getD
      (.start (stateAfter afterSeqId subscription))

/-- A keepalive between two publications, and one while the second delta is in flight. -/
def keepaliveBetween : List EventsV1Step :=
  [.deliverInitial, .timeout, .deliverKeepalive] ++
    (publications (twoDeltas.drop 1)).map .publisher ++ [.receive]

/-- A keepalive is under way while the second delta is published. -/
def keepaliveInFlight : List EventsV1Step :=
  .timeout :: (twoDeltas.drop 1).map (fun event => .publisher (.advanceLatest event)) ++
    [.deliverKeepalive]

theorem keepaliveBetween_safe :
    CursorsSafe 0 (publishedIn (publications (twoDeltas.take 1) ++ streamSteps keepaliveBetween))
      (EventsV1State.after 0 keepaliveBetween).frames := by
  have subscribing : Run (StreamState.Takes 0) (.start 256) subscription
      (stateAfter 0 subscription) := StreamState.run_of_exec (by decide +kernel)
  have run : Run (EventsV1State.Takes 0 256) (.start (stateAfter 0 subscription)) keepaliveBetween
      (EventsV1State.after 0 keepaliveBetween) := Run.of_foldlM (by decide +kernel)
  refine (cursorsSafe_iff subscribing (by decide +kernel) run
    ⟨{}, twoTicks, _, ProducerState.run_after (by decide +kernel), by decide +kernel⟩).mpr ?_
  have met : Run.Along (EventsV1State.step 0 256)
      (fun state label => state.Meets 0 256 (pushedIn (publications (twoDeltas.take 1))) label)
      (.start (stateAfter 0 subscription)) keepaliveBetween := by decide +kernel
  exact fun past label rest state whole front => met.at whole front

/-- The watermark is ahead of the receiver: the id of the keepalive stands for a delta that has not
been delivered. -/
theorem keepaliveInFlight_unsafe :
    Run (StreamState.Takes 1) (.start 256) subscription (stateAfter 1 subscription) ∧
      (stateAfter 1 subscription).publish = .idle ∧
      Run (EventsV1State.Takes 1 256) (.start (stateAfter 1 subscription)) keepaliveInFlight
        (EventsV1State.after 1 keepaliveInFlight) ∧
      Produced (publishedIn (publications (twoDeltas.take 1) ++ streamSteps keepaliveInFlight)) ∧
      ¬ CursorsSafe 1
        (publishedIn (publications (twoDeltas.take 1) ++ streamSteps keepaliveInFlight))
        (EventsV1State.after 1 keepaliveInFlight).frames := by
  refine ⟨StreamState.run_of_exec (by decide +kernel), by decide +kernel,
    Run.of_foldlM (by decide +kernel),
    ⟨{}, twoTicks, _, ProducerState.run_after (by decide +kernel), by decide +kernel⟩, ?_⟩
  intro safe
  have frames : (EventsV1State.after 1 keepaliveInFlight).frames =
      [buildDashboardEventsV1KeepaliveFrame 2] := by decide +kernel
  rw [frames] at safe
  have here := safe [] (buildDashboardEventsV1KeepaliveFrame 2) [] rfl none
  rw [buildDashboardEventsV1KeepaliveFrame, resolveDashboardEventsV1After_toString] at here
  rcases here with ⟨frame, member, reset⟩ | upTo
  · cases List.mem_singleton.mp member
    exact absurd reset (by decide)
  · have missed : ∃ event ∈
        publishedIn (publications (twoDeltas.take 1) ++ streamSteps keepaliveInFlight),
          1 < event.seqId ∧ event.seqId ≤ 2 := by decide +kernel
    obtain ⟨event, member, after, before⟩ := missed
    obtain ⟨frame, listed, dispatch, delta, -⟩ := upTo event member after before
    cases List.mem_singleton.mp listed
    cases delta

end Mempulse.Dashboard
