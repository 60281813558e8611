import Mempulse.Dashboard.Broadcast
import Mempulse.Library.Decimal
import Mempulse.Library.TextFiles

/-!
# The event stream of a subscriber

A subscriber's loop turns what it received into frames: first the initial events of its
subscription, then the events of its receiver. When the receiver lags it resets the client, and when
nothing comes it sends a keepalive. Every frame has an id, which a client that reconnects gives as
its cursor. The id of a delta frame is that of the dispatch it delivers, the id of a keepalive the
watermark that the publisher advances before it sends.
-/

set_option autoImplicit false

namespace Mempulse.Dashboard

open Library

/-! ## Cursors -/

/-- The cursor of a client: the id of its last event, or else the one it asks for. -/
def resolveDashboardEventsV1After (lastEventId : Option String) (queryAfter : Option UInt64) :
    UInt64 :=
  ((lastEventId.bind fun value => parseU64 (trim value.toList)).or queryAfter).getD 0

/-- **The id of a frame is a cursor.** -/
@[simp] theorem resolveDashboardEventsV1After_toString (seqId : UInt64)
    (queryAfter : Option UInt64) :
    resolveDashboardEventsV1After (some (toString seqId)) queryAfter = seqId := by
  have text : (toString seqId).toList = Nat.toDigits 10 seqId.toNat := Nat.toList_repr
  have digits : ∀ char ∈ Nat.toDigits 10 seqId.toNat, char.isDigit = true := fun char member =>
    Nat.isDigit_of_mem_toDigits (by decide) (by decide) member
  rw [resolveDashboardEventsV1After, Option.bind_some, text, trim_of_digits digits,
    parseU64_toDigits]
  rfl

/-! ## Frames -/

/-- What the JSON of a frame says. -/
inductive FrameData where
  | dispatch (dispatch : StreamV2Dispatch)
  | reset (reason : String) (latestSeqId : UInt64)
  | heartbeat (op : String) (latestSeqId : UInt64)
  deriving DecidableEq

/-- A frame as the connection sends it. -/
structure DashboardEventsV1Frame where
  id : String
  event : String
  data : FrameData
  deriving DecidableEq

/-- The frame that tells a client to load the snapshot again. -/
def buildDashboardEventsV1ResetFrame (latestSeqId : UInt64) (reason : String) :
    DashboardEventsV1Frame where
  id := toString latestSeqId
  event := "reset"
  data := .reset reason latestSeqId

/-- The frame of a quiet moment; its id is the latest sequence id. -/
def buildDashboardEventsV1KeepaliveFrame (latestSeqId : UInt64) : DashboardEventsV1Frame where
  id := toString latestSeqId
  event := "keepalive"
  data := .heartbeat "HEARTBEAT" latestSeqId

/-- The frame of a dispatch. Serializing a dispatch does not fail. -/
def buildDashboardEventsV1DeltaFrame (dispatch : StreamV2Dispatch) :
    Option DashboardEventsV1Frame :=
  if dispatch.hasGap then
    let latestSeqId := max dispatch.seq dispatch.watermark.latestIngestSeq
    some (buildDashboardEventsV1ResetFrame latestSeqId "gap")
  else some { id := toString dispatch.seq, event := "delta", data := .dispatch dispatch }

/-- The frame of a broadcast event. -/
def buildDashboardEventsV1Frame (event : DashboardStreamBroadcastEvent) : DashboardEventsV1Frame :=
  match event with
  | .delta dispatch =>
    (buildDashboardEventsV1DeltaFrame dispatch).getD
      (buildDashboardEventsV1KeepaliveFrame event.seqId)
  | .reset reason latestSeqId => buildDashboardEventsV1ResetFrame latestSeqId reason

/-- The event resets the client. -/
def DashboardStreamBroadcastEvent.isReset : DashboardStreamBroadcastEvent → Bool
  | .delta dispatch => dispatch.hasGap
  | .reset _ _ => true

theorem buildDashboardEventsV1Frame_of_isReset {event : DashboardStreamBroadcastEvent}
    (reset : event.isReset = true) : (buildDashboardEventsV1Frame event).event = "reset" := by
  cases event with
  | delta dispatch =>
      have gap : dispatch.hasGap = true := reset
      rw [buildDashboardEventsV1Frame, buildDashboardEventsV1DeltaFrame, if_pos gap]
      rfl
  | reset reason latestSeqId => rfl

theorem buildDashboardEventsV1Frame_of_not_isReset {event : DashboardStreamBroadcastEvent}
    (noReset : event.isReset = false) :
    ∃ dispatch, event = .delta dispatch ∧ buildDashboardEventsV1Frame event =
      { id := toString dispatch.seq, event := "delta", data := .dispatch dispatch } := by
  cases event with
  | delta dispatch =>
      refine ⟨dispatch, rfl, ?_⟩
      have noGap : dispatch.hasGap = false := noReset
      rw [buildDashboardEventsV1Frame, buildDashboardEventsV1DeltaFrame,
        if_neg (Bool.eq_false_iff.mp noGap)]
      rfl
  | reset reason latestSeqId => cases noReset

/-! ## The loop -/

/-- Where the loop is: about to look at what it received, or about to read the watermark for a reset
or a keepalive. -/
inductive LoopStage where
  | polling
  | lagged
  | timedOut
  deriving DecidableEq

/-- A subscriber's loop beside the broadcaster it follows, with the frames it has delivered. -/
structure EventsV1State where
  stream : StreamState
  pending : List DashboardStreamBroadcastEvent
  /-- The number of sent events that the receiver has yielded or skipped. -/
  position : Nat
  stage : LoopStage := .polling
  frames : List DashboardEventsV1Frame := []
  deriving DecidableEq

/-- A step of the publisher or of the connection. -/
inductive EventsV1Step where
  | publisher (step : StreamStep)
  | deliverInitial
  | receive
  | lag
  | deliverReset
  | timeout
  | deliverKeepalive
  deriving DecidableEq

/-- Where the receiver starts. -/
def StreamState.receiver (state : StreamState) : Nat :=
  match state.subscribe with
  | .subscribed _ receiver => receiver
  | _ => 0

namespace EventsV1State

/-- The events sent that the receiver has yet to yield. -/
def queue (state : EventsV1State) : List DashboardStreamBroadcastEvent :=
  state.stream.broadcaster.sender.drop state.position

/-- The effect of a step, where it is possible. The channel retains `channelCapacity` events: a
receiver further behind goes on with the oldest of them. -/
def step (afterSeqId : UInt64) (channelCapacity : Nat) (state : EventsV1State) :
    EventsV1Step → Option EventsV1State
  | .publisher label =>
    (state.stream.step afterSeqId label).map fun stream => { state with stream := stream }
  | .deliverInitial =>
    match state.stage, state.pending with
    | .polling, event :: pending =>
      some { state with
        pending := pending, frames := state.frames ++ [buildDashboardEventsV1Frame event] }
    | _, _ => none
  | .receive =>
    match state.stage, state.pending, state.queue with
    | .polling, [], event :: queue =>
      if queue.length < channelCapacity then
        some { state with
          position := state.position + 1
          frames := state.frames ++ [buildDashboardEventsV1Frame event] }
      else none
    | _, _, _ => none
  | .lag =>
    match state.stage, state.pending with
    | .polling, [] =>
      if channelCapacity < state.queue.length then
        some { state with
          position := state.stream.broadcaster.sender.length - channelCapacity
          stage := .lagged }
      else none
    | _, _ => none
  | .deliverReset =>
    match state.stage with
    | .lagged =>
      let frame := buildDashboardEventsV1ResetFrame state.stream.broadcaster.latestSeqId "lag"
      some { state with stage := .polling, frames := state.frames ++ [frame] }
    | _ => none
  | .timeout =>
    match state.stage, state.pending, state.queue with
    | .polling, [], [] => some { state with stage := .timedOut }
    | _, _, _ => none
  | .deliverKeepalive =>
    match state.stage with
    | .timedOut =>
      let frame := buildDashboardEventsV1KeepaliveFrame state.stream.broadcaster.latestSeqId
      some { state with stage := .polling, frames := state.frames ++ [frame] }
    | _ => none

/-- The connection can take the step. -/
def Takes (afterSeqId : UInt64) (channelCapacity : Nat) (state : EventsV1State)
    (label : EventsV1Step) (next : EventsV1State) : Prop :=
  state.step afterSeqId channelCapacity label = some next

/-- The loop of a subscription. -/
def start (stream : StreamState) : EventsV1State where
  stream := stream
  pending := stream.initial
  position := stream.receiver

end EventsV1State

/-- The step of the publisher, if it is one. -/
def EventsV1Step.streamSteps : EventsV1Step → List StreamStep
  | .publisher step => [step]
  | .deliverInitial | .receive | .lag | .deliverReset | .timeout | .deliverKeepalive => []

/-- The steps that a history has of the publisher. -/
def streamSteps (history : List EventsV1Step) : List StreamStep :=
  history.flatMap EventsV1Step.streamSteps

/-! ## What a step does -/

namespace EventsV1State

variable {afterSeqId : UInt64} {channelCapacity : Nat}

/-- What the steps do. -/
inductive Moves (afterSeqId : UInt64) (channelCapacity : Nat) (state : EventsV1State) :
    EventsV1Step → EventsV1State → Prop
  | publisher {step : StreamStep} {stream : StreamState}
      (taken : state.stream.Takes afterSeqId step stream) :
      Moves afterSeqId channelCapacity state (.publisher step) { state with stream := stream }
  | deliverInitial {event : DashboardStreamBroadcastEvent}
      {pending : List DashboardStreamBroadcastEvent} (polling : state.stage = .polling)
      (first : state.pending = event :: pending) :
      Moves afterSeqId channelCapacity state .deliverInitial { state with
        pending := pending, frames := state.frames ++ [buildDashboardEventsV1Frame event] }
  | receive {event : DashboardStreamBroadcastEvent} {queue : List DashboardStreamBroadcastEvent}
      (polling : state.stage = .polling) (finished : state.pending = [])
      (first : state.queue = event :: queue) :
      Moves afterSeqId channelCapacity state .receive { state with
        position := state.position + 1
        frames := state.frames ++ [buildDashboardEventsV1Frame event] }
  | lag (finished : state.pending = []) :
      Moves afterSeqId channelCapacity state .lag { state with
        position := state.stream.broadcaster.sender.length - channelCapacity
        stage := .lagged }
  | deliverReset (lagged : state.stage = .lagged) :
      Moves afterSeqId channelCapacity state .deliverReset { state with
        stage := .polling
        frames := state.frames ++
          [buildDashboardEventsV1ResetFrame state.stream.broadcaster.latestSeqId "lag"] }
  | timeout (polling : state.stage = .polling) (finished : state.pending = []) :
      Moves afterSeqId channelCapacity state .timeout { state with stage := .timedOut }
  | deliverKeepalive (timedOut : state.stage = .timedOut) :
      Moves afterSeqId channelCapacity state .deliverKeepalive { state with
        stage := .polling
        frames := state.frames ++
          [buildDashboardEventsV1KeepaliveFrame state.stream.broadcaster.latestSeqId] }

theorem Takes.moves {state next : EventsV1State} {label : EventsV1Step}
    (taken : state.Takes afterSeqId channelCapacity label next) :
    Moves afterSeqId channelCapacity state label next := by
  unfold Takes step at taken
  cases label with
  | publisher step =>
      obtain ⟨stream, moved, rfl⟩ := Option.map_eq_some_iff.mp taken
      exact .publisher moved
  | deliverInitial =>
      dsimp only at taken
      split at taken
      case h_1 polling first =>
        cases taken
        exact .deliverInitial polling first
      case h_2 => cases taken
  | receive =>
      dsimp only at taken
      split at taken
      case h_1 polling finished first =>
        split at taken <;> cases taken
        exact .receive polling finished first
      case h_2 => cases taken
  | lag =>
      dsimp only at taken
      split at taken
      case h_1 polling finished =>
        split at taken <;> cases taken
        exact .lag finished
      case h_2 => cases taken
  | deliverReset =>
      dsimp only at taken
      split at taken
      case h_1 lagged =>
        cases taken
        exact .deliverReset lagged
      case h_2 => cases taken
  | timeout =>
      dsimp only at taken
      split at taken
      case h_1 polling finished _ =>
        cases taken
        exact .timeout polling finished
      case h_2 => cases taken
  | deliverKeepalive =>
      dsimp only at taken
      split at taken
      case h_1 timedOut =>
        cases taken
        exact .deliverKeepalive timedOut
      case h_2 => cases taken

/-- A run of the loop has a run of the stream beside it. -/
theorem stream_run {first last : EventsV1State} {history : List EventsV1Step}
    (run : Run (Takes afterSeqId channelCapacity) first history last) :
    Run (StreamState.Takes afterSeqId) first.stream (streamSteps history) last.stream := by
  induction run with
  | nil => exact .nil _
  | cons head _ ih =>
      cases head.moves with
      | publisher taken => exact .cons taken ih
      | deliverInitial | receive | lag | deliverReset | timeout | deliverKeepalive => exact ih

/-- A step adds one frame at most. -/
theorem Takes.frames {state next : EventsV1State} {label : EventsV1Step}
    (taken : state.Takes afterSeqId channelCapacity label next) :
    next.frames = state.frames ∨ ∃ frame, next.frames = state.frames ++ [frame] := by
  cases taken.moves with
  | publisher | lag | timeout => exact .inl rfl
  | deliverInitial | receive | deliverReset | deliverKeepalive => exact .inr ⟨_, rfl⟩

theorem frames_of_run {first last : EventsV1State} {history : List EventsV1Step}
    (run : Run (Takes afterSeqId channelCapacity) first history last) :
    ∃ more, last.frames = first.frames ++ more := by
  induction run with
  | nil => exact ⟨[], (List.append_nil _).symm⟩
  | cons head _ ih =>
      obtain ⟨more, grown⟩ := ih
      rcases head.frames with same | ⟨frame, one⟩
      · exact ⟨more, same ▸ grown⟩
      · exact ⟨frame :: more, by rw [grown, one, List.append_assoc, List.singleton_append]⟩

end EventsV1State

end Mempulse.Dashboard
