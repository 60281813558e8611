import Mempulse.Dashboard.Dispatch
import Mempulse.Library.Runs

/-!
# Broadcast and replay

The broadcaster keeps the last deltas in a replay buffer and sends every delta to the receivers
that exist. A publisher advances the watermark, pushes to the buffer and sends, in three steps; a
subscriber copies the buffer, reads the watermark and creates its receiver, in three more. The
copy and the receiver speak of different moments, so a delta in flight between them can be in
neither or in both.
-/

set_option autoImplicit false

namespace Mempulse.Dashboard

open Library

/-! ## The broadcaster -/

/-- Event published onto the dashboard stream. -/
inductive DashboardStreamBroadcastEvent where
  | delta (dispatch : StreamV2Dispatch)
  | reset (reason : String) (latestSeqId : UInt64)
  deriving DecidableEq

/-- The sequence watermark carried by a broadcast event. -/
def DashboardStreamBroadcastEvent.seqId : DashboardStreamBroadcastEvent → UInt64
  | .delta dispatch => max dispatch.seq dispatch.watermark.latestIngestSeq
  | .reset _ latestSeqId => latestSeqId

/-- Broadcast channel with a bounded replay buffer for late subscribers. The channel is the list of
events sent on it; a receiver is the number of events sent before it was created, and it yields the
later ones. -/
structure DashboardStreamBroadcaster where
  sender : List DashboardStreamBroadcastEvent := []
  replay : List DashboardStreamBroadcastEvent := []
  replayCapacity : Nat
  latestSeqId : UInt64 := 0
  deriving DecidableEq

namespace DashboardStreamBroadcaster

/-- Creates a broadcaster with a normalized replay capacity. -/
def new (replayCapacity : Nat) : DashboardStreamBroadcaster where
  replayCapacity := max replayCapacity 1

/-- `self.latest_seq_id.fetch_max(seq_id)`. -/
def advanceLatest (broadcaster : DashboardStreamBroadcaster) (event : DashboardStreamBroadcastEvent) :
    DashboardStreamBroadcaster :=
  { broadcaster with latestSeqId := max broadcaster.latestSeqId event.seqId }

/-- Pushes an event into the replay buffer, whose oldest one makes room. -/
def pushReplay (broadcaster : DashboardStreamBroadcaster) (event : DashboardStreamBroadcastEvent) :
    DashboardStreamBroadcaster :=
  let replay :=
    if broadcaster.replayCapacity ≤ broadcaster.replay.length then broadcaster.replay.drop 1
    else broadcaster.replay
  { broadcaster with replay := replay ++ [event] }

/-- `self.sender.send(event)`. -/
def send (broadcaster : DashboardStreamBroadcaster) (event : DashboardStreamBroadcastEvent) :
    DashboardStreamBroadcaster :=
  { broadcaster with sender := broadcaster.sender ++ [event] }

/-- Whether the first event of a buffer leaves out events after the cursor. -/
def hasGap (afterSeqId : UInt64) (first : DashboardStreamBroadcastEvent) : Bool :=
  0 < afterSeqId ∧ saturatingAdd u64Max afterSeqId.toNat 1 < first.seqId.toNat

/-- The initial events of `subscribe_from`, of its copy of the buffer and the watermark it read. -/
def initialEvents (afterSeqId : UInt64) (replaySnapshot : List DashboardStreamBroadcastEvent)
    (latestSeqId : UInt64) : List DashboardStreamBroadcastEvent :=
  match replaySnapshot with
  | [] => []
  | first :: rest =>
    if hasGap afterSeqId first then [.reset "gap" (max latestSeqId first.seqId)]
    else (first :: rest).filter fun event => afterSeqId < event.seqId

end DashboardStreamBroadcaster

open DashboardStreamBroadcaster (initialEvents hasGap)

/-! ## Interleaved steps -/

/-- Where the publisher is in `publish_event`. -/
inductive PublishStage where
  | idle
  | advanced (event : DashboardStreamBroadcastEvent)
  | pushed (event : DashboardStreamBroadcastEvent)
  deriving DecidableEq

/-- Where the subscriber is in `subscribe_from`. -/
inductive SubscribeStage where
  | starting
  | copied (replaySnapshot : List DashboardStreamBroadcastEvent)
  | read (replaySnapshot : List DashboardStreamBroadcastEvent) (latestSeqId : UInt64)
  | subscribed (initial : List DashboardStreamBroadcastEvent) (receiver : Nat)
  deriving DecidableEq

/-- The broadcaster with where the publisher and the subscriber stand. -/
structure StreamState where
  broadcaster : DashboardStreamBroadcaster
  publish : PublishStage := .idle
  subscribe : SubscribeStage := .starting
  deriving DecidableEq

/-- One step of the publisher or of the subscriber. -/
inductive StreamStep where
  | advanceLatest (event : DashboardStreamBroadcastEvent)
  | pushReplay (event : DashboardStreamBroadcastEvent)
  | send (event : DashboardStreamBroadcastEvent)
  | copyReplay
  | readLatest
  | createReceiver
  deriving DecidableEq

/-- The effect of a step, where it is the next one of its side. Only deltas are published. -/
def StreamState.step (afterSeqId : UInt64) (state : StreamState) : StreamStep → Option StreamState
  | .advanceLatest event =>
    match state.publish, event with
    | .idle, .delta dispatch =>
      some { state with
        broadcaster := state.broadcaster.advanceLatest (.delta dispatch)
        publish := .advanced (.delta dispatch) }
    | _, _ => none
  | .pushReplay event =>
    if state.publish = .advanced event then
      some { state with
        broadcaster := state.broadcaster.pushReplay event
        publish := .pushed event }
    else none
  | .send event =>
    if state.publish = .pushed event then
      some { state with broadcaster := state.broadcaster.send event, publish := .idle }
    else none
  | .copyReplay =>
    match state.subscribe with
    | .starting => some { state with subscribe := .copied state.broadcaster.replay }
    | _ => none
  | .readLatest =>
    match state.subscribe with
    | .copied replaySnapshot =>
      some { state with subscribe := .read replaySnapshot state.broadcaster.latestSeqId }
    | _ => none
  | .createReceiver =>
    match state.subscribe with
    | .read replaySnapshot latestSeqId =>
      some { state with
        subscribe := .subscribed (initialEvents afterSeqId replaySnapshot latestSeqId)
          state.broadcaster.sender.length }
    | _ => none

/-- The step is the next one of its side. -/
def StreamState.Takes (afterSeqId : UInt64) (state : StreamState) (step : StreamStep)
    (next : StreamState) : Prop :=
  state.step afterSeqId step = some next

/-- A new broadcaster, before any publication and with the subscriber about to start. -/
def StreamState.start (replayCapacity : Nat) : StreamState where
  broadcaster := .new replayCapacity

/-! ## What was published, pushed and sent -/

/-- The events a history published. -/
def publishedIn (history : List StreamStep) : List DashboardStreamBroadcastEvent :=
  history.filterMap fun step => match step with
    | .advanceLatest event => some event
    | _ => none

/-- The events a history put into the replay buffer. -/
def pushedIn (history : List StreamStep) : List DashboardStreamBroadcastEvent :=
  history.filterMap fun step => match step with
    | .pushReplay event => some event
    | _ => none

/-- The events a history sent to the receivers. -/
def sentIn (history : List StreamStep) : List DashboardStreamBroadcastEvent :=
  history.filterMap fun step => match step with
    | .send event => some event
    | _ => none

/-- The last events of a list, as many as the buffer holds. -/
def lastOf (capacity : Nat) (events : List DashboardStreamBroadcastEvent) :
    List DashboardStreamBroadcastEvent :=
  events.drop (events.length - capacity)

/-- The events after a cursor. -/
def fresh (afterSeqId : UInt64) (events : List DashboardStreamBroadcastEvent) :
    List DashboardStreamBroadcastEvent :=
  events.filter fun event => afterSeqId < event.seqId

theorem fresh_append (afterSeqId : UInt64) (first second : List DashboardStreamBroadcastEvent) :
    fresh afterSeqId (first ++ second) = fresh afterSeqId first ++ fresh afterSeqId second :=
  List.filter_append ..

/-- What one step adds to the events published, pushed and sent. -/
def StreamStep.events : StreamStep → List DashboardStreamBroadcastEvent ×
    List DashboardStreamBroadcastEvent × List DashboardStreamBroadcastEvent
  | .advanceLatest event => ([event], [], [])
  | .pushReplay event => ([], [event], [])
  | .send event => ([], [], [event])
  | .copyReplay | .readLatest | .createReceiver => ([], [], [])

theorem sentIn_concat (history : List StreamStep) (step : StreamStep) :
    sentIn (history ++ [step]) = sentIn history ++ step.events.2.2 := by
  rw [sentIn, List.filterMap_append]
  cases step <;> rfl

theorem pushedIn_concat (history : List StreamStep) (step : StreamStep) :
    pushedIn (history ++ [step]) = pushedIn history ++ step.events.2.1 := by
  rw [pushedIn, List.filterMap_append]
  cases step <;> rfl

theorem publishedIn_concat (history : List StreamStep) (step : StreamStep) :
    publishedIn (history ++ [step]) = publishedIn history ++ step.events.1 := by
  rw [publishedIn, List.filterMap_append]
  cases step <;> rfl

@[simp] theorem sentIn_append (earlier later : List StreamStep) :
    sentIn (earlier ++ later) = sentIn earlier ++ sentIn later :=
  List.filterMap_append

@[simp] theorem pushedIn_append (earlier later : List StreamStep) :
    pushedIn (earlier ++ later) = pushedIn earlier ++ pushedIn later :=
  List.filterMap_append

@[simp] theorem publishedIn_append (earlier later : List StreamStep) :
    publishedIn (earlier ++ later) = publishedIn earlier ++ publishedIn later :=
  List.filterMap_append

/-- A full buffer gives up its oldest event. -/
theorem lastOf_concat {capacity : Nat} (positive : 0 < capacity)
    (events : List DashboardStreamBroadcastEvent) (event : DashboardStreamBroadcastEvent) :
    lastOf capacity (events ++ [event]) =
      (if capacity ≤ (lastOf capacity events).length then (lastOf capacity events).drop 1
        else lastOf capacity events) ++ [event] := by
  have length : (lastOf capacity events).length = min capacity events.length := by
    rw [lastOf, List.length_drop]
    omega
  have within : events.length + 1 - capacity ≤ events.length := by omega
  rw [length, lastOf, List.length_append, List.length_singleton, List.drop_append_of_le_length within]
  split
  case isTrue full =>
    rw [lastOf, List.drop_drop]
    congr 2
    omega
  case isFalse room =>
    rw [lastOf]
    congr 2
    omega

/-! ## What a run keeps -/

/-- The events in flight in `publish_event`: published and not pushed, and pushed and not sent. -/
def PublishStage.inFlight : PublishStage →
    List DashboardStreamBroadcastEvent × List DashboardStreamBroadcastEvent
  | .idle => ([], [])
  | .advanced event => ([event], [])
  | .pushed event => ([], [event])

/-- The broadcaster holds what was pushed and sent, and only the event in flight is behind. -/
structure Recorded (capacity : Nat) (history : List StreamStep) (state : StreamState) : Prop where
  bounded : state.broadcaster.replayCapacity = capacity
  replay : state.broadcaster.replay = lastOf capacity (pushedIn history)
  sender : state.broadcaster.sender = sentIn history
  published : publishedIn history = pushedIn history ++ state.publish.inFlight.1
  pushed : pushedIn history = sentIn history ++ state.publish.inFlight.2
  deltas : ∀ event ∈ publishedIn history, ∃ dispatch, event = .delta dispatch

/-- The steps of the subscriber leave the publisher's side alone. -/
theorem Recorded.subscribe {capacity : Nat} {history : List StreamStep} {state : StreamState}
    (recorded : Recorded capacity history state) (stage : SubscribeStage) {step : StreamStep}
    (quiet : step.events = ([], [], [])) :
    Recorded capacity (history ++ [step]) { state with subscribe := stage } := by
  refine ⟨recorded.bounded, ?_, ?_, ?_, ?_, ?_⟩
  all_goals
    simp only [pushedIn_concat, sentIn_concat, publishedIn_concat, quiet, List.append_nil]
  · exact recorded.replay
  · exact recorded.sender
  · exact recorded.published
  · exact recorded.pushed
  · exact recorded.deltas

/-- **What one step records.** -/
theorem Recorded.step {capacity : Nat} (positive : 0 < capacity) {afterSeqId : UInt64}
    {history : List StreamStep} {state next : StreamState} {step : StreamStep}
    (recorded : Recorded capacity history state) (taken : state.Takes afterSeqId step next) :
    Recorded capacity (history ++ [step]) next := by
  have published := recorded.published
  have pushed := recorded.pushed
  unfold StreamState.Takes StreamState.step at taken
  cases step with
  | advanceLatest event =>
      dsimp only at taken
      split at taken
      case h_1 dispatch idle =>
        cases taken
        rw [idle] at published pushed
        refine ⟨recorded.bounded, ?_, ?_, ?_, ?_, ?_⟩
        · rw [pushedIn_concat, StreamStep.events, List.append_nil]
          exact recorded.replay
        · rw [sentIn_concat, StreamStep.events, List.append_nil]
          exact recorded.sender
        · rw [publishedIn_concat, pushedIn_concat, published]
          simp [StreamStep.events, PublishStage.inFlight]
        · rw [pushedIn_concat, sentIn_concat, pushed]
          simp [StreamStep.events, PublishStage.inFlight]
        · intro event member
          rw [publishedIn_concat, List.mem_append] at member
          rcases member with before | now
          · exact recorded.deltas event before
          · exact ⟨dispatch, List.mem_singleton.mp now⟩
      case h_2 => cases taken
  | pushReplay event =>
      dsimp only at taken
      split at taken
      case isTrue advanced =>
        cases taken
        rw [advanced] at published pushed
        refine ⟨recorded.bounded, ?_, ?_, ?_, ?_, ?_⟩
        · rw [pushedIn_concat, StreamStep.events, lastOf_concat positive,
            DashboardStreamBroadcaster.pushReplay, recorded.replay, recorded.bounded]
        · rw [sentIn_concat, StreamStep.events, List.append_nil]
          exact recorded.sender
        · rw [publishedIn_concat, pushedIn_concat, published]
          simp [StreamStep.events, PublishStage.inFlight]
        · rw [pushedIn_concat, sentIn_concat, pushed]
          simp [StreamStep.events, PublishStage.inFlight]
        · rw [publishedIn_concat, StreamStep.events, List.append_nil]
          exact recorded.deltas
      case isFalse => cases taken
  | send event =>
      dsimp only at taken
      split at taken
      case isTrue waiting =>
        cases taken
        rw [waiting] at published pushed
        refine ⟨recorded.bounded, ?_, ?_, ?_, ?_, ?_⟩
        · rw [pushedIn_concat, StreamStep.events, List.append_nil]
          exact recorded.replay
        · rw [sentIn_concat, ← recorded.sender]
          rfl
        · rw [publishedIn_concat, pushedIn_concat, published]
          simp [StreamStep.events, PublishStage.inFlight]
        · rw [pushedIn_concat, sentIn_concat, pushed]
          simp [StreamStep.events, PublishStage.inFlight]
        · rw [publishedIn_concat, StreamStep.events, List.append_nil]
          exact recorded.deltas
      case isFalse => cases taken
  | copyReplay =>
      dsimp only at taken
      split at taken
      · cases taken
        exact recorded.subscribe _ rfl
      · cases taken
  | readLatest =>
      dsimp only at taken
      split at taken
      · cases taken
        exact recorded.subscribe _ rfl
      · cases taken
  | createReceiver =>
      dsimp only at taken
      split at taken
      · cases taken
        exact recorded.subscribe _ rfl
      · cases taken

theorem Recorded.start (capacity : Nat) :
    Recorded (max capacity 1) [] (StreamState.start capacity) where
  bounded := rfl
  replay := List.drop_nil.symm
  sender := rfl
  published := rfl
  pushed := rfl
  deltas := by simp [publishedIn]

theorem Recorded.run {capacity : Nat} {afterSeqId : UInt64} {history : List StreamStep}
    {last : StreamState}
    (run : Run (StreamState.Takes afterSeqId) (StreamState.start capacity) history last) :
    Recorded (max capacity 1) history last :=
  run.invariant (motive := Recorded (max capacity 1)) (.start capacity)
    fun _ recorded taken => recorded.step (lt_max_of_lt_right Nat.one_pos) taken

/-! ## The subscriber -/

/-- The subscriber works with the copy it made. -/
def SubscribeStage.WorksWith (replaySnapshot : List DashboardStreamBroadcastEvent) :
    SubscribeStage → Prop
  | .starting => False
  | .copied copy | .read copy _ => copy = replaySnapshot
  | .subscribed _ _ => True

section Subscriber

variable {afterSeqId : UInt64} {state next : StreamState} {label : StreamStep}

theorem SubscribeStage.WorksWith.step {replaySnapshot : List DashboardStreamBroadcastEvent}
    (works : state.subscribe.WorksWith replaySnapshot) (taken : state.Takes afterSeqId label next) :
    next.subscribe.WorksWith replaySnapshot := by
  unfold StreamState.Takes StreamState.step at taken
  cases label with
  | advanceLatest event | pushReplay event | send event =>
      dsimp only at taken
      split at taken
      · cases taken
        exact works
      · cases taken
  | copyReplay =>
      dsimp only at taken
      split at taken
      case h_1 starting =>
        rw [starting] at works
        exact works.elim
      case h_2 => cases taken
  | readLatest =>
      dsimp only at taken
      split at taken
      case h_1 copied =>
        cases taken
        rw [copied] at works
        exact works
      case h_2 => cases taken
  | createReceiver =>
      dsimp only at taken
      split at taken
      · cases taken
        trivial
      · cases taken

/-- The receiver starts where the channel is, with the initial events of the copy. -/
theorem SubscribeStage.WorksWith.createReceiver
    {replaySnapshot : List DashboardStreamBroadcastEvent}
    (works : state.subscribe.WorksWith replaySnapshot)
    (taken : state.Takes afterSeqId .createReceiver next) :
    ∃ latestSeqId, next.subscribe = .subscribed
      (initialEvents afterSeqId replaySnapshot latestSeqId) state.broadcaster.sender.length := by
  unfold StreamState.Takes StreamState.step at taken
  dsimp only at taken
  split at taken
  case h_1 copy latestSeqId read =>
    cases taken
    rw [read] at works
    cases works
    exact ⟨latestSeqId, rfl⟩
  case h_2 => cases taken

/-- A subscription stays. -/
theorem StreamState.Takes.subscribed {initial : List DashboardStreamBroadcastEvent}
    {receiver : Nat} (done : state.subscribe = .subscribed initial receiver)
    (taken : state.Takes afterSeqId label next) :
    next.subscribe = .subscribed initial receiver := by
  unfold StreamState.Takes StreamState.step at taken
  cases label with
  | advanceLatest event | pushReplay event | send event =>
      dsimp only at taken
      split at taken
      · cases taken
        exact done
      · cases taken
  | copyReplay | readLatest | createReceiver =>
      rw [done] at taken
      cases taken

theorem StreamState.Takes.copyReplay (taken : state.Takes afterSeqId .copyReplay next) :
    next.subscribe = .copied state.broadcaster.replay := by
  unfold StreamState.Takes StreamState.step at taken
  dsimp only at taken
  split at taken
  · cases taken
    rfl
  · cases taken

end Subscriber

section Runs

variable {afterSeqId : UInt64} {first last : StreamState} {history : List StreamStep}

theorem SubscribeStage.WorksWith.run {replaySnapshot : List DashboardStreamBroadcastEvent}
    (works : first.subscribe.WorksWith replaySnapshot)
    (run : Run (StreamState.Takes afterSeqId) first history last) :
    last.subscribe.WorksWith replaySnapshot :=
  run.invariant (motive := fun _ state => state.subscribe.WorksWith replaySnapshot) works
    fun _ works taken => works.step taken

theorem StreamState.subscribed_run {initial : List DashboardStreamBroadcastEvent} {receiver : Nat}
    (done : first.subscribe = .subscribed initial receiver)
    (run : Run (StreamState.Takes afterSeqId) first history last) :
    last.subscribe = .subscribed initial receiver :=
  run.invariant (motive := fun _ state => state.subscribe = .subscribed initial receiver) done
    fun _ done taken => StreamState.Takes.subscribed done taken

/-- What a subscriber gets: the initial events of the buffer at its copy, and what is sent once it
has its receiver. -/
theorem subscription_of_run {capacity : Nat} {before between later : List StreamStep}
    (run : Run (StreamState.Takes afterSeqId) (StreamState.start capacity)
      (before ++ .copyReplay :: (between ++ .createReceiver :: later)) last) :
    ∃ latestSeqId, last.subscribe = .subscribed
      (initialEvents afterSeqId (lastOf (max capacity 1) (pushedIn before)) latestSeqId)
      (sentIn before ++ sentIn between).length := by
  obtain ⟨copying, front, rest⟩ := run.split
  cases rest with
  | @cons _ copied _ _ _ copy rest =>
      obtain ⟨creating, middle, rest⟩ := rest.split
      cases rest with
      | @cons _ created _ _ _ create tail =>
          have works : copied.subscribe.WorksWith (lastOf (max capacity 1) (pushedIn before)) := by
            rw [copy.copyReplay, (Recorded.run front).replay]
            rfl
          obtain ⟨latestSeqId, done⟩ := (works.run middle).createReceiver create
          refine ⟨latestSeqId, ?_⟩
          have sender := (Recorded.run (front.append (.cons copy middle))).sender
          rw [sentIn_append] at sender
          rw [StreamState.subscribed_run done tail, sender]
          rfl

end Runs

/-! ## Loss and duplication -/

/-- The initial events of a subscription. -/
def StreamState.initial (state : StreamState) : List DashboardStreamBroadcastEvent :=
  match state.subscribe with
  | .subscribed initial _ => initial
  | _ => []

/-- What the receiver yields, channel lag aside. -/
def StreamState.received (state : StreamState) : List DashboardStreamBroadcastEvent :=
  match state.subscribe with
  | .subscribed _ receiver => state.broadcaster.sender.drop receiver
  | _ => []

/-- **The subscriber loses and duplicates nothing.** It gets a reset first, or every published event
after its cursor exactly once and in order. -/
def StreamState.DeliversOnce (state : StreamState) (afterSeqId : UInt64)
    (published : List DashboardStreamBroadcastEvent) : Prop :=
  (∃ reason latestSeqId rest, state.initial = .reset reason latestSeqId :: rest) ∨
    fresh afterSeqId (state.initial ++ state.received) = fresh afterSeqId published

/-- The buffer starts above the event after the cursor. -/
def GapAt (afterSeqId : UInt64) (replaySnapshot : List DashboardStreamBroadcastEvent) : Prop :=
  ∃ first, replaySnapshot.head? = some first ∧ hasGap afterSeqId first = true

/-- A buffer without a gap holds every event after the cursor. -/
theorem fresh_lastOf {afterSeqId : UInt64} (resuming : 0 < afterSeqId) {capacity : Nat}
    (positive : 0 < capacity) {events : List DashboardStreamBroadcastEvent}
    (increasing : events.Pairwise fun earlier later => earlier.seqId < later.seqId)
    (noGap : ¬ GapAt afterSeqId (lastOf capacity events)) :
    fresh afterSeqId (lastOf capacity events) = fresh afterSeqId events := by
  have split := List.take_append_drop (events.length - capacity) events
  have gone : fresh afterSeqId (events.take (events.length - capacity)) = [] := by
    refine List.filter_eq_nil_iff.mpr fun event evicted => ?_
    match kept : lastOf capacity events with
    | [] =>
        have short : events.length ≤ events.length - capacity := List.drop_eq_nil_iff.mp kept
        have length : events.length = 0 := by omega
        rw [List.length_eq_zero_iff.mp length, List.take_nil] at evicted
        cases evicted
    | oldest :: rest =>
        have below : event.seqId < oldest.seqId := by
          rw [← split] at increasing
          have listed : oldest ∈ lastOf capacity events := by rw [kept]; exact List.mem_cons_self
          exact (List.pairwise_append.mp increasing).2.2 event evicted oldest listed
        rw [kept] at noGap
        have near : ¬ hasGap afterSeqId oldest = true := fun gap => noGap ⟨oldest, rfl, gap⟩
        rw [hasGap, decide_eq_true_eq, not_and] at near
        have reached := near resuming
        have order := UInt64.lt_iff_toNat_lt.mp below
        rw [decide_eq_true_eq, UInt64.lt_iff_toNat_lt]
        unfold saturatingAdd at reached
        omega
  conv_rhs => rw [← split, fresh_append, gone, List.nil_append]
  rfl

/-- The initial events are a reset, or the buffered events after the cursor. -/
theorem initialEvents_cases (afterSeqId latestSeqId : UInt64)
    (replaySnapshot : List DashboardStreamBroadcastEvent) :
    (GapAt afterSeqId replaySnapshot ∧ ∃ reason latest,
        initialEvents afterSeqId replaySnapshot latestSeqId = [.reset reason latest]) ∨
      (¬ GapAt afterSeqId replaySnapshot ∧
        initialEvents afterSeqId replaySnapshot latestSeqId = fresh afterSeqId replaySnapshot) := by
  cases replaySnapshot with
  | nil => exact .inr ⟨(fun ⟨_, absent, _⟩ => nomatch absent), rfl⟩
  | cons first rest =>
      rw [initialEvents]
      by_cases gap : hasGap afterSeqId first = true
      · rw [if_pos gap]
        exact .inl ⟨⟨first, rfl, gap⟩, _, _, rfl⟩
      · rw [if_neg gap]
        refine .inr ⟨?_, rfl⟩
        rintro ⟨other, same, gapped⟩
        cases same
        exact gap gapped

/-- **When a subscription loses and duplicates nothing.** In every interleaving of publications with
strictly increasing sequence ids and a subscription, it does exactly when the buffer copied starts
above the event after the cursor, so that the subscriber is reset, or the events after the cursor
pushed before the copy are those sent before the receiver is created. -/
theorem subscription_deliversOnce_iff {capacity : Nat} {afterSeqId : UInt64}
    (resuming : 0 < afterSeqId) {before between later : List StreamStep} {last : StreamState}
    (run : Run (StreamState.Takes afterSeqId) (StreamState.start capacity)
      (before ++ .copyReplay :: (between ++ .createReceiver :: later)) last)
    (finished : last.publish = .idle)
    (increasing : (publishedIn (before ++ .copyReplay :: (between ++ .createReceiver :: later))).Pairwise
      fun earlier later => earlier.seqId < later.seqId) :
    last.DeliversOnce afterSeqId
        (publishedIn (before ++ .copyReplay :: (between ++ .createReceiver :: later))) ↔
      GapAt afterSeqId (lastOf (max capacity 1) (pushedIn before)) ∨
        fresh afterSeqId (pushedIn before) = fresh afterSeqId (sentIn before ++ sentIn between) := by
  obtain ⟨latestSeqId, done⟩ := subscription_of_run run
  have recorded := Recorded.run run
  have published := recorded.published
  have pushed := recorded.pushed
  rw [finished] at published pushed
  dsimp only [PublishStage.inFlight] at published pushed
  rw [List.append_nil] at published pushed
  have sent : sentIn (before ++ .copyReplay :: (between ++ .createReceiver :: later)) =
      (sentIn before ++ sentIn between) ++ sentIn later := by
    rw [sentIn_append, List.append_assoc]
    congr 1
    exact sentIn_append between (.createReceiver :: later)
  have initial : last.initial = initialEvents afterSeqId
      (lastOf (max capacity 1) (pushedIn before)) latestSeqId := by
    rw [StreamState.initial, done]
  have received : last.received = sentIn later := by
    rw [StreamState.received, done]
    dsimp only
    rw [recorded.sender, sent, List.drop_left]
  have bufferOrder : (pushedIn before).Pairwise fun earlier later => earlier.seqId < later.seqId := by
    rw [published, pushedIn_append] at increasing
    exact (List.pairwise_append.mp increasing).1
  rw [StreamState.DeliversOnce, initial, received, published, pushed, sent]
  rcases initialEvents_cases afterSeqId latestSeqId (lastOf (max capacity 1) (pushedIn before)) with
    ⟨gap, reason, latest, reset⟩ | ⟨noGap, buffered⟩
  · rw [reset]
    exact ⟨fun _ => .inl gap, fun _ => .inl ⟨reason, latest, [], rfl⟩⟩
  · have noReset : ¬ ∃ reason latest rest,
        fresh afterSeqId (pushedIn before) = .reset reason latest :: rest := by
      rintro ⟨reason, latest, rest, reset⟩
      have listed : DashboardStreamBroadcastEvent.reset reason latest ∈ pushedIn before :=
        List.mem_of_mem_filter (reset ▸ List.mem_cons_self)
      obtain ⟨dispatch, delta⟩ := recorded.deltas (.reset reason latest) (by
        rw [published, pushedIn_append]
        exact List.mem_append_left _ listed)
      cases delta
    have whole := fresh_lastOf resuming (lt_max_of_lt_right Nat.one_pos) bufferOrder noGap
    have filtered : fresh afterSeqId (fresh afterSeqId (pushedIn before)) =
        fresh afterSeqId (pushedIn before) := by simp [fresh]
    rw [buffered, whole, fresh_append, fresh_append _ (sentIn before ++ sentIn between), filtered,
      List.append_left_inj, or_iff_right noReset, or_iff_right noGap]

/-- Takes steps one after another. -/
def StreamState.exec (afterSeqId : UInt64) (state : StreamState) (steps : List StreamStep) :
    Option StreamState :=
  steps.foldlM (StreamState.step afterSeqId) state

theorem StreamState.run_of_exec {afterSeqId : UInt64} {state last : StreamState}
    {steps : List StreamStep} (executed : state.exec afterSeqId steps = some last) :
    Run (StreamState.Takes afterSeqId) state steps last :=
  Run.of_foldlM executed

/-- The dispatch of the crate's tests. -/
def makeDispatch (seq : UInt64) : DashboardStreamBroadcastEvent :=
  .delta
    { op := "DISPATCH", eventType := "DELTA_BATCH", seq := seq, channel := "tx.main", hasGap := false
      patch := { upsert := [], remove := [], featureUpsert := [], opportunityUpsert := [] }
      watermark := { latestIngestSeq := seq }
      marketStats :=
        { totalSignalVolume := 100, totalTxCount := 100, lowRiskCount := 90, mediumRiskCount := 8
          highRiskCount := 2, successRateBps := 9800 } }

/-- The steps of one publication. -/
def publishing (seq : UInt64) : List StreamStep :=
  [.advanceLatest (makeDispatch seq), .pushReplay (makeDispatch seq), .send (makeDispatch seq)]

/-- A subscription between two publications, and one with a publication between the copy and the
receiver. -/
def undisturbedSubscription : List StreamStep :=
  publishing 10 ++ .copyReplay :: ([.readLatest] ++ .createReceiver :: publishing 11)

/-- The event `11` is published between the subscriber's copy and its receiver. -/
def publishedInBetween : List StreamStep :=
  publishing 10 ++ .copyReplay :: ((publishing 11 ++ [.readLatest]) ++ .createReceiver :: [])

/-- The state after some steps of a new broadcaster with the service's capacity. -/
def stateAfter (afterSeqId : UInt64) (steps : List StreamStep) : StreamState :=
  ((StreamState.start 256).exec afterSeqId steps).getD (.start 256)

theorem undisturbedSubscription_deliversOnce :
    (stateAfter 9 undisturbedSubscription).DeliversOnce 9 (publishedIn undisturbedSubscription) := by
  have run : Run (StreamState.Takes 9) (StreamState.start 256) undisturbedSubscription
      (stateAfter 9 undisturbedSubscription) := StreamState.run_of_exec (by decide +kernel)
  exact (subscription_deliversOnce_iff (by decide) run (by decide +kernel) (by decide +kernel)).mpr
    (.inr (by decide +kernel))

theorem publishedInBetween_lost :
    (StreamState.start 256).exec 9 publishedInBetween = some (stateAfter 9 publishedInBetween) ∧
      (stateAfter 9 publishedInBetween).publish = .idle ∧
      ¬ (stateAfter 9 publishedInBetween).DeliversOnce 9 (publishedIn publishedInBetween) := by
  refine ⟨by decide +kernel, by decide +kernel, ?_⟩
  rintro (⟨reason, latestSeqId, rest, reset⟩ | once)
  · have initial : (stateAfter 9 publishedInBetween).initial = [makeDispatch 10] := by decide +kernel
    rw [initial] at reset
    cases reset
  · revert once
    decide +kernel

end Mempulse.Dashboard
