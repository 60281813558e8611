import Mempulse.Library.Mailbox
import Mempulse.Scheduler.Invariant

/-!
# The scheduler actor

Callers reach the scheduler through cloned handles. A call puts a command on the bounded ingress
queue with `try_send`, records the depth it then sees, and waits for the reply; the actor takes
commands out one at a time, executes them under the write lock and sends the replies back. Other
modules treat a command as one atomic step. This module shows that they may: in every interleaving
of any number of calls with the actor, the executed commands are the accepted ones in the order of
the calls, every reply is the reply of that sequence, and a call that fails has no effect
(`run_linearizable`).
-/

set_option autoImplicit false

namespace Mempulse.Scheduler

open Std Library

/-! ## Calls -/

/-- Failure to enqueue a command onto the scheduler actor. -/
inductive SchedulerEnqueueError where
  | queueFull
  | queueClosed
  deriving DecidableEq

/-- How far a call has come: the stages of `try_send_command`, then of `send_command_with_reply`. -/
inductive CallStage where
  /-- `try_send` returned `Ok`. -/
  | enqueued
  /-- The depth is computed and not yet recorded. -/
  | measured (currentDepth : Nat)
  | awaitingReply
  /-- `try_send` returned `Full`. -/
  | refused
  /-- The refusal is counted and the peak not yet raised. -/
  | counted
  | returned (result : Except SchedulerEnqueueError (Option SchedulerReply))
  deriving DecidableEq

/-- A call of a handle. `outcome` is what `try_send` answered; no later step reads it. Every call
but `try_admit` waits for its reply. -/
structure HandleCall where
  command : SchedulerCommand
  awaitsReply : Bool
  outcome : Mailbox.PostOutcome
  stage : CallStage
  deriving DecidableEq

/-- The stage that the answer of `try_send` leads to. -/
def CallStage.first : Mailbox.PostOutcome → CallStage
  | .accepted => .enqueued
  | .full => .refused
  | .closed => .returned (.error .queueClosed)

/-! ## The actor -/

/-- The ingress queue, the state behind the lock, the shared counters, and the calls made so far,
each at the position of its number. -/
structure SchedulerActor where
  ingress : Mailbox SchedulerState SchedulerCommand SchedulerReply
  queueFullDropTotal : Nat := 0
  queueDepthPeak : Nat := 0
  calls : List HandleCall := []

namespace SchedulerActor

/-- `scheduler_channel_with_state`. -/
def start (state : SchedulerState) : SchedulerActor where
  ingress := { state := state }

/-- `max_capacity().saturating_sub(capacity())`. -/
def queueDepth (config : SchedulerConfig) (actor : SchedulerActor) : Nat :=
  config.handoffQueueCapacity - (config.handoffQueueCapacity - actor.ingress.waiting.length)

/-- The reply sent back to a call. -/
def replyTo (actor : SchedulerActor) (number : Nat) : Option SchedulerReply :=
  (actor.ingress.served.find? fun served => served.number = number).map (·.reply)

/-- The `try_send` of a new call. -/
def call (config : SchedulerConfig) (actor : SchedulerActor) (command : SchedulerCommand)
    (awaitsReply : Bool) : SchedulerActor :=
  let outcome := actor.ingress.postOutcome config.handoffQueueCapacity
  { actor with
    ingress := actor.ingress.post config.handoffQueueCapacity command
    calls := actor.calls ++ [⟨command, awaitsReply, outcome, .first outcome⟩] }

/-- A call comes to a new stage. -/
def setStage (actor : SchedulerActor) (number : Nat) (call : HandleCall) (stage : CallStage) :
    SchedulerActor :=
  { actor with calls := actor.calls.set number { call with stage := stage } }

/-- The next step of a call under way, when it has one. A call that waits for its reply gets it
once the actor has sent it, or learns that the actor dropped its command. -/
def proceed (config : SchedulerConfig) (actor : SchedulerActor) (number : Nat) :
    Option SchedulerActor :=
  (actor.calls[number]?).bind fun call =>
    match call.stage with
    | .enqueued => some (actor.setStage number call (.measured (actor.queueDepth config)))
    | .measured currentDepth =>
      let raised := { actor with queueDepthPeak := max actor.queueDepthPeak currentDepth }
      some (raised.setStage number call
        (if call.awaitsReply then .awaitingReply else .returned (.ok none)))
    | .awaitingReply =>
      match actor.replyTo number with
      | some reply => some (actor.setStage number call (.returned (.ok (some reply))))
      | none =>
        if actor.ingress.closed then
          some (actor.setStage number call (.returned (.error .queueClosed)))
        else none
    | .refused =>
      let dropped :=
        { actor with queueFullDropTotal := (actor.queueFullDropTotal + 1) % (u64Max + 1) }
      some (dropped.setStage number call .counted)
    | .counted =>
      let raised :=
        { actor with queueDepthPeak := max actor.queueDepthPeak config.handoffQueueCapacity }
      some (raised.setStage number call (.returned (.error .queueFull)))
    | .returned _ => none

/-- The steps of the callers and of the actor's loop. `shutDown` drops the `SchedulerRuntime`. -/
inductive Step where
  | call (command : SchedulerCommand) (awaitsReply : Bool)
  | proceed (number : Nat)
  | receive
  | execute
  | shutDown
  deriving DecidableEq

/-- One step, when it is possible. -/
def next (config : SchedulerConfig) (actor : SchedulerActor) : Step → Option SchedulerActor
  | .call command awaitsReply => some (actor.call config command awaitsReply)
  | .proceed number => actor.proceed config number
  | .receive => actor.ingress.take.map fun ingress => { actor with ingress := ingress }
  | .execute =>
    (actor.ingress.handle (SchedulerState.execute config)).map fun ingress =>
      { actor with ingress := ingress }
  | .shutDown => actor.ingress.close.map fun ingress => { actor with ingress := ingress }

/-- Steps in any order. -/
def Takes (config : SchedulerConfig) (actor : SchedulerActor) (step : Step)
    (after : SchedulerActor) : Prop :=
  actor.next config step = some after

/-! ## What a step can do -/

/-- How a call comes from one stage to the next, with the counters after the step. -/
inductive Advances (config : SchedulerConfig) (actor : SchedulerActor) (number : Nat)
    (awaitsReply : Bool) : CallStage → CallStage → Nat → Nat → Prop where
  | measured : Advances config actor number awaitsReply .enqueued
      (.measured (actor.queueDepth config)) actor.queueFullDropTotal actor.queueDepthPeak
  | recorded (currentDepth : Nat) :
      Advances config actor number awaitsReply (.measured currentDepth)
        (if awaitsReply then .awaitingReply else .returned (.ok none)) actor.queueFullDropTotal
        (max actor.queueDepthPeak currentDepth)
  | replied {reply : SchedulerReply} (sent : actor.replyTo number = some reply) :
      Advances config actor number awaitsReply .awaitingReply (.returned (.ok (some reply)))
        actor.queueFullDropTotal actor.queueDepthPeak
  | dropped (unanswered : actor.replyTo number = none) (closed : actor.ingress.closed = true) :
      Advances config actor number awaitsReply .awaitingReply (.returned (.error .queueClosed))
        actor.queueFullDropTotal actor.queueDepthPeak
  | counted : Advances config actor number awaitsReply .refused .counted
      ((actor.queueFullDropTotal + 1) % (u64Max + 1)) actor.queueDepthPeak
  | failed : Advances config actor number awaitsReply .counted (.returned (.error .queueFull))
      actor.queueFullDropTotal (max actor.queueDepthPeak config.handoffQueueCapacity)

section Steps

variable {config : SchedulerConfig} {actor after : SchedulerActor}

/-- **What a call under way can do**: come to its next stage, and raise or count what that stage
says. -/
theorem proceed_cases {number : Nat} (taken : actor.proceed config number = some after) :
    ∃ call stage dropTotal peak, actor.calls[number]? = some call ∧
      Advances config actor number call.awaitsReply call.stage stage dropTotal peak ∧
      after = { actor with
        queueFullDropTotal := dropTotal
        queueDepthPeak := peak
        calls := actor.calls.set number { call with stage := stage } } := by
  obtain ⟨call, held, result⟩ := Option.bind_eq_some_iff.mp taken
  refine ⟨call, ?_⟩
  cases reached : call.stage with
  | enqueued =>
      simp only [reached] at result
      cases result
      exact ⟨_, _, _, held, .measured, rfl⟩
  | measured currentDepth =>
      simp only [reached] at result
      cases result
      exact ⟨_, _, _, held, .recorded currentDepth, rfl⟩
  | awaitingReply =>
      simp only [reached] at result
      split at result
      case h_1 reply sent =>
        cases result
        exact ⟨_, _, _, held, .replied sent, rfl⟩
      case h_2 unanswered =>
        split at result
        case isTrue closed =>
          cases result
          exact ⟨_, _, _, held, .dropped unanswered closed, rfl⟩
        case isFalse => cases result
  | refused =>
      simp only [reached] at result
      cases result
      exact ⟨_, _, _, held, .counted, rfl⟩
  | counted =>
      simp only [reached] at result
      cases result
      exact ⟨_, _, _, held, .failed, rfl⟩
  | returned answer =>
      simp only [reached] at result
      cases result

/-- **What a step can do**: begin a call, advance one, or move the ingress queue alone. -/
theorem next_cases {step : Step} (taken : actor.next config step = some after) :
    (∃ command awaitsReply, step = .call command awaitsReply ∧
        after = actor.call config command awaitsReply) ∨
      (∃ number, step = .proceed number ∧ actor.proceed config number = some after) ∨
      (∃ label ingress, (∀ command, label ≠ .post command) ∧
        actor.ingress.move (SchedulerState.execute config) config.handoffQueueCapacity label =
          some ingress ∧
        after = { actor with ingress := ingress }) := by
  cases step with
  | call command awaitsReply => exact .inl ⟨command, awaitsReply, rfl, (Option.some.inj taken).symm⟩
  | proceed number => exact .inr (.inl ⟨number, rfl, taken⟩)
  | receive =>
      obtain ⟨ingress, moved, result⟩ := Option.map_eq_some_iff.mp taken
      exact .inr (.inr ⟨.take, ingress, fun _ => nofun, moved, result.symm⟩)
  | execute =>
      obtain ⟨ingress, moved, result⟩ := Option.map_eq_some_iff.mp taken
      exact .inr (.inr ⟨.handle, ingress, fun _ => nofun, moved, result.symm⟩)
  | shutDown =>
      obtain ⟨ingress, moved, result⟩ := Option.map_eq_some_iff.mp taken
      exact .inr (.inr ⟨.close, ingress, fun _ => nofun, moved, result.symm⟩)

end Steps

/-! ## Calls and the ingress queue -/

/-- The commands of the calls that `try_send` accepted, with the numbers of the calls. -/
def acceptedCalls (calls : List HandleCall) : List (Mailbox.Posted SchedulerCommand) :=
  ((calls.map fun call => (call.command, call.outcome)).zipIdx).filterMap fun entry =>
    if entry.1.2 = .accepted then some ⟨entry.2, entry.1.1⟩ else none

theorem acceptedCalls_concat (calls : List HandleCall) (call : HandleCall) :
    acceptedCalls (calls ++ [call]) =
      acceptedCalls calls ++
        if call.outcome = .accepted then [⟨calls.length, call.command⟩] else [] := by
  rw [acceptedCalls, List.map_append, List.zipIdx_append, List.filterMap_append]
  congr 1
  by_cases accepted : call.outcome = .accepted
  · simp [accepted]
  · simp [accepted]

/-- A new stage changes nothing that does not read stages. -/
theorem map_setStage {α : Type} {calls : List HandleCall} {number : Nat} {call : HandleCall}
    (held : calls[number]? = some call) (stage : CallStage) (part : HandleCall → α)
    (fixed : part { call with stage := stage } = part call) :
    (calls.set number { call with stage := stage }).map part = calls.map part := by
  obtain ⟨within, value⟩ := List.getElem?_eq_some_iff.mp held
  rw [List.map_set, fixed, ← value, ← List.getElem_map part (h := by simpa using within)]
  exact List.set_getElem_self _

theorem acceptedCalls_setStage {calls : List HandleCall} {number : Nat} {call : HandleCall}
    {stage : CallStage} (held : calls[number]? = some call) :
    acceptedCalls (calls.set number { call with stage := stage }) = acceptedCalls calls := by
  unfold acceptedCalls
  rw [map_setStage held stage (fun call => (call.command, call.outcome)) rfl]

theorem map_message_acceptedCalls (calls : List HandleCall) :
    (acceptedCalls calls).map (·.message) =
      (calls.filter fun call => call.outcome = .accepted).map (·.command) := by
  induction calls using List.reverseRecOn with
  | nil => rfl
  | append_singleton calls call ih =>
      rw [acceptedCalls_concat, List.map_append, List.filter_append, List.map_append, ih]
      by_cases accepted : call.outcome = .accepted
      · simp [accepted]
      · simp [accepted]

theorem mem_acceptedCalls {calls : List HandleCall} {posted : Mailbox.Posted SchedulerCommand} :
    posted ∈ acceptedCalls calls ↔ ∃ call, calls[posted.number]? = some call ∧
      call.command = posted.message ∧ call.outcome = .accepted := by
  constructor
  · intro held
    obtain ⟨⟨⟨command, outcome⟩, number⟩, listed, chosen⟩ := List.mem_filterMap.mp held
    have lookup := List.mem_zipIdx_iff_getElem?.mp listed
    rw [List.getElem?_map] at lookup
    obtain ⟨call, found, parts⟩ := Option.map_eq_some_iff.mp lookup
    cases parts
    split at chosen
    case isTrue accepted =>
      cases chosen
      exact ⟨call, found, rfl, accepted⟩
    case isFalse => cases chosen
  · rintro ⟨call, found, same, accepted⟩
    refine List.mem_filterMap.mpr ⟨((call.command, call.outcome), posted.number), ?_, ?_⟩
    · refine List.mem_zipIdx_iff_getElem?.mpr ?_
      rw [List.getElem?_map, found]
      rfl
    · rw [if_pos accepted, same]

/-- What a call's stage says about the ingress queue. -/
def Fits (box : Mailbox SchedulerState SchedulerCommand SchedulerReply) (number : Nat)
    (call : HandleCall) : Prop :=
  match call.stage with
  | .enqueued | .measured _ | .awaitingReply | .returned (.ok none) => call.outcome = .accepted
  | .refused | .counted | .returned (.error .queueFull) => call.outcome = .full
  | .returned (.error .queueClosed) =>
    call.outcome = .closed ∨
      (box.closed = true ∧ ∀ served ∈ box.served, served.number ≠ number)
  | .returned (.ok (some reply)) => ⟨⟨number, call.command⟩, reply⟩ ∈ box.served

/-- How the calls and the ingress queue stand to each other. -/
structure Consistent (config : SchedulerConfig) (initial : SchedulerState)
    (actor : SchedulerActor) : Prop where
  sequential : actor.ingress.Sequential (SchedulerState.execute config)
    config.handoffQueueCapacity initial
  numbered : actor.calls.length = actor.ingress.posts
  accepted : actor.ingress.accepted = acceptedCalls actor.calls
  fits : ∀ number call, actor.calls[number]? = some call → Fits actor.ingress number call

section Consistency

variable {config : SchedulerConfig} {initial : SchedulerState} {actor after : SchedulerActor}
  {box moved : Mailbox SchedulerState SchedulerCommand SchedulerReply} {number : Nat}
  {current : HandleCall}

/-- What a stage says of the queue stays true while the queue moves on. -/
theorem Fits.move {label : Mailbox.Move SchedulerCommand}
    (sequential : box.Sequential (SchedulerState.execute config) config.handoffQueueCapacity initial)
    (taken : box.move (SchedulerState.execute config) config.handoffQueueCapacity label = some moved)
    (fits : Fits box number current) : Fits moved number current := by
  unfold Fits at fits ⊢
  cases reached : current.stage with
  | enqueued | measured | awaitingReply | refused | counted => simpa only [reached] using fits
  | returned result =>
      rw [reached] at fits
      cases result with
      | ok answer =>
          cases answer with
          | none => exact fits
          | some reply => exact (Mailbox.move_extends taken).1.subset fits
      | error error =>
          cases error with
          | queueFull => exact fits
          | queueClosed =>
              refine fits.imp_right fun dropped => ?_
              obtain ⟨same, closed⟩ := sequential.served_of_closed dropped.1 taken
              exact ⟨closed, same ▸ dropped.2⟩

theorem Consistent.start (config : SchedulerConfig) (initial : SchedulerState) :
    Consistent config initial (.start initial) where
  sequential := .start _ _ initial
  numbered := rfl
  accepted := rfl
  fits _ _ held := nomatch held

/-- A call is a post to the ingress queue. -/
theorem posted_move (config : SchedulerConfig) (actor : SchedulerActor)
    (command : SchedulerCommand) :
    actor.ingress.move (SchedulerState.execute config) config.handoffQueueCapacity (.post command) =
      some (actor.ingress.post config.handoffQueueCapacity command) := rfl

theorem fits_first (box : Mailbox SchedulerState SchedulerCommand SchedulerReply) (number : Nat)
    (command : SchedulerCommand) (awaitsReply : Bool) (outcome : Mailbox.PostOutcome) :
    Fits box number ⟨command, awaitsReply, outcome, .first outcome⟩ := by
  cases outcome with
  | accepted => rfl
  | full => rfl
  | closed => exact .inl rfl

theorem Consistent.call (consistent : Consistent config initial actor) (command : SchedulerCommand)
    (awaitsReply : Bool) : Consistent config initial (actor.call config command awaitsReply) where
  sequential := consistent.sequential.post command
  numbered := by
    have numbered := consistent.numbered
    by_cases accepted : actor.ingress.postOutcome config.handoffQueueCapacity = .accepted
    · simp [SchedulerActor.call, Mailbox.post_of_accepted accepted, numbered]
    · simp [SchedulerActor.call, Mailbox.post_of_not_accepted accepted, numbered]
  accepted := by
    refine Eq.trans ?_ (acceptedCalls_concat actor.calls _).symm
    rw [← consistent.accepted, consistent.numbered]
    by_cases accepted : actor.ingress.postOutcome config.handoffQueueCapacity = .accepted
    · simp [SchedulerActor.call, Mailbox.post_of_accepted accepted, accepted]
    · simp [SchedulerActor.call, Mailbox.post_of_not_accepted accepted, accepted]
  fits := by
    intro number call held
    rcases Nat.lt_or_ge number actor.calls.length with earlier | latest
    · rw [SchedulerActor.call, List.getElem?_append_left earlier] at held
      exact (consistent.fits number call held).move consistent.sequential
        (posted_move config actor command)
    · rw [SchedulerActor.call, List.getElem?_append_right latest] at held
      cases List.mem_singleton.mp (List.mem_of_getElem? held)
      exact fits_first _ _ _ _ _

/-- The reply of a call is the one its serving delivered. -/
theorem served_of_replyTo {reply : SchedulerReply} (sent : actor.replyTo number = some reply) :
    ∃ served ∈ actor.ingress.served, served.number = number ∧ served.reply = reply := by
  obtain ⟨served, found, same⟩ := Option.map_eq_some_iff.mp sent
  exact ⟨served, List.mem_of_find?_eq_some found, by simpa using List.find?_some found, same⟩

theorem not_served_of_replyTo (unanswered : actor.replyTo number = none) :
    ∀ served ∈ actor.ingress.served, served.number ≠ number := by
  intro served held
  simpa using List.find?_eq_none.mp (Option.map_eq_none_iff.mp unanswered) served held

/-- A call fits at the stage it advances to. -/
theorem Consistent.fits_advanced (consistent : Consistent config initial actor) {stage : CallStage}
    {dropTotal peak : Nat} (held : actor.calls[number]? = some current)
    (advances : Advances config actor number current.awaitsReply current.stage stage dropTotal peak) :
    Fits actor.ingress number { current with stage := stage } := by
  have fits := consistent.fits number current held
  unfold Fits at fits
  generalize reached : current.stage = before at advances fits
  cases advances with
  | measured => exact fits
  | recorded currentDepth =>
      cases current.awaitsReply with
      | true => exact fits
      | false => exact fits
  | @replied reply sent =>
      obtain ⟨served, delivered, numbered, same⟩ := served_of_replyTo sent
      have entry : served.toPosted ∈ acceptedCalls actor.calls :=
        consistent.accepted ▸ consistent.sequential.served_prefix.subset
          (List.mem_map_of_mem delivered)
      obtain ⟨other, found, command, -⟩ := mem_acceptedCalls.mp entry
      rw [numbered, held] at found
      cases found
      have whole : served = ⟨⟨number, current.command⟩, reply⟩ := by
        rw [command, ← numbered, ← same]
      rw [whole] at delivered
      exact delivered
  | dropped unanswered closed => exact .inr ⟨closed, not_served_of_replyTo unanswered⟩
  | counted => exact fits
  | failed => exact fits

theorem Consistent.proceed (consistent : Consistent config initial actor)
    (taken : actor.proceed config number = some after) : Consistent config initial after := by
  obtain ⟨call, stage, dropTotal, peak, held, advances, rfl⟩ := proceed_cases taken
  refine ⟨consistent.sequential, ?_, ?_, ?_⟩
  · exact List.length_set.trans consistent.numbered
  · exact consistent.accepted.trans (acceptedCalls_setStage held).symm
  · intro other now found
    by_cases same : number = other
    · subst same
      rw [List.getElem?_set_self (List.getElem?_eq_some_iff.mp held).1] at found
      exact Option.some.inj found ▸ consistent.fits_advanced held advances
    · rw [List.getElem?_set_ne same] at found
      exact consistent.fits other now found

theorem Consistent.step {step : Step} (consistent : Consistent config initial actor)
    (taken : actor.Takes config step after) : Consistent config initial after := by
  rcases next_cases taken with ⟨command, awaitsReply, -, rfl⟩ | ⟨number, -, advanced⟩ |
    ⟨label, ingress, notPost, moved, rfl⟩
  · exact consistent.call command awaitsReply
  · exact consistent.proceed advanced
  · obtain ⟨accepted, posts⟩ := Mailbox.move_accepted notPost moved
    exact {
      sequential := consistent.sequential.move moved
      numbered := consistent.numbered.trans posts.symm
      accepted := accepted.trans consistent.accepted
      fits := fun number call held =>
        (consistent.fits number call held).move consistent.sequential moved }

end Consistency

/-! ## Linearizability -/

/-- The executed calls, in order, are a history of atomic commands that explains every answer. -/
structure Linearized (config : SchedulerConfig) (initial : SchedulerState)
    (executed : List (Mailbox.Posted SchedulerCommand)) (actor : SchedulerActor) : Prop where
  /-- They are calls that were made, in the order in which they were made. -/
  made : ∀ entry ∈ executed, ∃ call, actor.calls[entry.number]? = some call ∧
    call.command = entry.message
  ordered : executed.Pairwise fun earlier later => earlier.number < later.number
  /-- No accepted call is overtaken by a later one. -/
  fair : ∀ entry ∈ executed, ∀ number call, actor.calls[number]? = some call →
    call.outcome = .accepted → number < entry.number → ⟨number, call.command⟩ ∈ executed
  state : actor.ingress.state = initial.run config (executed.map (·.message))
  /-- A reply is the one that the calls executed before lead to. -/
  replies : ∀ number call reply, actor.calls[number]? = some call →
    call.stage = .returned (.ok (some reply)) →
      ∃ position, executed[position]? = some ⟨number, call.command⟩ ∧
        reply = ((initial.run config ((executed.take position).map (·.message))).execute config
          call.command).1
  /-- A call that failed was not executed. -/
  errors : ∀ number call error, actor.calls[number]? = some call →
    call.stage = .returned (.error error) → ∀ entry ∈ executed, entry.number ≠ number

section Linearizability

variable {config : SchedulerConfig} {initial : SchedulerState} {actor : SchedulerActor}

theorem run_eq_stateAfter (commands : List SchedulerCommand) :
    initial.run config commands =
      Mailbox.stateAfter (SchedulerState.execute config) initial commands := rfl

theorem Consistent.linearized (consistent : Consistent config initial actor) :
    Linearized config initial (actor.ingress.served.map (·.toPosted)) actor where
  made := by
    intro entry held
    have accepted := consistent.sequential.served_prefix.subset held
    rw [consistent.accepted] at accepted
    obtain ⟨call, found, same, -⟩ := mem_acceptedCalls.mp accepted
    exact ⟨call, found, same⟩
  ordered := List.pairwise_map.mpr consistent.sequential.served_increasing
  fair := by
    intro entry held number call found accepted earlier
    have listed : (⟨number, call.command⟩ : Mailbox.Posted _) ∈ actor.ingress.accepted := by
      rw [consistent.accepted]
      exact mem_acceptedCalls.mpr ⟨call, found, rfl, accepted⟩
    exact consistent.sequential.served_of_earlier held listed earlier
  state := by
    rw [consistent.sequential.state, List.map_map]
    rfl
  replies := by
    intro number call reply found returned
    have fits := consistent.fits number call found
    rw [Fits, returned] at fits
    obtain ⟨position, within, at_position⟩ := List.getElem_of_mem fits
    refine ⟨position, ?_, ?_⟩
    · rw [List.getElem?_map, List.getElem?_eq_getElem within, at_position]
      rfl
    · have replied := consistent.sequential.reply_eq
        (List.getElem?_eq_some_iff.mpr ⟨within, at_position⟩)
      rw [← List.map_take, List.map_map]
      exact replied
  errors := by
    intro number call error found returned entry held same
    obtain ⟨served, delivered, rfl⟩ := List.mem_map.mp held
    have fits := consistent.fits number call found
    rw [Fits, returned] at fits
    have accepted := consistent.sequential.served_prefix.subset held
    rw [consistent.accepted] at accepted
    obtain ⟨other, again, -, outcome⟩ := mem_acceptedCalls.mp accepted
    rw [same, found] at again
    cases again
    cases error with
    | queueFull => exact nomatch fits.symm.trans outcome
    | queueClosed =>
        rcases fits with refused | dropped
        · exact nomatch refused.symm.trans outcome
        · exact dropped.2 served delivered same

/-- What was executed stays executed, every call stays the call it is, and an answer is never taken
back. -/
structure Extends (actor after : SchedulerActor) : Prop where
  served : actor.ingress.served <+: after.ingress.served
  calls : ∀ (number : Nat) (call : HandleCall), actor.calls[number]? = some call →
    ∃ later : HandleCall, after.calls[number]? = some later ∧ later.command = call.command ∧
      ∀ result, call.stage = .returned result → later = call

namespace Extends

theorem refl (actor : SchedulerActor) : Extends actor actor where
  served := List.prefix_rfl
  calls _ call held := ⟨call, held, rfl, fun _ _ => rfl⟩

theorem trans {actor middle after : SchedulerActor} (first : Extends actor middle)
    (second : Extends middle after) : Extends actor after where
  served := first.served.trans second.served
  calls number call held := by
    obtain ⟨amid, found, same, kept⟩ := first.calls number call held
    obtain ⟨later, lookup, command, keeps⟩ := second.calls number amid found
    refine ⟨later, lookup, command.trans same, fun result returned => ?_⟩
    have unchanged := kept result returned
    rw [unchanged] at keeps
    exact keeps result returned

theorem step {after : SchedulerActor} {step : Step} (taken : actor.Takes config step after) :
    Extends actor after := by
  rcases next_cases taken with ⟨command, awaitsReply, -, rfl⟩ | ⟨number, -, advanced⟩ |
    ⟨label, ingress, -, moved, rfl⟩
  · refine ⟨(Mailbox.move_extends (posted_move config actor command)).1, fun number call held => ⟨call, ?_, rfl, fun _ _ => rfl⟩⟩
    rw [SchedulerActor.call, List.getElem?_append_left (List.getElem?_eq_some_iff.mp held).1]
    exact held
  · obtain ⟨current, stage, dropTotal, peak, at_number, advances, rfl⟩ := proceed_cases advanced
    refine ⟨List.prefix_rfl, fun other call held => ?_⟩
    by_cases same : number = other
    · subst same
      cases at_number.symm.trans held
      refine ⟨_, List.getElem?_set_self (List.getElem?_eq_some_iff.mp held).1, rfl, ?_⟩
      intro result returned
      rw [returned] at advances
      cases advances
    · exact ⟨call, (List.getElem?_set_ne same).trans held, rfl, fun _ _ => rfl⟩
  · exact ⟨(Mailbox.move_extends moved).1, fun _ call held => ⟨call, held, rfl, fun _ _ => rfl⟩⟩

theorem run {last : SchedulerActor} {history : List Step}
    (run : Run (Takes config) actor history last) : Extends actor last :=
  run.invariant (motive := fun _ state => Extends actor state) (refl actor)
    fun _ extended taken => extended.trans (step taken)

end Extends

theorem Consistent.run {last : SchedulerActor} {history : List Step}
    (run : Run (Takes config) (.start initial) history last) : Consistent config initial last :=
  run.invariant (motive := fun _ state => Consistent config initial state)
    (.start config initial) fun _ consistent taken => consistent.step taken

/-- **The scheduler actor is linearizable.** Split any run at any moment. The calls executed by
then explain every answer given by then, the calls executed by the end are those and further ones
and explain every answer given by the end, and no answer changes in between. -/
theorem run_linearizable {middle last : SchedulerActor} {early late : List Step}
    (front : Run (Takes config) (.start initial) early middle)
    (back : Run (Takes config) middle late last) :
    ∃ executed more, Linearized config initial executed middle ∧
      Linearized config initial (executed ++ more) last ∧ Extends middle last := by
  have extended := Extends.run back
  obtain ⟨later, whole⟩ := extended.served
  refine ⟨_, later.map (·.toPosted), (Consistent.run front).linearized, ?_, extended⟩
  rw [← List.map_append, whole]
  exact (Consistent.run (front.append back)).linearized

/-- Two calls race for the one place in the queue, and the second is refused. -/
def racingCalls : List Step :=
  [.call (.advanceHead 5) true, .call (.advanceHead 6) true, .proceed 0, .receive, .proceed 0,
    .proceed 1, .proceed 1, .execute, .proceed 0]

theorem exists_run_racingCalls :
    ∃ actor, Run (Takes { handoffQueueCapacity := 1 }) (.start {}) racingCalls actor := by
  obtain ⟨actor, taken⟩ := Option.isSome_iff_exists.mp
    (show (racingCalls.foldlM (next { handoffQueueCapacity := 1 }) (.start {})).isSome = true by
      decide +kernel)
  exact ⟨actor, Run.of_foldlM taken⟩

theorem racingCalls_linearizable :
    ∃ middle last executed more,
      Run (Takes { handoffQueueCapacity := 1 }) (.start {}) racingCalls middle ∧
      Linearized { handoffQueueCapacity := 1 } {} executed middle ∧
      Linearized { handoffQueueCapacity := 1 } {} (executed ++ more) last ∧ Extends middle last := by
  obtain ⟨middle, front⟩ := exists_run_racingCalls
  have back : Run (Takes { handoffQueueCapacity := 1 }) middle [.call (.advanceHead 7) false]
      (middle.call { handoffQueueCapacity := 1 } (.advanceHead 7) false) := .single rfl
  obtain ⟨executed, more, explained, explains, extended⟩ := run_linearizable front back
  exact ⟨middle, _, executed, more, front, explained, explains, extended⟩

end Linearizability

end SchedulerActor

end Mempulse.Scheduler
