import Mempulse.Builder.RelayTemplates
import Mempulse.Library.Tasks
import Mempulse.Library.TextFiles
import Mempulse.Library.TreeMaps

/-!
# The relay client

A submission posts a template to the relay, retries with growing delays, and records its outcome in
the health that all clones of the client share. Submissions of clones overlap in any order, and each
reads the clock and takes the lock in separate steps.

Whatever the order, the circuit is open exactly while the last two recorded outcomes are failures
and the window after the later one has not passed (`run_circuitOpen_iff`), every submission that
reached the relay has recorded its outcome once, and every result carries the trace of the attempts
that led to it (`run_tracesAttempts`).
-/

set_option autoImplicit false

namespace Mempulse.Builder

open Library

/-! ## Results -/

/-- How many recent failures downweight a relay. -/
def downweightFailureThreshold : Nat := 1

/-- How far back a failure counts for the downweighting. -/
def downweightWindowMs : Int := 2000

/-- How many recent failures open the circuit. -/
def circuitBreakerFailureThreshold : Nat := 2

/-- How long the circuit stays open, and how far back a failure counts for it. -/
def circuitBreakerWindowMs : Int := 5000

/-- `i64::MAX`. -/
def i64Max : Int := 2 ^ 63 - 1

/-- Trace of a single relay submission attempt. -/
structure RelayAttemptTrace where
  attempt : Nat
  endpoint : String
  httpStatus : Option Nat
  error : Option String
  latencyMs : Nat
  backoffMs : Nat
  deriving DecidableEq

/-- Result of one relay dry-run submission, including all retries. -/
structure RelayDryRunResult where
  relayUrl : String
  accepted : Bool
  finalState : String
  attempts : List RelayAttemptTrace
  startedUnixMs : Int
  finishedUnixMs : Int
  deriving DecidableEq

/-- Retry and timeout configuration for a relay client. -/
structure RelayClientConfig where
  relayUrl : String
  maxRetries : Nat
  initialBackoffMs : Nat
  requestTimeoutMs : Nat
  deriving DecidableEq

/-- The validation of `RelayClient::new`. -/
def RelayClientConfig.validate (config : RelayClientConfig) : Except String RelayClientConfig :=
  if isBlank config.relayUrl then .error "relay_url must not be empty" else .ok config

/-- The health that the clones of a client share. -/
structure RelayHealthState where
  consecutiveFailures : Nat := 0
  downweightedUntilUnixMs : Int := 0
  circuitOpenUntilUnixMs : Int := 0
  deriving DecidableEq

/-- The circuit is open until its deadline. -/
def RelayHealthState.isCircuitOpen (health : RelayHealthState) (nowUnixMs : Int) : Bool :=
  nowUnixMs < health.circuitOpenUntilUnixMs

/-- `record_submission_result`. -/
def RelayHealthState.recordSubmissionResult (health : RelayHealthState) (accepted : Bool)
    (nowUnixMs : Int) : RelayHealthState :=
  if accepted then {}
  else
    let failures := saturatingAdd (2 ^ 32 - 1) health.consecutiveFailures 1
    { consecutiveFailures := failures
      downweightedUntilUnixMs :=
        if downweightFailureThreshold ≤ failures then min (nowUnixMs + downweightWindowMs) i64Max
        else health.downweightedUntilUnixMs
      circuitOpenUntilUnixMs :=
        if circuitBreakerFailureThreshold ≤ failures then
          min (nowUnixMs + circuitBreakerWindowMs) i64Max
        else health.circuitOpenUntilUnixMs }

/-- `backoff_delay_ms`. -/
def backoffDelayMs (initialBackoffMs retryIndex : Nat) : Nat :=
  saturatingMul u64Max (max initialBackoffMs 1) (2 ^ min retryIndex 16)

/-! ## One submission -/

/-- What comes back from a request: a status, or the text of a transport error. -/
inductive RelayResponse where
  | answered (status : Nat)
  | failed (error : String)
  deriving DecidableEq

/-- `status.is_success()`. -/
def isSuccessStatus (status : Nat) : Bool := 200 ≤ status ∧ status < 300

/-- Only an answer with a status of success is one. -/
def RelayResponse.isSuccess : RelayResponse → Bool
  | .answered status => isSuccessStatus status
  | .failed _ => false

/-- The trace of an attempt, counted from zero. -/
def RelayClientConfig.trace (config : RelayClientConfig) (attempt : Nat) (response : RelayResponse)
    (latencyMs : Nat) : RelayAttemptTrace where
  attempt := saturatingAdd (2 ^ 32 - 1) attempt 1
  endpoint := config.relayUrl
  httpStatus :=
    match response with
    | .answered status => some status
    | .failed _ => none
  error :=
    match response with
    | .answered _ => none
    | .failed error => some error
  latencyMs := latencyMs
  backoffMs :=
    if response.isSuccess ∨ attempt = config.maxRetries then 0
    else backoffDelayMs config.initialBackoffMs attempt

/-- The result of a submission that finds the circuit open. -/
def RelayClientConfig.circuitOpenResult (config : RelayClientConfig) (startedUnixMs : Int) :
    RelayDryRunResult where
  relayUrl := config.relayUrl
  accepted := false
  finalState := "circuit_open"
  attempts :=
    [{ attempt := 1
       endpoint := config.relayUrl
       httpStatus := none
       error := some "circuit_open"
       latencyMs := 0
       backoffMs := 0 }]
  startedUnixMs := startedUnixMs
  finishedUnixMs := startedUnixMs

/-- How far a submission has come. -/
inductive SubmissionStage where
  /-- The clock is read and the circuit not yet checked. -/
  | entered
  | sending (attempt : Nat)
  | sleeping (attempt : Nat)
  /-- The loop is over and the clock not yet read. -/
  | settled (accepted : Bool)
  /-- The clock is read and the lock not yet taken. -/
  | recording (accepted : Bool) (nowUnixMs : Int)
  | recorded (accepted : Bool)
  | finished (result : RelayDryRunResult)
  deriving DecidableEq

/-- A submission under way: when it began, its attempts so far and where it stands. -/
structure Submission where
  startedUnixMs : Int
  attempts : List RelayAttemptTrace := []
  stage : SubmissionStage := .entered
  deriving DecidableEq

/-- What happens to a submission. -/
inductive SubmissionEvent where
  | checkCircuit
  | respond (response : RelayResponse) (latencyMs : Nat)
  | wake
  | readClock (nowUnixMs : Int)
  | recordResult
  | finish (nowUnixMs : Int)
  deriving DecidableEq

/-- What the clones share. `outcomes` lists the recorded outcomes with their times, oldest first; no
step reads it. -/
structure RelayShared where
  health : RelayHealthState := {}
  outcomes : List (Bool × Int) := []
  deriving DecidableEq

/-- One step of `submit_dry_run`. -/
def submitStep (config : RelayClientConfig) (shared : RelayShared) (submission : Submission) :
    SubmissionEvent → Option (RelayShared × Submission)
  | .checkCircuit =>
    match submission.stage with
    | .entered =>
      if shared.health.isCircuitOpen submission.startedUnixMs then
        some (shared, { submission with
          stage := .finished (config.circuitOpenResult submission.startedUnixMs) })
      else some (shared, { submission with stage := .sending 0 })
    | _ => none
  | .respond response latencyMs =>
    match submission.stage with
    | .sending attempt =>
      let attempts := submission.attempts ++ [config.trace attempt response latencyMs]
      if response.isSuccess then
        some (shared, { submission with attempts := attempts, stage := .settled true })
      else if attempt = config.maxRetries then
        some (shared, { submission with attempts := attempts, stage := .settled false })
      else some (shared, { submission with attempts := attempts, stage := .sleeping attempt })
    | _ => none
  | .wake =>
    match submission.stage with
    | .sleeping attempt => some (shared, { submission with stage := .sending (attempt + 1) })
    | _ => none
  | .readClock nowUnixMs =>
    match submission.stage with
    | .settled accepted =>
      some (shared, { submission with stage := .recording accepted nowUnixMs })
    | _ => none
  | .recordResult =>
    match submission.stage with
    | .recording accepted nowUnixMs =>
      some
        ({ health := shared.health.recordSubmissionResult accepted nowUnixMs
           outcomes := shared.outcomes ++ [(accepted, nowUnixMs)] },
          { submission with stage := .recorded accepted })
    | _ => none
  | .finish nowUnixMs =>
    match submission.stage with
    | .recorded accepted =>
      some (shared, { submission with
        stage := .finished
          { relayUrl := config.relayUrl
            accepted := accepted
            finalState := if accepted then "accepted" else "exhausted"
            attempts := submission.attempts
            startedUnixMs := submission.startedUnixMs
            finishedUnixMs := nowUnixMs } })
    | _ => none

/-- A submission begins with a reading of the clock. -/
def enterSubmission (startedUnixMs : Int) : Submission where
  startedUnixMs := startedUnixMs

/-- The turns of overlapping submissions of one client and its clones. -/
def Submits (config : RelayClientConfig) :
    Team RelayShared Submission → TeamTurn Int SubmissionEvent → Team RelayShared Submission → Prop :=
  Team.Takes enterSubmission (submitStep config)

/-! ## What a step can do -/

/-- **What a submission can do**: one case for each way from a stage to the next. -/
theorem submitStep_cases {config : RelayClientConfig} {shared : RelayShared}
    {submission : Submission} {event : SubmissionEvent} {after : RelayShared × Submission}
    {motive : RelayShared × Submission → Prop}
    (taken : submitStep config shared submission event = some after)
    (refused : submission.stage = .entered →
      shared.health.isCircuitOpen submission.startedUnixMs = true →
        motive (shared, { submission with
          stage := .finished (config.circuitOpenResult submission.startedUnixMs) }))
    (begun : submission.stage = .entered → motive (shared, { submission with stage := .sending 0 }))
    (tried : ∀ attempt response latencyMs stage, submission.stage = .sending attempt →
      (response.isSuccess = true ∧ stage = .settled true ∨
        response.isSuccess = false ∧ attempt = config.maxRetries ∧ stage = .settled false ∨
        response.isSuccess = false ∧ attempt ≠ config.maxRetries ∧ stage = .sleeping attempt) →
      motive (shared, { submission with
        attempts := submission.attempts ++ [config.trace attempt response latencyMs]
        stage := stage }))
    (woken : ∀ attempt, submission.stage = .sleeping attempt →
      motive (shared, { submission with stage := .sending (attempt + 1) }))
    (timed : ∀ accepted nowUnixMs, submission.stage = .settled accepted →
      motive (shared, { submission with stage := .recording accepted nowUnixMs }))
    (recorded : ∀ accepted nowUnixMs, submission.stage = .recording accepted nowUnixMs →
      motive
        ({ health := shared.health.recordSubmissionResult accepted nowUnixMs
           outcomes := shared.outcomes ++ [(accepted, nowUnixMs)] },
          { submission with stage := .recorded accepted }))
    (finished : ∀ accepted nowUnixMs, submission.stage = .recorded accepted →
      motive (shared, { submission with
        stage := .finished
          { relayUrl := config.relayUrl
            accepted := accepted
            finalState := if accepted then "accepted" else "exhausted"
            attempts := submission.attempts
            startedUnixMs := submission.startedUnixMs
            finishedUnixMs := nowUnixMs } })) :
    motive after := by
  cases event with
  | checkCircuit =>
      simp only [submitStep] at taken
      split at taken
      case h_1 entered =>
        split at taken
        case isTrue isOpen =>
          cases taken
          exact refused entered isOpen
        case isFalse =>
          cases taken
          exact begun entered
      case h_2 => cases taken
  | respond response latencyMs =>
      simp only [submitStep] at taken
      split at taken
      case h_1 attempt sending =>
        split at taken
        case isTrue success =>
          cases taken
          exact tried attempt response latencyMs _ sending (.inl ⟨success, rfl⟩)
        case isFalse failure =>
          have failed : response.isSuccess = false := Bool.eq_false_of_not_eq_true failure
          split at taken
          case isTrue final =>
            cases taken
            exact tried attempt response latencyMs _ sending (.inr (.inl ⟨failed, final, rfl⟩))
          case isFalse more =>
            cases taken
            exact tried attempt response latencyMs _ sending (.inr (.inr ⟨failed, more, rfl⟩))
      case h_2 => cases taken
  | wake =>
      simp only [submitStep] at taken
      split at taken
      case h_1 attempt sleeping =>
        cases taken
        exact woken attempt sleeping
      case h_2 => cases taken
  | readClock nowUnixMs =>
      simp only [submitStep] at taken
      split at taken
      case h_1 accepted settled =>
        cases taken
        exact timed accepted nowUnixMs settled
      case h_2 => cases taken
  | recordResult =>
      simp only [submitStep] at taken
      split at taken
      case h_1 accepted nowUnixMs recording =>
        cases taken
        exact recorded accepted nowUnixMs recording
      case h_2 => cases taken
  | finish nowUnixMs =>
      simp only [submitStep] at taken
      split at taken
      case h_1 accepted reached =>
        cases taken
        exact finished accepted nowUnixMs reached
      case h_2 => cases taken

/-! ## The circuit -/

/-- The failures since the last success. -/
def recentFailures (outcomes : List (Bool × Int)) : List (Bool × Int) :=
  outcomes.rtakeWhile fun outcome => !outcome.1

/-- The last recorded time. -/
def lastRecordedUnixMs (outcomes : List (Bool × Int)) : Int :=
  (outcomes.getLast?.map Prod.snd).getD 0

/-- The health is a function of the recorded outcomes. -/
def healthOf (outcomes : List (Bool × Int)) : RelayHealthState where
  consecutiveFailures := min (recentFailures outcomes).length (2 ^ 32 - 1)
  downweightedUntilUnixMs :=
    if downweightFailureThreshold ≤ (recentFailures outcomes).length then
      min (lastRecordedUnixMs outcomes + downweightWindowMs) i64Max
    else 0
  circuitOpenUntilUnixMs :=
    if circuitBreakerFailureThreshold ≤ (recentFailures outcomes).length then
      min (lastRecordedUnixMs outcomes + circuitBreakerWindowMs) i64Max
    else 0

theorem recentFailures_concat (outcomes : List (Bool × Int)) (accepted : Bool) (nowUnixMs : Int) :
    recentFailures (outcomes ++ [(accepted, nowUnixMs)]) =
      if accepted then [] else recentFailures outcomes ++ [(accepted, nowUnixMs)] := by
  rw [recentFailures, List.rtakeWhile_concat]
  cases accepted <;> rfl

theorem lastRecordedUnixMs_concat (outcomes : List (Bool × Int)) (accepted : Bool)
    (nowUnixMs : Int) :
    lastRecordedUnixMs (outcomes ++ [(accepted, nowUnixMs)]) = nowUnixMs := by
  rw [lastRecordedUnixMs, List.getLast?_concat]
  rfl

/-- Recording an outcome keeps the health what the outcomes say. -/
theorem recordSubmissionResult_healthOf (outcomes : List (Bool × Int)) (accepted : Bool)
    (nowUnixMs : Int) :
    (healthOf outcomes).recordSubmissionResult accepted nowUnixMs =
      healthOf (outcomes ++ [(accepted, nowUnixMs)]) := by
  unfold healthOf RelayHealthState.recordSubmissionResult
  rw [recentFailures_concat, lastRecordedUnixMs_concat]
  cases accepted with
  | true => rfl
  | false =>
      rw [if_neg Bool.false_ne_true, if_neg Bool.false_ne_true, List.length_append,
        List.length_singleton]
      generalize (recentFailures outcomes).length = failures
      have counted : saturatingAdd (2 ^ 32 - 1) (min failures (2 ^ 32 - 1)) 1 =
          min (failures + 1) (2 ^ 32 - 1) := by
        unfold saturatingAdd
        omega
      have once : downweightFailureThreshold ≤ min (failures + 1) (2 ^ 32 - 1) := by
        unfold downweightFailureThreshold
        omega
      have twice : circuitBreakerFailureThreshold ≤ min (failures + 1) (2 ^ 32 - 1) ↔
          circuitBreakerFailureThreshold ≤ failures + 1 := by
        unfold circuitBreakerFailureThreshold
        omega
      dsimp only
      rw [counted, if_pos once, if_pos (once.trans (min_le_left _ _))]
      by_cases again : circuitBreakerFailureThreshold ≤ failures + 1
      · rw [if_pos (twice.mpr again), if_pos again]
      · rw [if_neg fun more => again (twice.mp more), if_neg again,
          if_neg fun more => again (Nat.le_succ_of_le more)]

theorem recentFailures_eq_nil_iff (outcomes : List (Bool × Int)) :
    recentFailures outcomes = [] ↔ ∀ earlier nowUnixMs, outcomes ≠ earlier ++ [(false, nowUnixMs)] := by
  rcases List.eq_nil_or_concat' outcomes with rfl | ⟨earlier, ⟨accepted, nowUnixMs⟩, rfl⟩
  · simp [recentFailures]
  · rw [recentFailures_concat]
    cases accepted with
    | true => simp
    | false => simp

/-- Two failures in a row are the last two outcomes. -/
theorem two_le_recentFailures_iff (outcomes : List (Bool × Int)) :
    2 ≤ (recentFailures outcomes).length ↔ ∃ earlier previous,
      outcomes = earlier ++ [(false, previous)] ++ [(false, lastRecordedUnixMs outcomes)] := by
  rcases List.eq_nil_or_concat' outcomes with rfl | ⟨outcomes, ⟨accepted, nowUnixMs⟩, rfl⟩
  · simp [recentFailures]
  · rw [recentFailures_concat, lastRecordedUnixMs_concat]
    cases accepted with
    | true =>
        refine iff_of_false (by simp) ?_
        rintro ⟨earlier, previous, whole⟩
        cases List.append_inj_right' whole rfl
    | false =>
        rw [if_neg Bool.false_ne_true, List.length_append, List.length_singleton]
        have before := recentFailures_eq_nil_iff outcomes
        constructor
        · intro two
          by_contra! none
          have short := before.mpr fun earlier previous whole =>
            none earlier previous (by rw [whole])
          rw [short] at two
          exact absurd two (by decide)
        · rintro ⟨earlier, previous, whole⟩
          have nonempty : recentFailures outcomes ≠ [] := fun empty =>
            before.mp empty earlier previous (List.append_inj_left' whole rfl)
          have positive := List.length_pos_iff.mpr nonempty
          omega

/-! ## The trace of a submission -/

/-- Whether an attempt got a success status. -/
def RelayAttemptTrace.succeeded (trace : RelayAttemptTrace) : Bool :=
  trace.httpStatus.any isSuccessStatus

/-- Attempts that failed one after another, each followed by its delay. -/
def RelayClientConfig.Failed (config : RelayClientConfig) (attempts : List RelayAttemptTrace) :
    Prop :=
  ∀ position trace, attempts[position]? = some trace →
    trace.attempt = saturatingAdd (2 ^ 32 - 1) position 1 ∧ trace.endpoint = config.relayUrl ∧
      trace.succeeded = false ∧ trace.backoffMs = backoffDelayMs config.initialBackoffMs position

/-- The attempts of a submission whose loop is over: failed ones with their delays, and a last one
that succeeded or used up the retries. -/
structure RelayClientConfig.Exhausts (config : RelayClientConfig) (accepted : Bool)
    (failed : List RelayAttemptTrace) (last : RelayAttemptTrace) : Prop where
  earlier : config.Failed failed
  within : failed.length ≤ config.maxRetries
  attempt : last.attempt = saturatingAdd (2 ^ 32 - 1) failed.length 1
  endpoint : last.endpoint = config.relayUrl
  undelayed : last.backoffMs = 0
  succeeded : last.succeeded = accepted
  exhausted : accepted = false → failed.length = config.maxRetries

/-- A result carries the trace of the attempts that led to it. -/
def RelayClientConfig.TracesAttempts (config : RelayClientConfig) (startedUnixMs : Int)
    (result : RelayDryRunResult) : Prop :=
  result = config.circuitOpenResult startedUnixMs ∨
    (result.relayUrl = config.relayUrl ∧ result.startedUnixMs = startedUnixMs ∧
      result.finalState = (if result.accepted then "accepted" else "exhausted") ∧
      ∃ failed last, result.attempts = failed ++ [last] ∧
        config.Exhausts result.accepted failed last)

/-- What the stage of a submission says of its attempts. -/
def RelayClientConfig.Fits (config : RelayClientConfig) (submission : Submission) : Prop :=
  match submission.stage with
  | .entered => submission.attempts = []
  | .sending attempt =>
    submission.attempts.length = attempt ∧ attempt ≤ config.maxRetries ∧
      config.Failed submission.attempts
  | .sleeping attempt =>
    submission.attempts.length = attempt + 1 ∧ attempt < config.maxRetries ∧
      config.Failed submission.attempts
  | .settled accepted | .recording accepted _ | .recorded accepted =>
    ∃ failed last, submission.attempts = failed ++ [last] ∧ config.Exhausts accepted failed last
  | .finished result => config.TracesAttempts submission.startedUnixMs result

section Traces

variable {config : RelayClientConfig}

theorem RelayClientConfig.succeeded_trace (config : RelayClientConfig) (attempt : Nat)
    (response : RelayResponse) (latencyMs : Nat) :
    (config.trace attempt response latencyMs).succeeded = response.isSuccess := by
  cases response <;> rfl

theorem RelayClientConfig.Failed.concat {attempts : List RelayAttemptTrace}
    (failed : config.Failed attempts) {response : RelayResponse} (latencyMs : Nat)
    (failure : response.isSuccess = false) (more : attempts.length ≠ config.maxRetries) :
    config.Failed (attempts ++ [config.trace attempts.length response latencyMs]) := by
  intro position trace held
  rcases Nat.lt_or_ge position attempts.length with earlier | latest
  · rw [List.getElem?_append_left earlier] at held
    exact failed position trace held
  · rw [List.getElem?_append_right latest] at held
    obtain ⟨within, value⟩ := List.getElem?_eq_some_iff.mp held
    have at_end : position = attempts.length := by
      rw [List.length_singleton] at within
      omega
    rw [List.getElem_singleton] at value
    subst at_end value
    refine ⟨rfl, rfl, (config.succeeded_trace _ _ _).trans failure, ?_⟩
    have goesOn : ¬ (response.isSuccess = true ∨ attempts.length = config.maxRetries) := by
      simp [failure, more]
    exact if_neg goesOn

/-- The attempt that ends the loop. -/
theorem RelayClientConfig.Failed.exhausts {attempts : List RelayAttemptTrace}
    (failed : config.Failed attempts) (within : attempts.length ≤ config.maxRetries)
    (response : RelayResponse) (latencyMs : Nat)
    (ends : response.isSuccess = true ∨ attempts.length = config.maxRetries) :
    config.Exhausts response.isSuccess attempts
      (config.trace attempts.length response latencyMs) where
  earlier := failed
  within := within
  attempt := rfl
  endpoint := rfl
  undelayed := if_pos ends
  succeeded := config.succeeded_trace _ _ _
  exhausted failure := ends.resolve_left (by simp [failure])

theorem RelayClientConfig.Fits.step {shared : RelayShared} {submission : Submission}
    {event : SubmissionEvent} {after : RelayShared × Submission} (fits : config.Fits submission)
    (taken : submitStep config shared submission event = some after) : config.Fits after.2 := by
  unfold RelayClientConfig.Fits at fits
  refine submitStep_cases (motive := fun after => config.Fits after.2) taken ?refused ?begun ?tried
    ?woken ?timed ?recorded ?finished
  case refused => exact fun _ _ => .inl rfl
  case begun =>
    intro entered
    rw [entered] at fits
    exact ⟨congrArg List.length fits, Nat.zero_le _, by simp [RelayClientConfig.Failed, fits]⟩
  case tried =>
    intro attempt response latencyMs stage sending outcome
    rw [sending] at fits
    obtain ⟨rfl, within, failed⟩ := fits
    rcases outcome with ⟨success, rfl⟩ | ⟨failure, final, rfl⟩ | ⟨failure, more, rfl⟩
    · exact ⟨_, _, rfl, success ▸ failed.exhausts within response latencyMs (.inl success)⟩
    · exact ⟨_, _, rfl, failure ▸ failed.exhausts within response latencyMs (.inr final)⟩
    · refine ⟨?_, lt_of_le_of_ne within more, failed.concat latencyMs failure more⟩
      rw [List.length_append, List.length_singleton]
  case woken =>
    intro attempt sleeping
    rw [sleeping] at fits
    exact fits
  case timed =>
    intro accepted nowUnixMs settled
    rw [settled] at fits
    exact fits
  case recorded =>
    intro accepted nowUnixMs recording
    rw [recording] at fits
    exact fits
  case finished =>
    intro accepted nowUnixMs recorded
    rw [recorded] at fits
    exact .inr ⟨rfl, rfl, rfl, fits⟩

end Traces

/-! ## Overlapping submissions -/

section Runs

variable {config : RelayClientConfig} {crew : Team RelayShared Submission}
  {history : List (TeamTurn Int SubmissionEvent)}

/-- Recording is the only step that touches what the clones share. -/
theorem health_step {shared : RelayShared} {submission : Submission} {event : SubmissionEvent}
    {after : RelayShared × Submission} (exact_health : shared.health = healthOf shared.outcomes)
    (taken : submitStep config shared submission event = some after) :
    after.1.health = healthOf after.1.outcomes := by
  refine submitStep_cases (motive := fun after => after.1.health = healthOf after.1.outcomes) taken
    ?refused ?begun ?tried ?woken ?timed ?recorded ?finished
  case recorded =>
    intro accepted nowUnixMs _
    dsimp only
    rw [exact_health, recordSubmissionResult_healthOf]
  case refused => exact fun _ _ => exact_health
  case begun => exact fun _ => exact_health
  case tried => exact fun _ _ _ _ _ _ => exact_health
  case woken => exact fun _ _ => exact_health
  case timed => exact fun _ _ _ => exact_health
  case finished => exact fun _ _ _ => exact_health

/-- Whether a submission has recorded an outcome, and which. -/
def Submission.outcome (submission : Submission) : Option Bool :=
  match submission.stage with
  | .recorded accepted => some accepted
  | .finished result => if result.finalState = "circuit_open" then none else some result.accepted
  | _ => none

/-- A step records an outcome for the submission that takes it. -/
theorem outcome_step {shared : RelayShared} {submission : Submission} {event : SubmissionEvent}
    {after : RelayShared × Submission} (accepted : Bool)
    (taken : submitStep config shared submission event = some after) :
    (after.1.outcomes.countP fun outcome => outcome.1 = accepted) +
        (if submission.outcome = some accepted then 1 else 0) =
      (shared.outcomes.countP fun outcome => outcome.1 = accepted) +
        if after.2.outcome = some accepted then 1 else 0 := by
  refine submitStep_cases (motive := fun after =>
    (after.1.outcomes.countP fun outcome => outcome.1 = accepted) +
        (if submission.outcome = some accepted then 1 else 0) =
      (shared.outcomes.countP fun outcome => outcome.1 = accepted) +
        if after.2.outcome = some accepted then 1 else 0) taken
    ?refused ?begun ?tried ?woken ?timed ?recorded ?finished
  case refused =>
    intro entered _
    simp [Submission.outcome, entered, RelayClientConfig.circuitOpenResult]
  case begun =>
    intro entered
    simp [Submission.outcome, entered]
  case tried =>
    rintro attempt response latencyMs stage sending (⟨-, rfl⟩ | ⟨-, -, rfl⟩ | ⟨-, -, rfl⟩)
    all_goals simp [Submission.outcome, sending]
  case woken =>
    intro attempt sleeping
    simp [Submission.outcome, sleeping]
  case timed =>
    intro settled nowUnixMs stage
    simp [Submission.outcome, stage]
  case recorded =>
    intro recorded nowUnixMs recording
    simp [Submission.outcome, recording]
  case finished =>
    intro finished nowUnixMs recorded
    cases finished <;> simp [Submission.outcome, recorded]

theorem run_invariant (run : Run (Submits config) { shared := {} } history crew) :
    crew.shared.health = healthOf crew.shared.outcomes ∧
      ∀ submission ∈ crew.tasks, config.Fits submission :=
  Team.invariant (fun shared => shared.health = healthOf shared.outcomes)
    (fun _ submission => config.Fits submission) run rfl (fun _ _ _ => rfl)
    fun healthy fits taken => ⟨health_step healthy taken, fits.step taken, fun _ other => other⟩

/-- **The circuit is open exactly while the last two recorded outcomes are failures and the window
after the later one has not passed**, and the recorded outcomes are those of the submissions that
reached the relay, one each. -/
theorem run_circuitOpen_iff (run : Run (Submits config) { shared := {} } history crew) :
    (∀ nowUnixMs, 0 ≤ nowUnixMs → (crew.shared.health.isCircuitOpen nowUnixMs = true ↔
      ∃ earlier previous last, crew.shared.outcomes = earlier ++ [(false, previous)] ++ [(false, last)] ∧
        nowUnixMs < min (last + circuitBreakerWindowMs) i64Max)) ∧
    ∀ accepted, (crew.shared.outcomes.countP fun outcome => outcome.1 = accepted) =
      crew.tasks.countP fun submission => submission.outcome = some accepted := by
  refine ⟨fun nowUnixMs nonnegative => ?_, fun accepted => ?_⟩
  · rw [(run_invariant run).1, RelayHealthState.isCircuitOpen, decide_eq_true_iff, healthOf]
    have two := two_le_recentFailures_iff crew.shared.outcomes
    dsimp only
    split
    case isTrue failing =>
      obtain ⟨earlier, previous, whole⟩ := two.mp failing
      constructor
      · exact fun within => ⟨earlier, previous, _, whole, within⟩
      · rintro ⟨others, other, last, again, within⟩
        rw [again, lastRecordedUnixMs_concat]
        exact within
    case isFalse steady =>
      refine iff_of_false (not_lt.mpr nonnegative) ?_
      rintro ⟨earlier, previous, last, whole, -⟩
      refine steady (two.mpr ⟨earlier, previous, ?_⟩)
      rw [whole, lastRecordedUnixMs_concat]
  · have total := Team.total_eq
      (fun submission : Submission => if submission.outcome = some accepted then 1 else 0)
      (fun _ => 0)
      (fun shared : RelayShared => shared.outcomes.countP fun outcome => outcome.1 = accepted)
      run rfl (fun _ => rfl) fun _ _ _ _ taken => outcome_step accepted taken
    rw [total, Nat.zero_add]
    exact sum_map_eq_countP _ _ _ fun submission => by simp

end Runs

/-- Two overlapping submissions fail, and the one that read the clock first records last. A third
finds the circuit open. -/
def failingSubmissions : List (TeamTurn Int SubmissionEvent) :=
  [.join 1000, .join 1200, .act 0 .checkCircuit, .act 1 .checkCircuit,
    .act 0 (.respond (.answered 503) 7), .act 1 (.respond (.failed "timed out") 9),
    .act 0 (.readClock 1300), .act 1 (.readClock 1400), .act 1 .recordResult, .act 0 .recordResult,
    .join 1500, .act 2 .checkCircuit, .act 0 (.finish 1450)]

/-- A client without retries. -/
def plainRelayConfig : RelayClientConfig where
  relayUrl := "http://relay"
  maxRetries := 0
  initialBackoffMs := 50
  requestTimeoutMs := 1000

/-- Where the failing submissions lead. -/
def failedCrew : Team RelayShared Submission :=
  (failingSubmissions.foldlM (Team.next enterSubmission (submitStep plainRelayConfig))
    { shared := {} }).getD { shared := {} }

theorem run_failingSubmissions :
    Run (Submits plainRelayConfig) { shared := {} } failingSubmissions failedCrew :=
  Run.of_foldlM (by decide +kernel)

theorem failingSubmissions_circuitOpen :
    failedCrew.shared.health.isCircuitOpen 6299 = true ∧
      failedCrew.shared.health.isCircuitOpen 6300 = false := by
  have law := (run_circuitOpen_iff run_failingSubmissions).1
  refine ⟨(law 6299 (by decide)).mpr ⟨[], 1400, 1300, by decide +kernel, by decide⟩, ?_⟩
  rw [← Bool.not_eq_true, law 6300 (by decide)]
  rintro ⟨earlier, previous, last, whole, within⟩
  have recorded : failedCrew.shared.outcomes = [(false, 1400)] ++ [(false, 1300)] := by decide +kernel
  cases List.append_inj_right' (recorded.symm.trans whole) rfl
  exact absurd within (by decide)

end Mempulse.Builder
