import Mempulse.LiveRpc.Sequential
import Mempulse.Replay.AnyOrder

/-!
# Concurrent workers

Several workers share the scheduler and the storage writer, and their calls interleave in any
order. An admission and the events that record it are separate calls, so the log can have the
events of two admissions in the opposite order of the admissions. Where the events whose order
matters are logged in admission order, the log still replays to the scheduler's pending set.
-/

set_option autoImplicit false

namespace Mempulse.LiveRpc

open Std EventLog Library Scheduler Storage Replay Searcher

/-! ## The system -/

/-- A worker in the middle of its calls. `ticket` and `position` are bookkeeping that no call
reads: the number of its current admission, and the position the admission is about. -/
structure Worker where
  program : Pipeline
  ticket : Nat := 0
  position : Address × UInt64 := (0, 0)

/-- A lifecycle event in the log, with the number of the admission it belongs to. -/
structure Logged where
  ticket : Nat
  claim : Claim

namespace Logged

/-- What a logged event does to the occupancy. -/
def touch (logged : Logged) : Touch TxHash (Address × UInt64) := logged.claim.touch

/-- The payload that was logged. -/
def payload (logged : Logged) : EventPayload := logged.claim.payload

end Logged

/-- The workers and what they share. `admissions` counts the admissions so far and `record` lists
the lifecycle events logged so far; no call reads them. -/
structure System where
  live : LiveState
  workers : List Worker
  admissions : Nat := 0
  record : List Logged := []

/-- Every worker is about to process its own list of arrivals. -/
def System.start (nextSeqId : UInt64) (jobs : List (List Arrival)) : System where
  live := { nextSeqId := nextSeqId }
  workers := jobs.map fun arrivals => { program := processArrivals arrivals }

/-- The worker after a call, its program apart. -/
def Worker.after (worker : Worker) (admissions : Nat) : PipelineOp → Worker
  | .admitOutcome tx => { worker with ticket := admissions + 1, position := positionOf tx }
  | _ => worker

/-- The number of admissions after a call. -/
def admissionsAfter (admissions : Nat) : PipelineOp → Nat
  | .admitOutcome _ => admissions + 1
  | _ => admissions

/-- The lifecycle event that a call of the worker logs. -/
def Worker.logs (worker : Worker) : PipelineOp → List Logged
  | .tryEnqueue op =>
    (((loggedLifecycle op).bind (claimOf worker.position)).map fun claim =>
      { ticket := worker.ticket, claim := claim }).toList
  | _ => []

/-- The worker at an index makes its next call, when it has one left. -/
def System.step (config : SchedulerConfig) (system : System) (index : Nat) : System :=
  match system.workers[index]? with
  | none => system
  | some worker =>
    match worker.program with
    | .done _ => system
    | .call op next =>
      let served := serve config system.live op
      { live := served.2
        workers := system.workers.set index
          { worker.after system.admissions op with program := next served.1 }
        admissions := admissionsAfter system.admissions op
        record := system.record ++ worker.logs op }

/-- The workers take turns as the schedule says. -/
def System.run (config : SchedulerConfig) (system : System) (schedule : List Nat) : System :=
  schedule.foldl (System.step config) system

/-- Every worker has come to its end. -/
def System.Finished (system : System) : Prop :=
  ∀ worker ∈ system.workers, worker.program.isDone = true

instance (system : System) : Decidable system.Finished :=
  inferInstanceAs (Decidable (∀ worker ∈ system.workers, _))

/-! ## Logging in admission order -/

/-- The lifecycle event the worker at an index is about to log. -/
def System.nextLogged (system : System) (index : Nat) : List Logged :=
  match system.workers[index]? with
  | none => []
  | some worker =>
    match worker.program with
    | .done _ => []
    | .call op _ => worker.logs op

/-- The event about to be logged conflicts with no logged event of a later admission. -/
def System.InOrder (system : System) (index : Nat) : Prop :=
  ∀ logged ∈ system.nextLogged index, ∀ earlier ∈ system.record,
    earlier.touch.Conflicts logged.touch → earlier.ticket ≤ logged.ticket

instance (system : System) (index : Nat) : Decidable (system.InOrder index) :=
  inferInstanceAs (Decidable (∀ logged ∈ system.nextLogged index, ∀ earlier ∈ system.record, _))

/-- Conflicting events are logged in the order of their admissions, at every step of a run. -/
def RunsInOrder (config : SchedulerConfig) : System → List Nat → Prop
  | _, [] => True
  | system, index :: rest =>
    system.InOrder index ∧ RunsInOrder config (system.step config index) rest

instance decidableRunsInOrder (config : SchedulerConfig) :
    (system : System) → (schedule : List Nat) → Decidable (RunsInOrder config system schedule)
  | _, [] => inferInstanceAs (Decidable True)
  | system, index :: rest =>
    have := decidableRunsInOrder config (system.step config index) rest
    inferInstanceAs (Decidable (_ ∧ _))

/-! ## The workers -/

theorem claimOf_claim (claim : Claim) : claimOf claim.position claim.payload = some claim := by
  obtain ⟨touch, payload, position, spelled⟩ := claim
  unfold claimOf
  split
  case h_1 other touches =>
    dsimp only at touches
    cases spelled.symm.trans touches
    rfl
  case h_2 silent =>
    dsimp only at silent
    cases spelled.symm.trans silent

theorem position_of_mem_admissionClaims {tx : ValidatedTransaction}
    {outcome : SchedulerAdmissionOutcome} {claim : Claim}
    (member : claim ∈ admissionClaims tx outcome) : claim.position = positionOf tx := by
  rcases List.mem_append.mp member with decided | announced
  · revert decided
    cases outcome.admission <;>
      simp only [decisionClaims, List.mem_cons, List.not_mem_nil, or_false, false_implies]
    case admitted | underpricedReplacement | senderLimitReached => rintro rfl; rfl
    case replaced => rintro (rfl | rfl) <;> rfl
  · obtain ⟨transition, -, rfl⟩ := List.mem_map.mp announced
    rfl

/-- The workers and the events they have still to log, by admission. -/
structure Crew (workers : List Worker) (admissions : Nat) (outstanding : Nat → List Claim) :
    Prop where
  settles : ∀ ⦃index : Nat⦄ ⦃worker : Worker⦄, workers[index]? = some worker →
    Settles ((outstanding worker.ticket).map Claim.payload) worker.program
  positions : ∀ ⦃index : Nat⦄ ⦃worker : Worker⦄, workers[index]? = some worker →
    ∀ claim ∈ outstanding worker.ticket, claim.position = worker.position
  recent : ∀ ⦃index : Nat⦄ ⦃worker : Worker⦄, workers[index]? = some worker → worker.ticket ≤ admissions
  distinct : ∀ ⦃first second : Nat⦄ ⦃worker other : Worker⦄, workers[first]? = some worker →
    workers[second]? = some other → worker.ticket = other.ticket → worker.ticket = 0 ∨ first = second
  held : ∀ ⦃number : Nat⦄, outstanding number ≠ [] →
    ∃ (index : Nat) (worker : Worker), workers[index]? = some worker ∧ worker.ticket = number
  idle : outstanding 0 = []

section Crew

variable {workers : List Worker} {admissions later index : Nat} {outstanding : Nat → List Claim}
  {worker next : Worker} {claims : List Claim}

theorem Crew.start (jobs : List (List Arrival)) :
    Crew (jobs.map fun arrivals => { program := processArrivals arrivals }) 0 fun _ => [] := by
  have starts : ∀ {index : Nat} {worker : Worker},
      (jobs.map fun arrivals => ({ program := processArrivals arrivals } : Worker))[index]? =
        some worker → ∃ arrivals, worker = { program := processArrivals arrivals } := by
    intro index worker found
    rw [List.getElem?_map, Option.map_eq_some_iff] at found
    obtain ⟨arrivals, -, rfl⟩ := found
    exact ⟨arrivals, rfl⟩
  refine ⟨?_, ?_, ?_, ?_, ?_, rfl⟩
  · intro index worker found
    obtain ⟨arrivals, rfl⟩ := starts found
    exact settles_processArrivals arrivals
  · intro index worker _ claim member
    cases member
  · intro index worker found
    obtain ⟨arrivals, rfl⟩ := starts found
    exact Nat.le_refl 0
  · intro first second worker other found _ _
    obtain ⟨arrivals, rfl⟩ := starts found
    exact Or.inl rfl
  · intro number none
    exact absurd rfl none

/-- One worker moves on: it keeps its admission, or has settled it and begins a new one. -/
theorem Crew.set (crew : Crew workers admissions outstanding)
    (found : workers[index]? = some worker) (grows : admissions ≤ later)
    (recent : next.ticket ≤ later)
    (own : next.ticket = worker.ticket ∨
      admissions < next.ticket ∧ outstanding worker.ticket = [])
    (settles : Settles (claims.map Claim.payload) next.program)
    (positions : ∀ claim ∈ claims, claim.position = next.position)
    (idle : next.ticket = 0 → claims = []) :
    Crew (workers.set index next) later (Function.update outstanding next.ticket claims) := by
  have bound : index < workers.length := (List.getElem?_eq_some_iff.mp found).1
  have here : (workers.set index next)[index]? = some next := List.getElem?_set_self bound
  have elsewhere : ∀ {other : Nat}, index ≠ other →
      (workers.set index next)[other]? = workers[other]? :=
    fun differs => List.getElem?_set_ne differs
  -- The other workers keep their admissions, which are not the one that changes.
  have apart : ∀ {other : Nat} {colleague : Worker}, index ≠ other →
      workers[other]? = some colleague → colleague.ticket = next.ticket → next.ticket = 0 := by
    intro other colleague differs listed same
    rcases own with kept | ⟨fresh, -⟩
    · rcases crew.distinct found listed (kept.symm.trans same.symm) with zero | equal
      · exact kept.trans zero
      · exact absurd equal differs
    · have bounded := crew.recent listed
      omega
  have kept : ∀ {other : Nat} {colleague : Worker}, index ≠ other →
      workers[other]? = some colleague →
        Function.update outstanding next.ticket claims colleague.ticket =
          outstanding colleague.ticket := by
    intro other colleague differs listed
    by_cases same : colleague.ticket = next.ticket
    · have zero := apart differs listed same
      rw [same, Function.update_self, idle zero, zero, crew.idle]
    · rw [Function.update_of_ne same]
  have cases_of_listed : ∀ {other : Nat} {colleague : Worker},
      (workers.set index next)[other]? = some colleague →
        (index = other ∧ colleague = next) ∨ (index ≠ other ∧ workers[other]? = some colleague) := by
    intro other colleague listed
    by_cases same : index = other
    · rw [← same, here] at listed
      exact .inl ⟨same, (Option.some.inj listed).symm⟩
    · exact .inr ⟨same, (elsewhere same).symm.trans listed⟩
  refine ⟨?_, ?_, ?_, ?_, ?_, ?_⟩
  · intro other colleague listed
    rcases cases_of_listed listed with ⟨-, rfl⟩ | ⟨differs, listed⟩
    · rw [Function.update_self]
      exact settles
    · rw [kept differs listed]
      exact crew.settles listed
  · intro other colleague listed
    rcases cases_of_listed listed with ⟨-, rfl⟩ | ⟨differs, listed⟩
    · rw [Function.update_self]
      exact positions
    · rw [kept differs listed]
      exact crew.positions listed
  · intro other colleague listed
    rcases cases_of_listed listed with ⟨-, rfl⟩ | ⟨-, listed⟩
    · exact recent
    · exact Nat.le_trans (crew.recent listed) grows
  · intro first second colleague other listed alsoListed tickets
    rcases cases_of_listed listed with ⟨firstHere, rfl⟩ | ⟨firstDiffers, held⟩
    · rcases cases_of_listed alsoListed with ⟨secondHere, -⟩ | ⟨secondDiffers, alsoHeld⟩
      · exact Or.inr (firstHere.symm.trans secondHere)
      · exact Or.inl (apart secondDiffers alsoHeld tickets.symm)
    · rcases cases_of_listed alsoListed with ⟨-, rfl⟩ | ⟨-, alsoHeld⟩
      · exact Or.inl (tickets.trans (apart firstDiffers held tickets))
      · exact crew.distinct held alsoHeld tickets
  · intro number some
    by_cases same : number = next.ticket
    · exact ⟨index, next, here, same.symm⟩
    · rw [Function.update_of_ne same] at some
      obtain ⟨other, colleague, listed, rfl⟩ := crew.held some
      have differs : index ≠ other := by
        rintro rfl
        rw [found] at listed
        cases listed
        rcases own with kept | ⟨-, settled⟩
        · exact same kept.symm
        · exact some settled
      exact ⟨other, colleague, by rw [elsewhere differs, listed], rfl⟩
  · by_cases zero : next.ticket = 0
    · rw [zero, Function.update_self, idle zero]
    · rw [Function.update_of_ne (Ne.symm zero), crew.idle]

/-- When every worker is done, every event has been logged. -/
theorem Crew.settled (crew : Crew workers admissions outstanding)
    (finished : ∀ worker ∈ workers, worker.program.isDone = true) (number : Nat) :
    outstanding number = [] := by
  by_contra some
  obtain ⟨index, worker, listed, rfl⟩ := crew.held some
  have done := finished worker (List.mem_of_getElem? listed)
  have settles := crew.settles listed
  cases program : worker.program with
  | done value =>
      rw [program] at settles
      cases settles with
      | done _ ended => exact some (List.map_eq_nil_iff.mp ended)
  | call op next =>
      rw [program] at done
      cases done

end Crew

/-! ## The invariant of a run -/

/-- A call that neither admits a transaction nor logs a lifecycle event. -/
def quiet : PipelineOp → Bool
  | .admitOutcome _ => false
  | .tryEnqueue op => (loggedLifecycle op).isNone
  | _ => true

/-- The record is the events of the admissions in some order. `sequential` lists them in admission
order, those that are still to be logged included. -/
structure Interleaved (config : SchedulerConfig) (system : System) (sequential : List Logged)
    (outstanding : Nat → List Claim) : Prop where
  invariant : RepresentationInvariant config system.live.scheduler
  occupies : Occupies (sequential.map Logged.touch) system.live.scheduler.pending
  sorted : sequential.Pairwise fun earlier later => earlier.ticket ≤ later.ticket
  bounded : ∀ logged ∈ sequential, logged.ticket ≤ system.admissions
  written : system.live.loggedPayloads.filter isLifecycle = system.record.map Logged.payload
  each : ∀ number, (sequential.filter fun logged => logged.ticket = number) =
    (system.record.filter fun logged => logged.ticket = number) ++
      (outstanding number).map (Logged.mk number)
  ordered : system.record.Pairwise fun earlier later =>
    earlier.touch.Conflicts later.touch → earlier.ticket ≤ later.ticket
  crew : Crew system.workers system.admissions outstanding

section Interleaved

variable {config : SchedulerConfig} {system : System} {sequential : List Logged}
  {outstanding : Nat → List Claim} {index : Nat} {worker : Worker}

theorem Interleaved.start (config : SchedulerConfig) (nextSeqId : UInt64)
    (jobs : List (List Arrival)) :
    Interleaved config (System.start nextSeqId jobs) [] fun _ => [] where
  invariant := .empty config
  occupies := .empty
  sorted := .nil
  bounded := by
    intro logged member
    cases member
  written := rfl
  each := fun _ => rfl
  ordered := .nil
  crew := .start jobs

/-- A quiet call changes neither the pending set nor the lifecycle events logged. -/
theorem serve_quiet (config : SchedulerConfig) (state : LiveState) {op : PipelineOp} (silent : quiet op = true) :
    state.scheduler.SameAdmission (serve config state op).2.scheduler ∧
      (serve config state op).2.loggedPayloads.filter isLifecycle =
        state.loggedPayloads.filter isLifecycle ∧
      ∀ phase, admissionProtocol.advance phase op (serve config state op).1 = phase := by
  have same : state.scheduler.SameAdmission state.scheduler := ⟨_, _, _, rfl⟩
  cases op with
  | admitOutcome tx => cases silent
  | tryEnqueue op =>
      have none : loggedLifecycle op = none := Option.isNone_iff_eq_none.mp silent
      refine ⟨same, ?_, fun phase => ?_⟩
      · exact (filter_loggedPayloads_enqueue state op).trans (by rw [none]; exact List.append_nil _)
      · dsimp only [admissionProtocol, serve]
        rw [none]
        rfl
  | invalidateCandidateHash hash => exact ⟨⟨_, _, _, rfl⟩, rfl, fun _ => rfl⟩
  | registerCandidates candidates =>
      exact ⟨state.scheduler.sameAdmission_registerCandidates candidates, rfl, fun _ => rfl⟩
  | fetchAddSeqId | observeDropReason | getPendingTransactions | snapshotReady
  | observeSearcherBatch | enqueueSimulationTask => exact ⟨same, rfl, fun _ => rfl⟩

theorem logs_of_quiet {op : PipelineOp} (silent : quiet op = true) : worker.logs op = [] := by
  cases op with
  | tryEnqueue op =>
      rw [Worker.logs, Option.isNone_iff_eq_none.mp silent]
      rfl
  | admitOutcome => cases silent
  | _ => rfl

/-- A worker makes a quiet call. -/
theorem Interleaved.quiet (interleaved : Interleaved config system sequential outstanding)
    (found : system.workers[index]? = some worker) {op : PipelineOp}
    {next : PipelineReply op → Pipeline} (program : worker.program = .call op next)
    (silent : LiveRpc.quiet op = true) :
    Interleaved config
      { live := (serve config system.live op).2
        workers := system.workers.set index
          { worker.after system.admissions op with program := next (serve config system.live op).1 }
        admissions := admissionsAfter system.admissions op
        record := system.record ++ worker.logs op } sequential outstanding := by
  obtain ⟨⟨candidates, head, stale, same⟩, logged, phases⟩ :=
    serve_quiet config system.live silent
  have settles := interleaved.crew.settles found
  rw [program] at settles
  cases settles with
  | call permitted onward =>
      have later := onward _ (serve_promises config system.live _ op)
      rw [phases] at later
      have unmoved : worker.after system.admissions op = worker ∧
          admissionsAfter system.admissions op = system.admissions := by
        cases op <;> first | exact ⟨rfl, rfl⟩ | cases silent
      rw [logs_of_quiet silent, List.append_nil, unmoved.1, unmoved.2]
      have recent := interleaved.crew.recent found
      have idle : worker.ticket = 0 → outstanding worker.ticket = [] := by
        intro zero
        rw [zero, interleaved.crew.idle]
      have crew : Crew (system.workers.set index
          { worker with program := next (serve config system.live op).1 }) system.admissions
          (Function.update outstanding worker.ticket (outstanding worker.ticket)) :=
        interleaved.crew.set found (Nat.le_refl _) recent (Or.inl rfl) later
          (interleaved.crew.positions found) idle
      rw [Function.update_eq_self] at crew
      refine ⟨?_, ?_, interleaved.sorted, interleaved.bounded, ?_, interleaved.each,
        interleaved.ordered, crew⟩
      · rw [same]
        exact interleaved.invariant.congr rfl rfl rfl rfl rfl rfl rfl
      · rw [same]
        exact interleaved.occupies
      · rw [logged]
        exact interleaved.written

/-- A worker has a transaction admitted. -/
theorem Interleaved.admission (interleaved : Interleaved config system sequential outstanding)
    (found : system.workers[index]? = some worker) {tx : ValidatedTransaction}
    {next : PipelineReply (.admitOutcome tx) → Pipeline}
    (program : worker.program = .call (.admitOutcome tx) next) :
    ∃ (sequential : List Logged) (outstanding : Nat → List Claim), Interleaved config
      { live := (serve config system.live (.admitOutcome tx)).2
        workers := system.workers.set index
          { worker.after system.admissions (.admitOutcome tx) with
            program := next (serve config system.live (.admitOutcome tx)).1 }
        admissions := system.admissions + 1
        record := system.record ++ worker.logs (.admitOutcome tx) } sequential outstanding := by
  have settles := interleaved.crew.settles found
  rw [program] at settles
  cases settles with
  | call permitted onward =>
      have settled : outstanding worker.ticket = [] := List.map_eq_nil_iff.mp permitted
      have silent : worker.logs (.admitOutcome tx) = [] := rfl
      have later := onward _ (serve_promises config system.live _ (.admitOutcome tx))
      let outcome := (system.live.scheduler.admitTx tx config).1
      let claims := admissionClaims tx outcome
      let number := system.admissions + 1
      have unnumbered : ∀ logged ∈ sequential, logged.ticket ≠ number := fun logged member same => by
        have bounded := interleaved.bounded logged member
        omega
      have before : (sequential.filter fun logged => logged.ticket = number) = [] :=
        List.filter_eq_nil_iff.mpr fun logged member same =>
          unnumbered logged member (of_decide_eq_true same)
      have each := interleaved.each number
      rw [before] at each
      obtain ⟨unrecorded, unwritten⟩ := List.append_eq_nil_iff.mp each.symm
      refine ⟨sequential ++ claims.map (Logged.mk number), Function.update outstanding number claims,
        interleaved.invariant.admitTx tx, ?_, ?_, ?_, ?_, ?_, ?_, ?_⟩
      · have admitted := interleaved.occupies.admission interleaved.invariant tx
        rw [List.map_append, List.map_map]
        exact admitted
      · refine List.pairwise_append.mpr ⟨interleaved.sorted, ?_, ?_⟩
        · exact List.pairwise_map.mpr (List.pairwise_of_forall fun _ _ => Nat.le_refl number)
        · intro earlier first logged second
          obtain ⟨claim, -, rfl⟩ := List.mem_map.mp second
          exact Nat.le_succ_of_le (interleaved.bounded earlier first)
      · intro logged member
        rcases List.mem_append.mp member with old | new
        · exact Nat.le_succ_of_le (interleaved.bounded logged old)
        · obtain ⟨claim, -, rfl⟩ := List.mem_map.mp new
          exact Nat.le_refl number
      · exact interleaved.written.trans (by rw [silent, List.append_nil])
      · intro other
        rw [silent, List.append_nil, List.filter_append]
        by_cases same : other = number
        · subst same
          rw [before, unrecorded, Function.update_self, List.nil_append, List.nil_append]
          refine List.filter_eq_self.mpr fun logged member => ?_
          obtain ⟨claim, -, rfl⟩ := List.mem_map.mp member
          exact decide_eq_true rfl
        · rw [Function.update_of_ne same, ← interleaved.each other]
          have none : ((claims.map (Logged.mk number)).filter fun logged =>
              logged.ticket = other) = [] := by
            refine List.filter_eq_nil_iff.mpr fun logged member ticket => ?_
            obtain ⟨claim, -, rfl⟩ := List.mem_map.mp member
            exact same (of_decide_eq_true ticket).symm
          rw [none, List.append_nil]
      · rw [silent, List.append_nil]
        exact interleaved.ordered
      · refine interleaved.crew.set found (Nat.le_succ _) (Nat.le_refl number)
          (Or.inr ⟨Nat.lt_succ_self _, settled⟩) ?_ ?_ ?_
        · rw [map_payload_admissionClaims]
          exact later
        · exact fun claim member => position_of_mem_admissionClaims member
        · intro zero
          cases zero

/-- A worker logs a lifecycle event. -/
theorem Interleaved.enqueue (interleaved : Interleaved config system sequential outstanding)
    (found : system.workers[index]? = some worker) {op : StorageWriteOp}
    {next : PipelineReply (.tryEnqueue op) → Pipeline}
    (program : worker.program = .call (.tryEnqueue op) next) {payload : EventPayload}
    (logs : loggedLifecycle op = some payload) (inOrder : system.InOrder index) :
    ∃ outstanding : Nat → List Claim, Interleaved config
      { live := (serve config system.live (.tryEnqueue op)).2
        workers := system.workers.set index
          { worker with program := next (serve config system.live (.tryEnqueue op)).1 }
        admissions := system.admissions
        record := system.record ++ worker.logs (.tryEnqueue op) } sequential outstanding := by
  have settles := interleaved.crew.settles found
  rw [program] at settles
  cases settles with
  | call permitted onward =>
      have later := onward _ (serve_promises config system.live _ (.tryEnqueue op))
      have first := permitted payload logs
      rw [List.head?_map, Option.map_eq_some_iff] at first
      obtain ⟨claim, head, same⟩ := first
      obtain ⟨rest, split⟩ : ∃ rest, outstanding worker.ticket = claim :: rest :=
        List.head?_eq_some_iff.mp head
      have position := interleaved.crew.positions found claim (by rw [split]; exact List.mem_cons_self)
      have recorded : worker.logs (.tryEnqueue op) = [⟨worker.ticket, claim⟩] := by
        rw [Worker.logs, logs, Option.bind_some, ← position, ← same, claimOf_claim]
        rfl
      have busy : worker.ticket ≠ 0 := by
        intro zero
        have idle := interleaved.crew.idle
        rw [← zero, split] at idle
        cases idle
      have whole := interleaved.each worker.ticket
      rw [split, List.map_cons] at whole
      refine ⟨Function.update outstanding worker.ticket rest, interleaved.invariant,
        interleaved.occupies, interleaved.sorted, interleaved.bounded, ?_, ?_, ?_, ?_⟩
      · rw [recorded, List.map_append, ← interleaved.written]
        exact (filter_loggedPayloads_enqueue system.live op).trans (by rw [logs, ← same]; rfl)
      · intro number
        rw [recorded, List.filter_append]
        by_cases here : number = worker.ticket
        · rw [here, Function.update_self, whole, List.filter_cons_of_pos (by simp), List.filter_nil,
            List.append_assoc]
          rfl
        · rw [Function.update_of_ne here, interleaved.each number,
            List.filter_cons_of_neg (by simpa using Ne.symm here), List.filter_nil, List.append_nil]
      · rw [recorded]
        refine List.pairwise_append.mpr ⟨interleaved.ordered, List.pairwise_singleton _ _, ?_⟩
        intro earlier member logged alone conflicts
        have next : logged ∈ system.nextLogged index := by
          rw [System.nextLogged, found]
          dsimp only
          rw [program]
          dsimp only
          rw [recorded]
          exact alone
        exact inOrder logged next earlier member conflicts
      · have settles : Settles (rest.map Claim.payload)
            (next (serve config system.live (.tryEnqueue op)).1) := by
          dsimp only [admissionProtocol] at later
          rw [logs, split] at later
          exact later
        have recent := interleaved.crew.recent found
        have positions : ∀ other ∈ rest, other.position = worker.position := fun other member =>
          interleaved.crew.positions found other (by rw [split]; exact List.mem_cons_of_mem _ member)
        exact interleaved.crew.set found (Nat.le_refl _) recent (Or.inl rfl) settles positions
          fun zero => absurd zero busy

/-- **A step that logs in order keeps the invariant.** -/
theorem Interleaved.step (interleaved : Interleaved config system sequential outstanding)
    (inOrder : system.InOrder index) :
    ∃ (sequential : List Logged) (outstanding : Nat → List Claim),
      Interleaved config (system.step config index) sequential outstanding := by
  unfold System.step
  split
  case h_1 => exact ⟨sequential, outstanding, interleaved⟩
  case h_2 worker found =>
    split
    case h_1 => exact ⟨sequential, outstanding, interleaved⟩
    case h_2 op next program =>
      cases silent : LiveRpc.quiet op with
      | true => exact ⟨sequential, outstanding, interleaved.quiet found program silent⟩
      | false =>
          cases op with
          | admitOutcome tx => exact interleaved.admission found program
          | tryEnqueue op =>
              obtain ⟨payload, logs⟩ := Option.isSome_iff_exists.mp
                (Option.isNone_eq_false_iff.mp silent)
              exact ⟨sequential, interleaved.enqueue found program logs inOrder⟩
          | _ => cases silent

/-- **A run that logs in order keeps the invariant.** -/
theorem Interleaved.run (interleaved : Interleaved config system sequential outstanding)
    {schedule : List Nat} (inOrder : RunsInOrder config system schedule) :
    ∃ (sequential : List Logged) (outstanding : Nat → List Claim),
      Interleaved config (system.run config schedule) sequential outstanding := by
  induction schedule generalizing system sequential outstanding with
  | nil => exact ⟨sequential, outstanding, interleaved⟩
  | cons index rest ih =>
      obtain ⟨later, remaining, stepped⟩ := interleaved.step inOrder.1
      exact ih stepped inOrder.2

/-! ## The end of a run -/

/-- When everything is logged, the log tracks the pending set. -/
theorem Interleaved.mem_pendingHashes
    (interleaved : Interleaved config system sequential outstanding)
    (settled : ∀ number, outstanding number = []) (hash : TxHash) :
    hash ∈ (MempoolState.replay {} system.live.loggedPayloads).pendingHashes ↔
      ∃ tx, system.live.scheduler.pending[hash]? = some tx := by
  have each : ∀ number, (sequential.filter fun logged => logged.ticket = number) =
      system.record.filter fun logged => logged.ticket = number := by
    intro number
    have whole := interleaved.each number
    rwa [settled number, List.map_nil, List.append_nil] at whole
  have items : ∀ item, ((sequential.map Logged.touch).filter fun touch => touch.item = item) =
      (system.record.map Logged.touch).filter fun touch => touch.item = item := fun item =>
    filter_map_eq_of_conflicts
      (fun first second left right => conflicts_of_item first second (of_decide_eq_true left)
        (of_decide_eq_true right))
      interleaved.sorted interleaved.ordered each
  have claims : ∀ place, (sequential.map Logged.touch).filter (Touch.claims place) =
      (system.record.map Logged.touch).filter (Touch.claims place) := fun place =>
    filter_map_eq_of_conflicts conflicts_of_claims interleaved.sorted interleaved.ordered each
  have places : placeOf (system.record.map Logged.touch) hash =
      (system.live.scheduler.pending[hash]?).map positionOf := by
    rw [← interleaved.occupies.places, ← placeOf_filter, ← items, placeOf_filter]
  have touches : system.record.map Logged.touch =
      (system.record.map Logged.claim).map Claim.touch := by
    rw [List.map_map]
    rfl
  have tracks : MempoolState.Tracks (MempoolState.replay {} system.live.loggedPayloads)
      (system.record.map Logged.touch) := by
    have payloads : system.record.map Logged.payload =
        (system.record.map Logged.claim).map Claim.payload := by
      rw [List.map_map]
      rfl
    rw [← MempoolState.replay_filter, interleaved.written, payloads, touches]
    apply MempoolState.Tracks.replay
    intro before claim after whole
    have split : system.record.map Logged.touch =
        before.map Claim.touch ++ claim.touch :: after.map Claim.touch := by
      rw [touches, whole, List.map_append, List.map_cons]
    exact interleaved.occupies.coherent.fitsItem items split
  rw [MempoolState.mem_pendingHashes]
  constructor
  · intro pending
    have placed := tracks.placed hash pending
    rwa [places, Option.isSome_map, Option.isSome_iff_exists] at placed
  · rintro ⟨tx, stored⟩
    have placed : placeOf (system.record.map Logged.touch) hash = some (positionOf tx) := by
      rw [places, stored]
      rfl
    have occupied := interleaved.occupies.occupantOf_eq_some_iff.mpr ⟨tx, stored, rfl⟩
    refine tracks.stays hash (positionOf tx) ?_ placed
    rw [← lastClaimantOf_filter, ← claims, lastClaimantOf_filter]
    exact lastClaimantOf_eq_of_occupantOf occupied

end Interleaved

/-- **Workers that log conflicting events in admission order do not make the log diverge.** In every
interleaving of any number of workers in which each step does so, the log of the finished run
replays to the scheduler's pending set. -/
theorem workers_pending (config : SchedulerConfig) (nextSeqId : UInt64) (jobs : List (List Arrival))
    (schedule : List Nat) (inOrder : RunsInOrder config (System.start nextSeqId jobs) schedule)
    (finished : ((System.start nextSeqId jobs).run config schedule).Finished) (hash : TxHash) :
    let final := (System.start nextSeqId jobs).run config schedule
    hash ∈ (MempoolState.replay {} final.live.loggedPayloads).pendingHashes ↔
      ∃ tx, final.live.scheduler.pending[hash]? = some tx := by
  obtain ⟨sequential, outstanding, interleaved⟩ :=
    (Interleaved.start config nextSeqId jobs).run inOrder
  exact interleaved.mem_pendingHashes (interleaved.crew.settled finished) hash

/-- Two workers with a transaction each; the second pays more for the same slot. -/
def competingJobs : List (List Arrival) :=
  [[sampleArrival (sampleLiveTx 10 1 0 100)], [sampleArrival (sampleLiveTx 11 1 0 200)]]

/-- The second worker is admitted before the first one logs, and logs after it. -/
theorem competingJobs_pending :
    let final := (System.start 0 competingJobs).run {}
      ([0, 1] ++ List.replicate 24 0 ++ List.replicate 24 1)
    (11 : TxHash) ∈ (MempoolState.replay {} final.live.loggedPayloads).pendingHashes ↔
      ∃ tx, final.live.scheduler.pending[(11 : TxHash)]? = some tx :=
  workers_pending {} 0 competingJobs ([0, 1] ++ List.replicate 24 0 ++ List.replicate 24 1)
    (by decide +kernel) (by decide +kernel) 11

/-- The second worker replaces the transaction of the first and logs that before the first worker
has logged anything. The log ends with the replaced transaction pending. -/
theorem competingJobs_diverge :
    let final := (System.start 0 competingJobs).run {}
      ([0] ++ List.replicate 24 1 ++ List.replicate 24 0)
    final.Finished ∧
      (10 : TxHash) ∈ (MempoolState.replay {} final.live.loggedPayloads).pendingHashes ∧
      final.live.scheduler.pending[(10 : TxHash)]? = none := by
  decide +kernel

end Mempulse.LiveRpc
