import Mempulse.LiveRpc.Pipeline
import Mempulse.Replay.Slots
import Mempulse.Scheduler.Invariant

/-!
# The events of an admission

The lifecycle events a worker logs for one admission, and what they do. Read as an occupancy log,
they move the log from the scheduler's pending set before the admission to the one after it: a
replacement retires the incumbent and then claims the slot, a refused transaction retires from
a slot it does not have, and a queue transition claims a slot its transaction already holds. The
replay model follows that log, and announces the verdicts of the scheduler's own queues.
-/

set_option autoImplicit false

namespace Mempulse.LiveRpc

open Std EventLog Library Scheduler Replay

/-- The sender and the nonce of a transaction. -/
def positionOf (tx : ValidatedTransaction) : Address × UInt64 := (tx.decoded.sender, tx.decoded.nonce)

/-- The lifecycle events of a decision, in the order they are logged. -/
def decisionEvents (decoded : TxDecoded) (decision : SchedulerPersistenceDecision)
    (queueTransitions : List SchedulerQueueTransition) : List EventPayload :=
  (decision.replacedHash.toList.map fun replacedHash =>
      .txReplaced { hash := replacedHash, replacedBy := decoded.hash }) ++
    ((if decision.emitsDecoded then [.txDecoded decoded] else []) ++
      ((decision.droppedReason.toList.map fun reason =>
          .txDropped { hash := decoded.hash, reason := reason }) ++
        queueTransitions.map queueTransitionPayload))

/-- The lifecycle events of an admission. -/
def admissionEvents (tx : ValidatedTransaction) (outcome : SchedulerAdmissionOutcome) :
    List EventPayload :=
  decisionEvents tx.decoded (.fromAdmission outcome.admission) outcome.queueTransitions

theorem touchOf_queueTransitionPayload (position : Address × UInt64)
    (transition : SchedulerQueueTransition) :
    touchOf position (queueTransitionPayload transition) =
      some (.claim transition.hash (transition.sender, transition.nonce)) := by
  unfold queueTransitionPayload
  split <;> rfl

theorem isLifecycle_queueTransitionPayload (transition : SchedulerQueueTransition) :
    isLifecycle (queueTransitionPayload transition) = true := by
  unfold queueTransitionPayload
  split <;> rfl

/-! ## Claims -/

/-- An event that touches the slots, with its touch. -/
def claimOf (position : Address × UInt64) (payload : EventPayload) : Option Claim :=
  match spelled : touchOf position payload with
  | some touch => some ⟨touch, payload, position, spelled⟩
  | none => none

/-- The claim of a queue transition. -/
def transitionClaim (position : Address × UInt64) (transition : SchedulerQueueTransition) : Claim :=
  ⟨.claim transition.hash (transition.sender, transition.nonce), queueTransitionPayload transition,
    position, touchOf_queueTransitionPayload position transition⟩

/-- The claims that come before the queue transitions. -/
def decisionClaims (tx : ValidatedTransaction) : SchedulerAdmission → List Claim
  | .admitted => [⟨.claim tx.hash (positionOf tx), .txDecoded tx.decoded, positionOf tx, rfl⟩]
  | .duplicate => []
  | .replaced replacedHash =>
    [⟨.retire replacedHash (positionOf tx),
        .txReplaced { hash := replacedHash, replacedBy := tx.hash }, positionOf tx, rfl⟩,
      ⟨.claim tx.hash (positionOf tx), .txDecoded tx.decoded, positionOf tx, rfl⟩]
  | .underpricedReplacement =>
    [⟨.retire tx.hash (positionOf tx),
      .txDropped { hash := tx.hash, reason := "underpriced_replacement" }, positionOf tx, rfl⟩]
  | .senderLimitReached =>
    [⟨.retire tx.hash (positionOf tx),
      .txDropped { hash := tx.hash, reason := "sender_limit_reached" }, positionOf tx, rfl⟩]

/-- The events of an admission with what they say about the slots. -/
def admissionClaims (tx : ValidatedTransaction) (outcome : SchedulerAdmissionOutcome) : List Claim :=
  decisionClaims tx outcome.admission ++
    outcome.queueTransitions.map (transitionClaim (positionOf tx))

theorem map_payload_admissionClaims (tx : ValidatedTransaction)
    (outcome : SchedulerAdmissionOutcome) :
    (admissionClaims tx outcome).map Claim.payload = admissionEvents tx outcome := by
  have transitions : (outcome.queueTransitions.map (transitionClaim (positionOf tx))).map
      Claim.payload = outcome.queueTransitions.map queueTransitionPayload := by
    rw [List.map_map]
    rfl
  rw [admissionClaims, List.map_append, transitions, admissionEvents, decisionEvents]
  cases outcome.admission <;> rfl

/-! ## The pending set as an occupancy log -/

/-- The log says where the pending transactions sit. -/
structure Occupies (log : List (Touch TxHash (Address × UInt64)))
    (pending : ExtTreeMap TxHash ValidatedTransaction) : Prop where
  coherent : Coherent log
  places : ∀ hash, placeOf log hash = (pending[hash]?).map positionOf

section Occupies

variable {log : List (Touch TxHash (Address × UInt64))}
  {pending : ExtTreeMap TxHash ValidatedTransaction} {hash : TxHash} {tx : ValidatedTransaction}

theorem Occupies.empty : Occupies [] ∅ where
  coherent := .nil
  places := by simp

theorem Occupies.occupantOf_eq_some_iff (occupies : Occupies log pending)
    {position : Address × UInt64} :
    occupantOf log position = some hash ↔ ∃ tx, pending[hash]? = some tx ∧ positionOf tx = position := by
  rw [occupies.coherent.occupantOf_eq_some_iff, occupies.places, Option.map_eq_some_iff]

theorem Occupies.occupantOf_eq_none (occupies : Occupies log pending) {position : Address × UInt64}
    (free : ∀ (hash : TxHash) (tx : ValidatedTransaction), pending[hash]? = some tx →
      positionOf tx ≠ position) : occupantOf log position = none := by
  cases occupied : occupantOf log position with
  | none => rfl
  | some hash =>
      obtain ⟨tx, stored, here⟩ := occupies.occupantOf_eq_some_iff.mp occupied
      exact absurd here (free hash tx stored)

/-- A new transaction claims a free slot. -/
theorem Occupies.claim (occupies : Occupies log pending) (fresh : pending[tx.hash]? = none)
    (free : ∀ (hash : TxHash) (other : ValidatedTransaction), pending[hash]? = some other →
      positionOf other ≠ positionOf tx) :
    Occupies (log ++ [.claim tx.hash (positionOf tx)]) (pending.insert tx.hash tx) where
  coherent := by
    refine .snoc occupies.coherent ⟨Or.inl ?_, Or.inl (occupies.occupantOf_eq_none free)⟩
    rw [occupies.places, fresh]
    rfl
  places := by
    intro hash
    rw [placeOf_append_singleton, getElem?_insert_eq]
    dsimp only [placeNext]
    split
    case isTrue => rfl
    case isFalse => exact occupies.places hash

/-- A pending transaction claims the slot it holds. -/
theorem Occupies.claim_again (occupies : Occupies log pending) (stored : pending[hash]? = some tx) :
    Occupies (log ++ [.claim hash (positionOf tx)]) pending where
  coherent := by
    refine .snoc occupies.coherent ⟨Or.inr ?_, Or.inr ?_⟩
    · rw [occupies.places, stored]
      rfl
    · exact occupies.occupantOf_eq_some_iff.mpr ⟨tx, stored, rfl⟩
  places := by
    intro other
    rw [placeOf_append_singleton]
    dsimp only [placeNext]
    split
    case isTrue same =>
      rw [← same, stored]
      rfl
    case isFalse => exact occupies.places other

/-- A pending transaction retires from its slot. -/
theorem Occupies.retire (occupies : Occupies log pending) (stored : pending[hash]? = some tx) :
    Occupies (log ++ [.retire hash (positionOf tx)]) (pending.erase hash) where
  coherent := by
    refine .snoc occupies.coherent (Or.inr ?_)
    rw [occupies.places, stored]
    rfl
  places := by
    intro other
    rw [placeOf_append_singleton, getElem?_erase_eq]
    dsimp only [placeNext]
    split
    case isTrue => rfl
    case isFalse => exact occupies.places other

/-- A transaction that is not pending retires from nothing. -/
theorem Occupies.retire_absent (occupies : Occupies log pending) (absent : pending[hash]? = none)
    (position : Address × UInt64) : Occupies (log ++ [.retire hash position]) pending where
  coherent := by
    refine .snoc occupies.coherent (Or.inl ?_)
    rw [occupies.places, absent]
    rfl
  places := by
    intro other
    rw [placeOf_append_singleton]
    dsimp only [placeNext]
    split
    case isTrue same =>
      rw [← same, absent]
      rfl
    case isFalse => exact occupies.places other

end Occupies

/-! ## Queue transitions -/

/-- A queue transition of an admission is a position of the sender's queue after it. -/
theorem mem_queueTransitions {state : SchedulerState} {sender : Address}
    {previous : List SenderQueuePosition} {transition : SchedulerQueueTransition}
    (member : transition ∈ state.queueTransitions sender previous) :
    transition.sender = sender ∧
      ⟨transition.hash, transition.nonce, transition.state⟩ ∈ state.senderQueuePositions sender := by
  obtain ⟨position, listed, made⟩ := List.mem_filterMap.mp member
  split at made
  case isTrue => cases made
  case isFalse =>
    cases made
    exact ⟨rfl, listed⟩

/-- The transitions of an outcome announce positions of the queues of a state. -/
def AnnouncesQueues (state : SchedulerState) (transitions : List SchedulerQueueTransition) : Prop :=
  ∀ transition ∈ transitions, ∃ queue, state.senderQueues[transition.sender]? = some queue ∧
    ((transition.nonce, transition.hash), transition.state) ∈
      GapCursor.scan checkedSucc {} queue.toList

theorem announcesQueues_queueTransitions {state : SchedulerState} (seating : Seating state)
    (sender : Address) (previous : List SenderQueuePosition) :
    AnnouncesQueues state (state.queueTransitions sender previous) := by
  intro transition member
  obtain ⟨same, listed⟩ := mem_queueTransitions member
  rw [SchedulerState.senderQueuePositions] at listed
  split at listed
  case h_1 => cases listed
  case h_2 queue queued =>
    rw [seating.walkQueue_eq queued, queuePositions] at listed
    obtain ⟨visited, scanned, made⟩ := List.mem_map.mp listed
    simp only [SenderQueuePosition.mk.injEq] at made
    obtain ⟨hash, nonce, verdict⟩ := made
    refine ⟨queue, same ▸ queued, ?_⟩
    rw [← hash, ← nonce, ← verdict]
    exact scanned

theorem announcesQueues_admission {config : SchedulerConfig} {state : SchedulerState}
    (invariant : RepresentationInvariant config state) (tx : ValidatedTransaction) :
    AnnouncesQueues (state.admitTx tx config).2 (state.admitTx tx config).1.queueTransitions := by
  have after := (invariant.admitTx tx).seating
  have none : ∀ state, AnnouncesQueues state [] := fun _ _ member => by cases member
  revert after
  refine SchedulerState.admit_cases (motive := fun outcome => Seating outcome.2 →
    AnnouncesQueues outcome.2 outcome.1.queueTransitions) ?duplicate ?dangling ?replaced
    ?underpriced ?limited ?admitted
  case duplicate => exact fun _ _ => none _
  case dangling => exact fun _ _ _ _ after => announcesQueues_queueTransitions after _ _
  case replaced => exact fun _ _ _ _ _ _ _ _ after => announcesQueues_queueTransitions after _ _
  case underpriced => exact fun _ _ _ _ _ _ _ => none _
  case limited => exact fun _ _ _ _ => none _
  case admitted => exact fun _ _ _ after => announcesQueues_queueTransitions after _ _

theorem mem_toList_of_mem_scan {queue : SenderQueue}
    {visited : (UInt64 × TxHash) × SchedulerQueueState}
    (member : visited ∈ GapCursor.scan checkedSucc {} queue.toList) : visited.1 ∈ queue.toList := by
  rw [← GapCursor.map_fst_scan checkedSucc {} queue.toList]
  exact List.mem_map_of_mem member

/-- A scan gives one verdict to each nonce. -/
theorem scan_functional {queue : SenderQueue} {first second : (UInt64 × TxHash) × SchedulerQueueState}
    (left : first ∈ GapCursor.scan checkedSucc {} queue.toList)
    (right : second ∈ GapCursor.scan checkedSucc {} queue.toList) (same : first.1 = second.1) :
    first.2 = second.2 := by
  have nonces := toList_pairwise_ne queue
  rw [← GapCursor.map_fst_scan checkedSucc {} queue.toList, List.pairwise_map] at nonces
  by_contra differ
  have apart : first ≠ second := fun equal => differ (congrArg Prod.snd equal)
  have symmetric : Std.Symm fun one other : (UInt64 × TxHash) × SchedulerQueueState =>
      one.1.1 ≠ other.1.1 := ⟨fun _ _ => Ne.symm⟩
  exact nonces.forall left right apart (congrArg (fun entry => entry.1) same)

section Transitions

variable {log : List (Touch TxHash (Address × UInt64))} {state : SchedulerState}

/-- A transition claims the slot of a pending transaction. -/
theorem AnnouncesQueues.pending {transitions : List SchedulerQueueTransition}
    (announces : AnnouncesQueues state transitions) (seating : Seating state)
    {transition : SchedulerQueueTransition} (member : transition ∈ transitions) :
    ∃ tx, state.pending[transition.hash]? = some tx ∧
      positionOf tx = (transition.sender, transition.nonce) := by
  obtain ⟨queue, queued, scanned⟩ := announces transition member
  have listed := mem_toList.mp (mem_toList_of_mem_scan scanned)
  obtain ⟨tx, stored, sender, nonce⟩ := seating.occupied
    (SchedulerState.slot_eq_some_iff.mpr ⟨queue, queued, listed⟩)
  refine ⟨tx, stored, ?_⟩
  rw [positionOf, sender, nonce]

theorem Occupies.transitions {transitions : List SchedulerQueueTransition}
    (announces : AnnouncesQueues state transitions) (seating : Seating state)
    (occupies : Occupies log state.pending) (position : Address × UInt64) :
    Occupies (log ++ (transitions.map (transitionClaim position)).map Claim.touch)
      state.pending := by
  induction transitions generalizing log with
  | nil =>
      rw [List.map_nil, List.map_nil, List.append_nil]
      exact occupies
  | cons transition rest ih =>
      obtain ⟨tx, stored, here⟩ := announces.pending seating List.mem_cons_self
      have claimed := occupies.claim_again stored
      rw [here] at claimed
      have later := ih (fun other member => announces other (List.mem_cons_of_mem _ member)) claimed
      rw [List.append_assoc] at later
      exact later

end Transitions

/-! ## What an admission logs -/

/-- The events of the decision move the log to the pending set after the admission. -/
theorem Occupies.decide {config : SchedulerConfig} {state : SchedulerState}
    {log : List (Touch TxHash (Address × UInt64))} (occupies : Occupies log state.pending)
    (invariant : RepresentationInvariant config state) (tx : ValidatedTransaction) :
    Occupies (log ++ (decisionClaims tx (state.admitTx tx config).1.admission).map Claim.touch)
      (state.admitTx tx config).2.pending := by
  refine SchedulerState.admit_cases (motive := fun outcome => Occupies
    (log ++ (decisionClaims tx outcome.1.admission).map Claim.touch) outcome.2.pending)
    ?duplicate ?dangling ?replaced ?underpriced ?limited ?admitted
  case duplicate =>
    intro _
    simp only [decisionClaims, List.map_nil, List.append_nil]
    exact occupies
  case dangling =>
    intro hash _ named missing
    exact absurd missing (invariant.seating.noDanglingSlot named)
  case replaced =>
    rintro hash incumbent fresh taken stored - next rfl
    obtain ⟨held, found, sender, nonce⟩ := invariant.seating.occupied taken
    rw [stored] at found
    cases found
    have here : positionOf incumbent = positionOf tx := by rw [positionOf, sender, nonce]; rfl
    have retired := occupies.retire stored
    rw [here] at retired
    have claimed := @Occupies.claim _ _ tx retired ?_ ?_
    · rw [List.append_assoc] at claimed
      exact claimed
    · rw [getElem?_erase_eq, fresh]
      split <;> rfl
    · intro other rival remains same
      rw [getElem?_erase_eq] at remains
      split at remains
      case isTrue => cases remains
      case isFalse differs =>
        have sits := invariant.seating.seated remains
        have rivalSender : rival.decoded.sender = tx.decoded.sender := congrArg Prod.fst same
        have rivalNonce : rival.decoded.nonce = tx.decoded.nonce := congrArg Prod.snd same
        rw [rivalSender, rivalNonce, taken] at sits
        exact differs (Option.some.inj sits)
  case underpriced =>
    intro hash incumbent fresh _ _ _
    exact occupies.retire_absent fresh (positionOf tx)
  case limited =>
    intro fresh _ _
    exact occupies.retire_absent fresh (positionOf tx)
  case admitted =>
    intro fresh vacant _
    refine occupies.claim fresh fun hash other stored same => ?_
    have sits := invariant.seating.seated stored
    have otherSender : other.decoded.sender = tx.decoded.sender := congrArg Prod.fst same
    have otherNonce : other.decoded.nonce = tx.decoded.nonce := congrArg Prod.snd same
    rw [otherSender, otherNonce, vacant] at sits
    cases sits

/-- **The events of an admission move the log to the pending set after it.** -/
theorem Occupies.admission {config : SchedulerConfig} {state : SchedulerState}
    {log : List (Touch TxHash (Address × UInt64))} (occupies : Occupies log state.pending)
    (invariant : RepresentationInvariant config state) (tx : ValidatedTransaction) :
    Occupies (log ++ (admissionClaims tx (state.admitTx tx config).1).map Claim.touch)
      (state.admitTx tx config).2.pending := by
  have whole := (occupies.decide invariant tx).transitions (announcesQueues_admission invariant tx)
    (invariant.admitTx tx).seating (positionOf tx)
  rw [List.append_assoc, ← List.map_append] at whole
  exact whole

/-! ## The replay model mirrors the scheduler -/

/-- The replay model and the scheduler are read off one log. -/
structure Mirrors (model : MempoolState) (log : List (Touch TxHash (Address × UInt64)))
    (state : SchedulerState) : Prop where
  follows : model.Follows log
  classified : model.Classified
  occupies : Occupies log state.pending

section Mirrors

variable {model : MempoolState} {log : List (Touch TxHash (Address × UInt64))}
  {state : SchedulerState}

theorem Mirrors.empty : Mirrors {} [] {} where
  follows := .empty
  classified := by
    intro sender queue queued
    simp at queued
  occupies := .empty

/-- A model and a scheduler that are read off one log have the same queues. -/
theorem senderQueues_eq (follows : model.Follows log) (occupies : Occupies log state.pending)
    (seating : Seating state) : model.senderQueues = state.senderQueues := by
  apply SchedulerState.queues_ext follows.full fun sender queue => seating.nonempty
  intro sender nonce
  change model.slot sender nonce = state.slot sender nonce
  rw [follows.slots]
  apply Option.ext
  intro hash
  rw [occupies.occupantOf_eq_some_iff]
  constructor
  · rintro ⟨tx, stored, here⟩
    have sits := seating.seated stored
    have sender : tx.decoded.sender = sender := congrArg Prod.fst here
    have nonce : tx.decoded.nonce = nonce := congrArg Prod.snd here
    rw [sender, nonce] at sits
    exact sits
  · intro named
    obtain ⟨tx, stored, sender, nonce⟩ := seating.occupied named
    exact ⟨tx, stored, by rw [positionOf, sender, nonce]⟩

/-- A transition of the scheduler's queues announces the verdict the model arrives at. -/
theorem AnnouncesQueues.announcesRight {transitions : List SchedulerQueueTransition}
    (announces : AnnouncesQueues state transitions) (seating : Seating state)
    (follows : model.Follows log) (occupies : Occupies log state.pending)
    {transition : SchedulerQueueTransition} (member : transition ∈ transitions) :
    model.AnnouncesRight (queueTransitionPayload transition) := by
  obtain ⟨tx, stored, here⟩ := announces.pending seating member
  have claimed := occupies.claim_again stored
  rw [here] at claimed
  have queues := senderQueues_eq (follows.enqueue (claimed.coherent.fits rfl)) claimed seating
  have right : (model.enqueue transition.hash transition.sender transition.nonce).Announces
      transition.hash transition.state := by
    intro sender queue queued visited scanned same
    rw [queues] at queued
    obtain ⟨announcedQueue, announcedQueued, announcedScanned⟩ := announces transition member
    have visitedSlot := SchedulerState.slot_eq_some_iff.mpr
      ⟨queue, queued, mem_toList.mp (mem_toList_of_mem_scan scanned)⟩
    rw [same] at visitedSlot
    obtain ⟨held, found, heldSender, heldNonce⟩ := seating.occupied visitedSlot
    rw [stored] at found
    cases found
    have sameSender : sender = transition.sender := heldSender.symm.trans (congrArg Prod.fst here)
    have sameNonce : visited.1.1 = transition.nonce :=
      heldNonce.symm.trans (congrArg Prod.snd here)
    rw [sameSender, announcedQueued] at queued
    cases queued
    exact scan_functional scanned announcedScanned (Prod.ext sameNonce same)
  unfold queueTransitionPayload
  split
  case h_1 ready =>
    rw [ready] at right
    exact right
  case h_2 expected blocked =>
    rw [blocked] at right
    rintro _ ⟨⟩
    exact right

/-- Logging queue transitions keeps the model where it is. -/
theorem Mirrors.transitions (mirrors : Mirrors model log state) (seating : Seating state)
    {transitions : List SchedulerQueueTransition} (announces : AnnouncesQueues state transitions)
    (position : Address × UInt64) :
    Mirrors (model.replay (transitions.map queueTransitionPayload))
      (log ++ (transitions.map (transitionClaim position)).map Claim.touch) state := by
  induction transitions generalizing model log with
  | nil =>
      simp only [List.map_nil, List.append_nil]
      exact mirrors
  | cons transition rest ih =>
      obtain ⟨tx, stored, here⟩ := announces.pending seating List.mem_cons_self
      have claimed := mirrors.occupies.claim_again stored
      rw [here] at claimed
      have fits := claimed.coherent.fits rfl
      have spelled := touchOf_queueTransitionPayload position transition
      have next : Mirrors (model.applyEvent (queueTransitionPayload transition)).2
          (log ++ [.claim transition.hash (transition.sender, transition.nonce)]) state :=
        { follows := mirrors.follows.step spelled fits
          classified := mirrors.follows.classified_step mirrors.classified spelled fits
            (announces.announcesRight seating mirrors.follows mirrors.occupies List.mem_cons_self)
          occupies := claimed }
      have later := ih next fun other member => announces other (List.mem_cons_of_mem _ member)
      rw [List.append_assoc] at later
      exact later

/-- The events before the queue transitions announce no verdict. -/
theorem decisionClaims_quiet (tx : ValidatedTransaction) (admission : SchedulerAdmission) :
    ∀ claim ∈ decisionClaims tx admission, ∀ state : MempoolState,
      state.AnnouncesRight claim.payload := by
  intro claim member state
  cases admission <;> simp only [decisionClaims, List.mem_cons, List.not_mem_nil, or_false] at member
  case admitted => rw [member]; trivial
  case replaced => rcases member with rfl | rfl <;> trivial
  case underpricedReplacement => rw [member]; trivial
  case senderLimitReached => rw [member]; trivial

/-- **Logging the events of an admission keeps the model a mirror of the scheduler.** -/
theorem Mirrors.admission {config : SchedulerConfig} (mirrors : Mirrors model log state)
    (invariant : RepresentationInvariant config state) (tx : ValidatedTransaction) :
    Mirrors (model.replay (admissionEvents tx (state.admitTx tx config).1))
      (log ++ (admissionClaims tx (state.admitTx tx config).1).map Claim.touch)
      (state.admitTx tx config).2 := by
  have decided := mirrors.occupies.decide invariant tx
  have after : Mirrors
      (model.replay
        ((decisionClaims tx (state.admitTx tx config).1.admission).map Claim.payload))
      (log ++ (decisionClaims tx (state.admitTx tx config).1.admission).map Claim.touch)
      (state.admitTx tx config).2 :=
    { follows := mirrors.follows.replay decided.coherent
      classified := mirrors.follows.classified_replay mirrors.classified decided.coherent
        (decisionClaims_quiet tx _)
      occupies := decided }
  have whole := after.transitions (invariant.admitTx tx).seating (announcesQueues_admission invariant tx)
    (positionOf tx)
  have transitions : ((state.admitTx tx config).1.queueTransitions.map
      (transitionClaim (positionOf tx))).map Claim.payload =
        (state.admitTx tx config).1.queueTransitions.map queueTransitionPayload := by
    rw [List.map_map]
    rfl
  rw [List.append_assoc, ← List.map_append, ← MempoolState.replay_append, ← transitions,
    ← List.map_append] at whole
  rw [← map_payload_admissionClaims]
  exact whole

end Mirrors

end Mempulse.LiveRpc
