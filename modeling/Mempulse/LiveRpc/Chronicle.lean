import Mempulse.LiveRpc.Sequential
import Mempulse.Rehydration.Recording
import Mempulse.Rehydration.Restore

/-!
# The chronicle of a worker

The lifecycle events of an admission extend the chronicle of the scheduler: they decode the
transaction when it takes its slot, and what they remove is not pending after the admission.
-/

set_option autoImplicit false

namespace Mempulse.LiveRpc

open Std EventLog Library Scheduler Storage Replay Rehydration

/-! ## The events of an admission -/

theorem decodes_admissionEvents (tx : ValidatedTransaction) (outcome : SchedulerAdmissionOutcome) :
    decodes (admissionEvents tx outcome) =
      if (SchedulerPersistenceDecision.fromAdmission outcome.admission).isAdmitted then [tx.decoded]
      else [] := by
  have transitions : ∀ transition, decodedOf (queueTransitionPayload transition) = none := by
    intro transition
    unfold queueTransitionPayload
    split <;> rfl
  have silent : decodes (outcome.queueTransitions.map queueTransitionPayload) = [] := by
    rw [decodes, List.filterMap_map, List.filterMap_eq_nil_iff]
    exact fun transition _ => transitions transition
  rw [admissionEvents, decisionEvents, decodes_append, decodes_append, decodes_append, silent]
  cases outcome.admission <;> rfl

/-- The scheduler's slots after an admission are held by what its events decode. -/
theorem holds_admitTx {config : SchedulerConfig} {state : SchedulerState} (seating : Seating state)
    (tx : ValidatedTransaction) (slot : Address × UInt64) :
    (schedulerHouse config).holds (state.admitTx tx config).2 slot =
      (lastFor slotOfDecoded (decodes (admissionEvents tx (state.admitTx tx config).1)) slot).or
        ((schedulerHouse config).holds state slot) := by
  obtain ⟨sender, nonce⟩ := slot
  change ((state.admitTx tx config).2.occupant sender nonce).map _ =
    Option.or _ ((state.occupant sender nonce).map _)
  rw [seating.occupant_admitTx_eq, decodes_admissionEvents]
  have own : slotOfDecoded tx.decoded = (sender, nonce) ↔
      tx.decoded.sender = sender ∧ tx.decoded.nonce = nonce := Prod.mk.injEq .. ▸ Iff.rfl
  cases (state.admitTx tx config).1.admission with
  | admitted | replaced _ =>
      simp only [SchedulerPersistenceDecision.fromAdmission, SchedulerPersistenceDecision.isAdmitted,
        if_true, lastFor_singleton, own, occupantAfter]
      split <;> rfl
  | duplicate | underpricedReplacement | senderLimitReached => rfl

/-- What an admission's events say about a hash. -/
theorem removed_admissionEvents (tx : ValidatedTransaction) (outcome : SchedulerAdmissionOutcome)
    (payloads : List EventPayload) (hash : TxHash) :
    removed hash (payloads ++ admissionEvents tx outcome) =
      match outcome.admission with
      | .admitted => removed hash payloads && tx.decoded.hash ≠ hash
      | .duplicate => removed hash payloads
      | .replaced replacedHash =>
        (replacedHash = hash || removed hash payloads) && tx.decoded.hash ≠ hash
      | .underpricedReplacement | .senderLimitReached =>
        tx.decoded.hash = hash || removed hash payloads := by
  have transitions : ∀ event ∈ outcome.queueTransitions.map queueTransitionPayload,
      decide (removes event = some hash) = false ∧ decide (restores event = some hash) = false := by
    intro event member
    obtain ⟨transition, -, rfl⟩ := List.mem_map.mp member
    unfold queueTransitionPayload
    split <;> exact ⟨rfl, rfl⟩
  rw [admissionEvents, decisionEvents, ← List.append_assoc, ← List.append_assoc, ← List.append_assoc,
    removed, flagAfter_append_silent _ transitions, flagAfter_append, flagAfter_append,
    flagAfter_append, ← removed, Bool.eq_iff_iff]
  cases outcome.admission <;>
    simp [SchedulerPersistenceDecision.fromAdmission, SchedulerPersistenceDecision.replacedHash,
      SchedulerPersistenceDecision.emitsDecoded, SchedulerPersistenceDecision.isAdmitted,
      SchedulerPersistenceDecision.droppedReason, flagNext, removes, restores]

theorem offChain_admissionEvents (tx : ValidatedTransaction) (outcome : SchedulerAdmissionOutcome) :
    ∀ payload ∈ admissionEvents tx outcome, isChainEvent payload = false := by
  intro payload member
  rw [admissionEvents, decisionEvents] at member
  simp only [List.mem_append, List.mem_map] at member
  rcases member with ⟨_, -, rfl⟩ | decoded | ⟨_, -, rfl⟩ | ⟨transition, -, rfl⟩
  · rfl
  · split at decoded
    · rw [List.mem_singleton.mp decoded]
      rfl
    · cases decoded
  · rfl
  · unfold queueTransitionPayload
    split <;> rfl

/-! ## The chronicle after an admission -/

section Admission

variable {config : SchedulerConfig} {book : List TxDecoded} {payloads : List EventPayload}
  {state : SchedulerState} {tx : ValidatedTransaction}

/-- A transaction that takes its slot pays the fee bump on the last one that was decoded for it. -/
theorem outbids_of_seats (chronicle : Chronicle config book payloads state)
    (fits : ∀ decoded ∈ book, ThresholdFits config.replacementFeeBumpBps decoded)
    (seats : (SchedulerPersistenceDecision.fromAdmission
      (state.admitTx tx config).1.admission).isAdmitted = true) {last : TxDecoded}
    (final : lastFor slotOfDecoded (decodes payloads) (slotOfDecoded tx.decoded) = some last) :
    Outbids config.replacementFeeBumpBps tx.decoded last := by
  rw [← chronicle.holders] at final
  obtain ⟨incumbent, occupied, rfl⟩ := Option.map_eq_some_iff.mp final
  cases decision : (state.admitTx tx config).1.admission with
  | admitted =>
      have vacant := chronicle.seating.vacant_of_admitted decision
      cases vacant.symm.trans occupied
  | replaced replacedHash =>
      obtain ⟨-, holder, -, occupied', reaches⟩ := reaches_of_replaced decision
      cases occupied'.symm.trans occupied
      have stored := (chronicle.seating.occupant_position occupied).1
      exact (fits _ (chronicle.known _ (chronicle.mem_decodes stored))).outbids reaches
  | duplicate | underpricedReplacement | senderLimitReached =>
      rw [decision] at seats
      cases seats

/-- **Logging an admission extends the chronicle.** -/
theorem chronicle_admission (chronicle : Chronicle config book payloads state)
    (invariant : RepresentationInvariant config state) (listed : tx.decoded ∈ book)
    (fits : ∀ decoded ∈ book, ThresholdFits config.replacementFeeBumpBps decoded) :
    Chronicle config book (payloads ++ admissionEvents tx (state.admitTx tx config).1)
      (state.admitTx tx config).2 where
  seating := (invariant.admitTx tx).seating
  limited := (invariant.admitTx tx).withinLimit
  known := by
    intro decoded member
    rw [decodes_append, decodes_admissionEvents, List.mem_append] at member
    rcases member with earlier | new
    · exact chronicle.known decoded earlier
    · split at new
      · rw [List.mem_singleton.mp new]
        exact listed
      · cases new
  outbidding := by
    rw [decodes_append, decodes_admissionEvents]
    split
    case isTrue seats =>
      exact chronicle.outbidding.concat Outbids.trans fun last final =>
        outbids_of_seats chronicle fits seats final
    case isFalse =>
      rw [List.append_nil]
      exact chronicle.outbidding
  holders slot := by
    rw [holds_admitTx chronicle.seating, chronicle.holders, decodes_append, lastFor_append]
  standing := by
    intro hash held stored
    rw [SchedulerState.getElem?_pending_admitTx] at stored
    rw [removed_admissionEvents]
    have before : ∀ held, state.pending[hash]? = some held → removed hash payloads = false :=
      fun held => chronicle.standing hash held
    have refused : (state.admitTx tx config).1.admission ≠ .duplicate →
        state.pending[tx.hash]? = none := by
      intro other
      cases pending : state.pending[tx.hash]? with
      | none => rfl
      | some _ =>
          exact absurd (by rw [SchedulerState.admitTx_duplicate (by rw [pending]; rfl)]) other
    cases decision : (state.admitTx tx config).1.admission with
    | admitted =>
        rw [decision, SchedulerState.entryAfter] at stored
        by_cases own : tx.decoded.hash = hash
        · simp [own]
        · rw [if_neg (show tx.hash ≠ hash from own)] at stored
          simp [before held stored]
    | replaced replacedHash =>
        rw [decision, SchedulerState.entryAfter] at stored
        by_cases own : tx.decoded.hash = hash
        · simp [own]
        · rw [if_neg (show tx.hash ≠ hash from own)] at stored
          split at stored
          case isTrue => cases stored
          case isFalse other => simp [other, before held stored]
    | duplicate =>
        rw [decision] at stored
        exact before held stored
    | underpricedReplacement | senderLimitReached =>
        rw [decision, SchedulerState.entryAfter] at stored
        have absent := refused (by rw [decision]; exact nofun)
        have apart : tx.decoded.hash ≠ hash := by
          rintro rfl
          cases absent.symm.trans stored
        simp [apart, before held stored]
  offChain := by
    intro payload member
    rcases List.mem_append.mp member with earlier | new
    · exact chronicle.offChain payload earlier
    · exact offChain_admissionEvents tx _ payload new

end Admission

/-! ## What a worker admits -/

/-- The worker admits only such transactions, and it writes no snapshot. -/
def Admits (listed : ValidatedTransaction → Prop) : PipelineOp → Prop
  | .admitOutcome tx => listed tx
  | .tryEnqueue op => op.snapshot? = none
  | _ => True

section Within

variable {listed : ValidatedTransaction → Prop} {next : Pipeline} {chain : ChainRpcConfig}
  {nowUnixMs : Int64} {arrival : Arrival}

theorem within_tryEnqueueStorageWrite {op : StorageWriteOp} (silent : op.snapshot? = none)
    (onward : next.Within (Admits listed)) :
    (tryEnqueueStorageWrite op next).Within (Admits listed) := by
  refine ⟨silent, fun reply => ?_⟩
  match reply with
  | .ok () => exact onward
  | .error .queueFull | .error .queueClosed => exact ⟨trivial, fun _ => trivial⟩

theorem within_appendEvents (payloads : List EventPayload) (onward : next.Within (Admits listed)) :
    (appendEvents chain nowUnixMs payloads next).Within (Admits listed) := by
  induction payloads with
  | nil => exact onward
  | cons payload rest ih => exact ⟨trivial, fun _ => within_tryEnqueueStorageWrite rfl ih⟩

theorem within_queueCandidates {onward : GroupedTasks → Pipeline}
    (within : ∀ grouped, (onward grouped).Within (Admits listed))
    (queued : List (SimulationTaskSpec × PreparedSimulationTask)) (grouped : GroupedTasks) :
    (queueCandidates chain nowUnixMs onward grouped queued).Within (Admits listed) := by
  induction queued generalizing grouped with
  | nil => exact within grouped
  | cons first rest ih => exact ⟨trivial, fun _ => within_tryEnqueueStorageWrite rfl (ih _)⟩

theorem within_dispatchTasks
    (tasks : List (RemoteSimulationRequest × List RegisteredSimulationCandidate)) :
    (dispatchTasks chain nowUnixMs tasks).Within (Admits listed) := by
  induction tasks with
  | nil => trivial
  | cons first rest ih =>
      refine ⟨trivial, fun reply => ?_⟩
      match reply with
      | .error _ => trivial
      | .ok false => exact ih
      | .ok true => exact within_appendEvents _ ih

theorem within_registerAndDispatch (prepared : List PreparedSimulationTask) :
    (registerAndDispatch chain nowUnixMs prepared).Within (Admits listed) := by
  unfold registerAndDispatch
  split
  · trivial
  · refine ⟨trivial, fun reply => ?_⟩
    match reply with
    | .error _ => trivial
    | .ok _ => exact within_queueCandidates (fun _ => within_dispatchTasks _) _ _

theorem within_exploreOpportunities (chainId : Option UInt64)
    (executable simulationContext : List ValidatedTransaction) :
    (exploreOpportunities arrival chainId executable simulationContext).Within (Admits listed) := by
  dsimp only [exploreOpportunities]
  split
  · exact within_appendEvents _ (within_registerAndDispatch _)
  · exact ⟨trivial, fun _ => within_appendEvents _ (within_registerAndDispatch _)⟩

theorem within_appendReplacement (txHash : TxHash) (replacedHash : Option TxHash)
    (onward : next.Within (Admits listed)) :
    (appendReplacement arrival txHash replacedHash next).Within (Admits listed) := by
  cases replacedHash with
  | none => exact onward
  | some replacedHash =>
      refine ⟨trivial, fun _ => within_tryEnqueueStorageWrite rfl ⟨trivial, fun reply => ?_⟩⟩
      match reply with
      | .ok () => exact onward
      | .error _ => trivial

theorem within_persistTransaction (tx : LiveTx) (decision : SchedulerPersistenceDecision)
    (queueTransitions : List SchedulerQueueTransition) :
    (persistTransaction arrival tx decision queueTransitions).Within (Admits listed) := by
  refine within_tryEnqueueStorageWrite rfl (within_tryEnqueueStorageWrite rfl ?_)
  refine within_appendReplacement _ _ (within_appendEvents _ (within_appendEvents _ ?_))
  have explores : ∀ executable, (readyFrontierForQueueTransitions queueTransitions
      fun simulationContext =>
        appendEvents arrival.chain arrival.processedAtUnixMs
          (queueTransitions.map queueTransitionPayload)
          (exploreOpportunities arrival (resolveRecordChainId arrival.chain.chainId tx.chainId)
            executable simulationContext)).Within (Admits listed) := by
    intro executable
    dsimp only [readyFrontierForQueueTransitions]
    split
    · exact ⟨trivial, fun _ => within_appendEvents _ (within_exploreOpportunities _ _ _)⟩
    · exact within_appendEvents _ (within_exploreOpportunities _ _ _)
  dsimp only [readyTransactionsForQueueTransitions]
  split
  · exact explores []
  · exact ⟨trivial, explores⟩

theorem within_appendObservation (onward : next.Within (Admits listed)) :
    (appendObservation arrival next).Within (Admits listed) :=
  ⟨trivial, fun _ => within_tryEnqueueStorageWrite rfl <| within_tryEnqueueStorageWrite rfl
    ⟨trivial, fun _ => within_tryEnqueueStorageWrite rfl onward⟩⟩

/-- The transaction of an arrival. -/
def Arrival.validated (arrival : Arrival) : Option ValidatedTransaction :=
  arrival.fetchedTx.map (validatedTransactionFromLiveTx arrival.chain arrival.observation)

theorem within_processPendingHashWithFetchedTx (fetched : ∀ tx, arrival.validated = some tx → listed tx) :
    (processPendingHashWithFetchedTx arrival).Within (Admits listed) := by
  unfold processPendingHashWithFetchedTx
  split
  case h_1 => exact within_appendObservation trivial
  case h_2 tx present =>
    refine ⟨fetched _ (by rw [Arrival.validated, present]; rfl), fun reply => ?_⟩
    match reply with
    | .ok _ | .error .queueFull => exact within_appendObservation (within_persistTransaction _ _ _)
    | .error .queueClosed => trivial

/-- A worker admits the transactions of its arrivals. -/
theorem within_processArrivals {arrivals : List Arrival}
    (fetched : ∀ tx ∈ arrivals.filterMap Arrival.validated, listed tx) :
    (processArrivals arrivals).Within (Admits listed) := by
  induction arrivals with
  | nil => trivial
  | cons arrival rest ih =>
      have first : ∀ tx, arrival.validated = some tx → listed tx := fun tx validated =>
        fetched tx (List.mem_filterMap.mpr ⟨arrival, List.mem_cons_self, validated⟩)
      refine (within_processPendingHashWithFetchedTx first).bind fun value => ?_
      match value with
      | .ok () =>
          refine ih fun tx member => fetched tx ?_
          obtain ⟨other, listed, validated⟩ := List.mem_filterMap.mp member
          exact List.mem_filterMap.mpr ⟨other, List.mem_cons_of_mem _ listed, validated⟩
      | .error _ => trivial

end Within

end Mempulse.LiveRpc
