import Mempulse.EventLog
import Mempulse.Library.LastWord
import Mempulse.Library.TreeMaps

/-!
# Candidate lifecycles

What an event log says about each candidate: what it was queued with, the status of its simulation,
and the decision of the builder. A result names a transaction only, so it goes to all candidates of
the transaction that are known by then.
-/

set_option autoImplicit false

namespace Mempulse.Replay

open Std EventLog Library

/-- Accumulated lifecycle data for one candidate across queueing, simulation, and assembly. -/
structure CandidateLifecycleEntry where
  txHash : TxHash := 0
  memberTxHashes : List TxHash := []
  chainId : Option UInt64 := none
  strategy : String := ""
  score : UInt32 := 0
  protocol : String := ""
  category : String := ""
  featureEngineVersion : String := ""
  scorerVersion : String := ""
  strategyVersion : String := ""
  reasons : List String := []
  detectedUnixMs : Int64 := 0
  simulationStatus : Option String := none
  assemblyStatus : Option String := none
  simulationBlockNumber : Option UInt64 := none
  assemblyBlockNumber : Option UInt64 := none
  assemblyReason : Option String := none
  replacedCandidateIds : List CandidateId := []
  deriving DecidableEq

/-- Candidate lifecycle snapshot captured at a particular sequence id. -/
structure CandidateLifecycleSnapshot where
  seqId : UInt64
  candidates : ExtTreeMap CandidateId CandidateLifecycleEntry

/-- Tracks lifecycle details for searcher candidates across downstream stages. -/
structure CandidateLifecycleState where
  candidates : ExtTreeMap CandidateId CandidateLifecycleEntry := ∅
  txCandidates : ExtTreeMap TxHash (ExtTreeSet CandidateId) := ∅

namespace CandidateLifecycleState

/-- Files a candidate under its transaction. -/
def indexCandidate (state : CandidateLifecycleState) (candidateId : CandidateId) (txHash : TxHash) :
    CandidateLifecycleState :=
  { state with
    txCandidates :=
      state.txCandidates.insert txHash ((state.txCandidates.getD txHash ∅).insert candidateId) }

/-- `candidates.entry(candidate_id).or_default()`, and what is assigned to the entry. -/
def updateEntry (state : CandidateLifecycleState) (candidateId : CandidateId)
    (update : CandidateLifecycleEntry → CandidateLifecycleEntry) : CandidateLifecycleState :=
  { state with
    candidates :=
      state.candidates.insert candidateId (update ((state.candidates[candidateId]?).getD {})) }

/-- Applies one event to the candidate lifecycle model. -/
def applyEvent (state : CandidateLifecycleState) (payload : EventPayload) :
    CandidateLifecycleState :=
  match payload with
  | .candidateQueued queued =>
    (state.indexCandidate queued.candidateId queued.txHash).updateEntry queued.candidateId
      fun entry =>
        { entry with
          txHash := queued.txHash
          memberTxHashes := queued.memberTxHashes
          chainId := queued.chainId
          strategy := queued.strategy
          score := queued.score
          protocol := queued.protocol
          category := queued.category
          featureEngineVersion := queued.featureEngineVersion
          scorerVersion := queued.scorerVersion
          strategyVersion := queued.strategyVersion
          reasons := queued.reasons
          detectedUnixMs := queued.detectedUnixMs }
  | .simDispatched dispatched =>
    (state.indexCandidate dispatched.candidateId dispatched.txHash).updateEntry
      dispatched.candidateId fun entry =>
        { entry with
          txHash := dispatched.txHash
          memberTxHashes :=
            if entry.memberTxHashes.isEmpty then dispatched.memberTxHashes
            else entry.memberTxHashes
          simulationBlockNumber := some dispatched.blockNumber }
  | .simCompleted completed =>
    (state.txCandidates.getD completed.hash ∅).toList.foldl
      (fun state candidateId => state.updateEntry candidateId fun entry =>
        { entry with txHash := completed.hash, simulationStatus := some completed.status })
      state
  | .assemblyDecisionApplied applied =>
    (state.indexCandidate applied.candidateId applied.txHash).updateEntry applied.candidateId
      fun entry =>
        { entry with
          txHash := applied.txHash
          assemblyStatus := some applied.decision
          assemblyBlockNumber := some applied.blockNumber
          assemblyReason := applied.reason
          replacedCandidateIds := applied.replacedCandidateIds }
  | .txSeen _ | .txFetched _ | .txDecoded _ | .txReady _ | .txBlocked _ | .oppDetected _
  | .bundleSubmitted _ | .txReplaced _ | .txDropped _ | .txConfirmedProvisional _
  | .txConfirmedFinal _ | .txReorged _ => state

/-- The state after a list of events. -/
def replay (payloads : List EventPayload) : CandidateLifecycleState :=
  payloads.foldl applyEvent {}

/-- Captures the current candidate lifecycle snapshot at the provided sequence id. -/
def snapshot (state : CandidateLifecycleState) (seqId : UInt64) : CandidateLifecycleSnapshot where
  seqId := seqId
  candidates := state.candidates

end CandidateLifecycleState

/-! ## What an event says about a candidate -/

/-- The candidate that an event names, and its transaction. -/
def namedCandidate : EventPayload → Option (CandidateId × TxHash)
  | .candidateQueued queued => some (queued.candidateId, queued.txHash)
  | .simDispatched dispatched => some (dispatched.candidateId, dispatched.txHash)
  | .assemblyDecisionApplied applied => some (applied.candidateId, applied.txHash)
  | _ => none

/-- Whether a payload names the candidate. -/
def namesCandidate (candidateId : CandidateId) (payload : EventPayload) : Bool :=
  (namedCandidate payload).any fun named => named.1 = candidateId

/-- The status of a simulation of a transaction. -/
def completedStatus (hash : TxHash) : EventPayload → Option String
  | .simCompleted completed => if completed.hash = hash then some completed.status else none
  | _ => none

/-- The decision about a candidate. -/
def decisionAbout (candidateId : CandidateId) : EventPayload → Option AssemblyDecisionApplied
  | .assemblyDecisionApplied applied =>
    if applied.candidateId = candidateId then some applied else none
  | _ => none

/-- What an entry has after a decision, or without one. -/
structure AssemblyFields where
  status : Option String := none
  blockNumber : Option UInt64 := none
  reason : Option String := none
  replacedCandidateIds : List CandidateId := []
  deriving DecidableEq

/-- What an entry has of the assembly's decision. -/
def CandidateLifecycleEntry.assembly (entry : CandidateLifecycleEntry) : AssemblyFields where
  status := entry.assemblyStatus
  blockNumber := entry.assemblyBlockNumber
  reason := entry.assemblyReason
  replacedCandidateIds := entry.replacedCandidateIds

/-- What a decision writes; without one nothing is written. -/
def assemblyFields : Option AssemblyDecisionApplied → AssemblyFields
  | none => {}
  | some applied =>
    { status := some applied.decision
      blockNumber := some applied.blockNumber
      reason := applied.reason
      replacedCandidateIds := applied.replacedCandidateIds }

/-- Some event names a candidate with a transaction. -/
def Named (payloads : List EventPayload) (candidateId : CandidateId) (hash : TxHash) : Prop :=
  ∃ payload ∈ payloads, namedCandidate payload = some (candidateId, hash)

/-- Events name a candidate with one transaction. -/
def OneTransaction (payloads : List EventPayload) : Prop :=
  ∀ candidateId left right,
    Named payloads candidateId left → Named payloads candidateId right → left = right

/-- What an entry says after some events: the status is that of the last result of the transaction
since an event first named the candidate. -/
structure Accumulated (payloads : List EventPayload) (candidateId : CandidateId) (hash : TxHash)
    (entry : CandidateLifecycleEntry) : Prop where
  txHash : entry.txHash = hash
  simulationStatus : entry.simulationStatus =
    lastReadingSince (namesCandidate candidateId) (completedStatus hash) payloads
  assembly : entry.assembly = assemblyFields (lastReading (decisionAbout candidateId) payloads)

section Named

variable {payloads : List EventPayload} {payload : EventPayload} {candidateId : CandidateId}
  {hash : TxHash}

theorem named_append_singleton : Named (payloads ++ [payload]) candidateId hash ↔
    Named payloads candidateId hash ∨ namedCandidate payload = some (candidateId, hash) := by
  constructor
  · rintro ⟨other, member, named⟩
    rcases List.mem_append.mp member with before | now
    · exact .inl ⟨other, before, named⟩
    · exact .inr (List.mem_singleton.mp now ▸ named)
  · rintro (⟨other, before, named⟩ | named)
    · exact ⟨other, List.mem_append_left _ before, named⟩
    · exact ⟨payload, by simp, named⟩

theorem namesCandidate_eq_true_iff : namesCandidate candidateId payload = true ↔
    ∃ hash, namedCandidate payload = some (candidateId, hash) := by
  unfold namesCandidate
  cases namedCandidate payload with
  | none => exact iff_of_false (by simp) (fun ⟨hash, never⟩ => nomatch never)
  | some named =>
      obtain ⟨name, hash⟩ := named
      simp

theorem exists_named_iff : (∃ hash, Named payloads candidateId hash) ↔
    ∃ first ∈ payloads, namesCandidate candidateId first = true := by
  constructor
  · rintro ⟨hash, first, member, named⟩
    exact ⟨first, member, namesCandidate_eq_true_iff.mpr ⟨hash, named⟩⟩
  · rintro ⟨first, member, names⟩
    obtain ⟨hash, named⟩ := namesCandidate_eq_true_iff.mp names
    exact ⟨hash, first, member, named⟩

/-- An event that names a candidate has no result. -/
theorem completedStatus_of_named {named : CandidateId × TxHash}
    (names : namedCandidate payload = some named) : completedStatus hash payload = none := by
  cases payload with
  | simCompleted completed => cases names
  | _ => rfl

/-- A decision names its candidate. -/
theorem decisionAbout_eq_none (names : namesCandidate candidateId payload = false) :
    decisionAbout candidateId payload = none := by
  cases payload with
  | assemblyDecisionApplied applied => exact if_neg (of_decide_eq_false names)
  | _ => rfl

/-- An entry that is not touched. -/
theorem Accumulated.append_silent {entry : CandidateLifecycleEntry}
    (accumulated : Accumulated payloads candidateId hash entry)
    (result : completedStatus hash payload = none)
    (decision : decisionAbout candidateId payload = none) :
    Accumulated (payloads ++ [payload]) candidateId hash entry where
  txHash := accumulated.txHash
  simulationStatus := by
    rw [lastReadingSince_append_silent result]
    exact accumulated.simulationStatus
  assembly := by
    rw [lastReading_append_singleton, decision, Option.none_or]
    exact accumulated.assembly

end Named

namespace CandidateLifecycleState

/-- The model after some events. -/
structure Accounts (payloads : List EventPayload) (state : CandidateLifecycleState) : Prop where
  indexed : ∀ hash candidateId, candidateId ∈ state.txCandidates.getD hash ∅ ↔
    Named payloads candidateId hash
  entries : ∀ candidateId hash, Named payloads candidateId hash →
    ∃ entry, state.candidates[candidateId]? = some entry ∧
      Accumulated payloads candidateId hash entry
  absent : ∀ candidateId, (∀ hash, ¬ Named payloads candidateId hash) →
    state.candidates[candidateId]? = none

variable {state : CandidateLifecycleState} {payloads : List EventPayload} {payload : EventPayload}

theorem getElem?_updateEntry (update : CandidateLifecycleEntry → CandidateLifecycleEntry)
    (name other : CandidateId) : (state.updateEntry name update).candidates[other]? =
      if name = other then some (update ((state.candidates[name]?).getD {}))
      else state.candidates[other]? :=
  getElem?_insert_eq _ _ _ _

theorem getD_indexCandidate (name : CandidateId) (hash other : TxHash) :
    (state.indexCandidate name hash).txCandidates.getD other ∅ =
      if hash = other then (state.txCandidates.getD hash ∅).insert name
      else state.txCandidates.getD other ∅ := by
  simp only [ExtTreeMap.getD_eq_getD_getElem?, indexCandidate, getElem?_insert_eq]
  split
  · rfl
  · rfl

/-- The entry of a candidate, or the default one, says what the events before say. -/
theorem Accounts.getD_candidates (accounts : Accounts payloads state) {name : CandidateId}
    {hash : TxHash} (one : ∀ known, Named payloads name known → known = hash) :
    ((state.candidates[name]?).getD {}).simulationStatus =
        lastReadingSince (namesCandidate name) (completedStatus hash) payloads ∧
      ((state.candidates[name]?).getD {}).assembly =
        assemblyFields (lastReading (decisionAbout name) payloads) := by
  by_cases before : ∃ known, Named payloads name known
  · obtain ⟨known, named⟩ := before
    obtain ⟨entry, found, accumulated⟩ := accounts.entries name known named
    rw [found, ← one known named]
    exact ⟨accumulated.simulationStatus, accumulated.assembly⟩
  · have unnamed : ∀ payload ∈ payloads, namesCandidate name payload = false := fun payload member =>
      Bool.eq_false_iff.mpr fun names => before (exists_named_iff.mpr ⟨payload, member, names⟩)
    rw [accounts.absent name (not_exists.mp before), lastReadingSince_eq_none unnamed,
      lastReading_eq_none fun payload member => decisionAbout_eq_none (unnamed payload member)]
    exact ⟨rfl, rfl⟩

/-- **An event that names a candidate.** -/
theorem Accounts.name (accounts : Accounts payloads state)
    (one : OneTransaction (payloads ++ [payload])) {name : CandidateId} {hash : TxHash}
    (named : namedCandidate payload = some (name, hash))
    {update : CandidateLifecycleEntry → CandidateLifecycleEntry}
    (txHash : ∀ entry, (update entry).txHash = hash)
    (status : ∀ entry, (update entry).simulationStatus = entry.simulationStatus)
    (assembly : ∀ entry, (update entry).assembly =
      ((decisionAbout name payload).map fun applied => assemblyFields (some applied)).getD
        entry.assembly) :
    Accounts (payloads ++ [payload]) ((state.indexCandidate name hash).updateEntry name update) := by
  have here : Named (payloads ++ [payload]) name hash := named_append_singleton.mpr (.inr named)
  have elsewhere : ∀ {other : CandidateId} {known : TxHash}, name ≠ other →
      (Named (payloads ++ [payload]) other known ↔ Named payloads other known) := by
    intro other known differs
    rw [named_append_singleton, named]
    exact ⟨fun either => either.resolve_right fun same => differs (Prod.mk.inj
      (Option.some.inj same)).1, .inl⟩
  refine ⟨fun known other => ?_, fun other known listed => ?_, fun other never => ?_⟩
  · change other ∈ (state.indexCandidate name hash).txCandidates.getD known ∅ ↔ _
    rw [getD_indexCandidate, named_append_singleton, ← accounts.indexed, named]
    by_cases same : hash = known
    · subst same
      rw [if_pos rfl, ExtTreeSet.mem_insert, Std.compare_eq_iff_eq, Option.some.injEq,
        Prod.mk.injEq, or_comm]
      simp
    · rw [if_neg same]
      exact ⟨.inl, fun either => either.resolve_right fun equal => same (Prod.mk.inj
        (Option.some.inj equal)).2⟩
  · rw [getElem?_updateEntry]
    by_cases same : name = other
    · subst same
      cases one _ _ _ here listed
      obtain ⟨statusBefore, assemblyBefore⟩ := accounts.getD_candidates fun known before =>
        one _ _ _ (named_append_singleton.mpr (.inl before)) here
      rw [if_pos rfl]
      refine ⟨_, rfl, txHash _, ?_, ?_⟩
      · rw [status, lastReadingSince_append_silent (completedStatus_of_named named)]
        exact statusBefore
      · rw [assembly, lastReading_append_singleton]
        cases decisionAbout name payload with
        | none => exact assemblyBefore
        | some applied => rfl
    · rw [if_neg same]
      obtain ⟨entry, found, accumulated⟩ :=
        accounts.entries other known ((elsewhere same).mp listed)
      refine ⟨entry, found, accumulated.append_silent (completedStatus_of_named named)
        (decisionAbout_eq_none ?_)⟩
      rw [namesCandidate, named]
      exact decide_eq_false same
  · rw [getElem?_updateEntry]
    by_cases same : name = other
    · exact absurd (same ▸ here) (never hash)
    · rw [if_neg same]
      exact accounts.absent other fun known before => never known ((elsewhere same).mpr before)

/-- The candidates of a list get an entry each. -/
theorem getElem?_foldl_updateEntry {update : CandidateLifecycleEntry → CandidateLifecycleEntry}
    {names : List CandidateId} (distinct : names.Nodup) (state : CandidateLifecycleState)
    (other : CandidateId) :
    (names.foldl (fun state name => state.updateEntry name update) state).candidates[other]? =
      if other ∈ names then some (update ((state.candidates[other]?).getD {}))
      else state.candidates[other]? := by
  induction names generalizing state with
  | nil => rfl
  | cons name rest ih =>
      obtain ⟨new, distinct⟩ := List.nodup_cons.mp distinct
      rw [List.foldl_cons, ih distinct, getElem?_updateEntry]
      by_cases same : name = other
      · subst same
        rw [if_neg new, if_pos rfl, if_pos List.mem_cons_self]
      · rw [if_neg same]
        simp only [List.mem_cons, Ne.symm same, false_or]

theorem txCandidates_foldl_updateEntry
    (update : CandidateLifecycleEntry → CandidateLifecycleEntry) (names : List CandidateId)
    (state : CandidateLifecycleState) :
    (names.foldl (fun state name => state.updateEntry name update) state).txCandidates =
      state.txCandidates := by
  induction names generalizing state with
  | nil => rfl
  | cons name rest ih => exact ih _

/-- An event that names no candidate. -/
theorem named_append_unnamed (unnamed : namedCandidate payload = none) {candidateId : CandidateId}
    {hash : TxHash} :
    Named (payloads ++ [payload]) candidateId hash ↔ Named payloads candidateId hash := by
  rw [named_append_singleton, unnamed]
  exact ⟨fun either => either.resolve_right (fun never => nomatch never), .inl⟩

/-- **A result goes to all candidates of its transaction.** -/
theorem Accounts.complete (accounts : Accounts payloads state) (one : OneTransaction payloads)
    (completed : SimCompleted) :
    Accounts (payloads ++ [.simCompleted completed])
      (state.applyEvent (.simCompleted completed)) := by
  have same : ∀ {candidateId hash}, Named (payloads ++ [.simCompleted completed]) candidateId hash ↔
      Named payloads candidateId hash := named_append_unnamed rfl
  have listed : ∀ {candidateId},
      candidateId ∈ (state.txCandidates.getD completed.hash ∅).toList ↔
        Named payloads candidateId completed.hash :=
    ExtTreeSet.mem_toList.trans (accounts.indexed _ _)
  have distinct : (state.txCandidates.getD completed.hash ∅).toList.Nodup :=
    ExtTreeSet.distinct_toList.imp fun distinct same => distinct (Std.compare_eq_iff_eq.mpr same)
  refine ⟨fun hash candidateId => ?_, fun candidateId hash named => ?_, fun candidateId never => ?_⟩
  · rw [applyEvent, txCandidates_foldl_updateEntry, same]
    exact accounts.indexed hash candidateId
  · rw [same] at named
    obtain ⟨entry, found, accumulated⟩ := accounts.entries candidateId hash named
    have started := exists_named_iff.mp ⟨hash, named⟩
    rw [applyEvent, getElem?_foldl_updateEntry distinct, found]
    by_cases here : completed.hash = hash
    · subst here
      rw [if_pos (listed.mpr named)]
      refine ⟨_, rfl, rfl, ?_, accumulated.assembly.trans ?_⟩
      · rw [lastReadingSince_append_singleton started, completedStatus, if_pos rfl, Option.some_or]
      · rw [lastReading_append_singleton]
        rfl
    · rw [if_neg fun also => here (one _ _ _ (listed.mp also) named)]
      exact ⟨entry, rfl, accumulated.append_silent (if_neg here) rfl⟩
  · rw [applyEvent, getElem?_foldl_updateEntry distinct,
      if_neg fun member => never _ (same.mpr (listed.mp member))]
    exact accounts.absent candidateId fun hash named => never hash (same.mpr named)

/-- An event that says nothing about candidates. -/
theorem Accounts.ignore (accounts : Accounts payloads state)
    (unnamed : namedCandidate payload = none)
    (silent : ∀ hash, completedStatus hash payload = none) :
    Accounts (payloads ++ [payload]) state := by
  refine ⟨fun hash candidateId => ?_, fun candidateId hash named => ?_, fun candidateId never => ?_⟩
  · rw [named_append_unnamed unnamed]
    exact accounts.indexed hash candidateId
  · obtain ⟨entry, found, accumulated⟩ :=
      accounts.entries candidateId hash ((named_append_unnamed unnamed).mp named)
    refine ⟨entry, found, accumulated.append_silent (silent hash) (decisionAbout_eq_none ?_)⟩
    rw [namesCandidate, unnamed]
    rfl
  · exact accounts.absent candidateId fun hash named =>
      never hash ((named_append_unnamed unnamed).mpr named)

theorem Accounts.applyEvent (accounts : Accounts payloads state) (payload : EventPayload)
    (one : OneTransaction (payloads ++ [payload])) :
    Accounts (payloads ++ [payload]) (state.applyEvent payload) := by
  unfold CandidateLifecycleState.applyEvent
  cases payload with
  | candidateQueued queued =>
      exact accounts.name one rfl (fun _ => rfl) (fun _ => rfl) fun _ => rfl
  | simDispatched dispatched =>
      exact accounts.name one rfl (fun _ => rfl) (fun _ => rfl) fun _ => rfl
  | assemblyDecisionApplied applied =>
      refine accounts.name one rfl (fun _ => rfl) (fun _ => rfl) fun _ => ?_
      rw [decisionAbout, if_pos rfl]
      rfl
  | simCompleted completed =>
      exact accounts.complete (fun candidateId left right first second => one candidateId left right
        (named_append_singleton.mpr (.inl first)) (named_append_singleton.mpr (.inl second)))
        completed
  | txSeen _ | txFetched _ | txDecoded _ | txReady _ | txBlocked _ | oppDetected _
  | bundleSubmitted _ | txReplaced _ | txDropped _ | txConfirmedProvisional _
  | txConfirmedFinal _ | txReorged _ => exact accounts.ignore rfl fun _ => rfl

/-- **What the model says of each candidate after a log.** -/
theorem accounts_replay (one : OneTransaction payloads) : Accounts payloads (replay payloads) := by
  induction payloads using List.reverseRecOn with
  | nil =>
      have unnamed : ∀ candidateId hash, ¬ Named [] candidateId hash :=
        fun _ _ ⟨_, never, _⟩ => nomatch never
      refine ⟨fun hash candidateId => iff_of_false ?_ (unnamed candidateId hash),
        fun candidateId hash named => absurd named (unnamed candidateId hash), fun _ _ => ?_⟩
      · rw [replay, List.foldl_nil, ExtTreeMap.getD_empty]
        exact ExtTreeSet.not_mem_empty
      · exact ExtTreeMap.getElem?_empty
  | append_singleton payloads payload ih =>
      rw [replay, List.foldl_append]
      exact (ih fun candidateId left right first second => one candidateId left right
        (named_append_singleton.mpr (.inl first))
        (named_append_singleton.mpr (.inl second))).applyEvent payload one

end CandidateLifecycleState

end Mempulse.Replay
