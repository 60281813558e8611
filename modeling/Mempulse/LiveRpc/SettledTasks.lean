import Mempulse.LiveRpc.Simulation
import Mempulse.Scheduler.Candidates

/-!
# Settled tasks

A simulation task that the scheduler issued for pending transactions stays current only as long as
they are pending. A replacement moves every candidate with the replaced hash on by a generation,
and nothing brings an earlier generation back. The exception is the last generation of the counter,
which does not move.
-/

set_option autoImplicit false

namespace Mempulse.LiveRpc

open Std EventLog Library Scheduler Storage Searcher Builder

/-- A task is current only with all its members pending, unless its generation is the last one of
the counter. -/
def Settled (state : SchedulerState) (spec : SimulationTaskSpec) : Prop :=
  ∃ entry, state.candidates[spec.candidateId]? = some entry ∧
    spec.generation ≤ entry.generation ∧ entry.generation ≤ u64Max ∧
    (entry.generation = spec.generation →
      normalizedMemberHashes entry.candidate.txHash entry.candidate.memberTxHashes =
        spec.memberTxHashes →
      spec.generation = u64Max ∨
        ∀ member ∈ spec.memberTxHashes, state.pending.contains member = true)

theorem nextGeneration_le_u64Max (generation : Nat) : nextGeneration generation ≤ u64Max := by
  unfold nextGeneration saturatingAdd u64Max
  omega

theorem le_nextGeneration {generation : Nat} (within : generation ≤ u64Max) :
    generation ≤ nextGeneration generation := by
  unfold nextGeneration saturatingAdd
  omega

/-- Only the last generation stays where it is. -/
theorem eq_u64Max_of_nextGeneration_le {generation : Nat} (within : generation ≤ u64Max)
    (stays : nextGeneration generation ≤ generation) : generation = u64Max := by
  unfold nextGeneration saturatingAdd at stays
  omega

section Settled

variable {config : SchedulerConfig} {state next : SchedulerState} {spec : SimulationTaskSpec}

/-- The entry of the task moves on by a generation. -/
theorem Settled.move (entry : CandidateEntry) {later : CandidateEntry}
    (stored : next.candidates[spec.candidateId]? = some later)
    (moved : later.generation = nextGeneration entry.generation)
    (least : spec.generation ≤ entry.generation) (within : entry.generation ≤ u64Max) :
    Settled next spec := by
  have onward := le_nextGeneration within
  refine ⟨later, stored, by omega, moved ▸ nextGeneration_le_u64Max _, fun current _ => .inl ?_⟩
  have last := eq_u64Max_of_nextGeneration_le within (by omega)
  omega

/-- The entry of the task and its pending members stay. -/
theorem Settled.stay (settled : Settled state spec)
    (same : next.candidates[spec.candidateId]? = state.candidates[spec.candidateId]?)
    (kept : ∀ hash, state.pending.contains hash = true → next.pending.contains hash = true) :
    Settled next spec := by
  obtain ⟨entry, stored, least, within, current⟩ := settled
  exact ⟨entry, same.trans stored, least, within, fun now members =>
    (current now members).imp_right fun held member listed => kept member (held member listed)⟩

theorem Settled.registerCandidate (settled : Settled state spec) (candidate : SchedulerCandidate) :
    Settled (state.registerCandidate candidate).2 spec := by
  by_cases here : candidate.candidateId = spec.candidateId
  · obtain ⟨entry, stored, least, within, -⟩ := settled
    refine Settled.move entry ((getElem?_insert_eq _ _ _ _).trans (if_pos here)) ?_ least
      within
    rw [here, stored]
    rfl
  · exact settled.stay ((getElem?_insert_eq _ _ _ _).trans (if_neg here)) fun _ held => held

theorem Settled.registerCandidates (settled : Settled state spec)
    (candidates : List SchedulerCandidate) :
    Settled (state.registerCandidates candidates).2 spec := by
  induction candidates generalizing state with
  | nil => exact settled
  | cons candidate rest ih => exact ih (settled.registerCandidate candidate)

theorem pending_registerCandidates (state : SchedulerState) (candidates : List SchedulerCandidate) :
    (state.registerCandidates candidates).2.pending = state.pending := by
  obtain ⟨registered, head, stale, same⟩ := state.sameAdmission_registerCandidates candidates
  rw [same]

/-- Candidates that are registered with pending members get settled tasks. -/
theorem settled_of_registered {candidates : List SchedulerCandidate}
    (pending : ∀ candidate ∈ candidates,
      ∀ member ∈ normalizedMemberHashes candidate.txHash candidate.memberTxHashes,
        state.pending.contains member = true)
    (within : GenerationsWithin u64Max state) {issued : SimulationTaskSpec}
    (member : issued ∈ (state.registerCandidates candidates).1) :
    Settled (state.registerCandidates candidates).2 issued := by
  induction candidates generalizing state with
  | nil => cases member
  | cons candidate rest ih =>
      obtain ⟨first, others⟩ := List.forall_mem_cons.mp pending
      have generation : (state.registerCandidate candidate).1.generation ≤ u64Max := by
        dsimp only [SchedulerState.registerCandidate]
        cases state.candidates[candidate.candidateId]? with
        | none => decide
        | some entry => exact nextGeneration_le_u64Max _
      rcases List.mem_cons.mp member with rfl | later
      · refine Settled.registerCandidates ?_ rest
        exact ⟨_, (getElem?_insert_eq _ _ _ _).trans (if_pos rfl), Nat.le_refl _, generation,
          fun _ _ => .inr first⟩
      · refine ih others ?_ later
        intro id entry stored
        dsimp only [SchedulerState.registerCandidate] at stored
        rw [getElem?_insert_eq] at stored
        split at stored
        · cases stored
          exact generation
        · exact within id entry stored

/-- A result of any task leaves a task settled. -/
theorem Settled.applySimulationResult (settled : Settled state spec)
    (result : SchedulerSimulationResult) :
    Settled (state.applySimulationResult result).2 spec := by
  refine SchedulerState.applySimulationResult_cases state result
    (motive := fun applied => Settled applied.2 spec) ?_ ?_ ?_
  · exact fun _ => settled.stay rfl fun _ held => held
  · exact fun _ _ _ => settled.stay rfl fun _ held => held
  · intro entry stored current
    by_cases here : result.candidateId = spec.candidateId
    · obtain ⟨other, found, least, within, -⟩ := settled
      rw [here, found] at stored
      cases stored
      exact Settled.move entry ((getElem?_insert_eq _ _ _ _).trans (if_pos here)) rfl
        least within
    · exact settled.stay ((getElem?_insert_eq _ _ _ _).trans (if_neg here)) fun _ held => held

/-- A result is handed to the builder only when its task is current. -/
theorem Settled.of_handoff (settled : Settled state spec) {result : SchedulerSimulationResult}
    (carries : result.task = spec)
    (handed : (state.applySimulationResult result).1.builderHandoffs ≠ []) :
    spec.generation = u64Max ∨ ∀ member ∈ spec.memberTxHashes, state.pending.contains member = true := by
  obtain ⟨entry, stored, -, -, held⟩ := settled
  subst carries
  revert handed
  refine SchedulerState.applySimulationResult_cases state result
    (motive := fun applied => applied.1.builderHandoffs ≠ [] → _) ?_ ?_ ?_
  · exact fun _ handed => absurd rfl handed
  · exact fun _ _ _ handed => absurd rfl handed
  · intro other found current _
    cases stored.symm.trans found
    have same := current.1
    exact held (congrArg SimulationTaskSpec.generation same).symm
      (congrArg SimulationTaskSpec.memberTxHashes same).symm

/-- The scheduler after the candidates of a replaced hash are invalidated. -/
def invalidated (scheduler : SchedulerState) (decision : SchedulerPersistenceDecision) :
    SchedulerState :=
  match decision.replacedHash with
  | some replacedHash => scheduler.invalidateCandidateHash replacedHash
  | none => scheduler

/-- The scheduler after an admission and the invalidation that a replacement brings. -/
def admitAndInvalidate (config : SchedulerConfig) (state : SchedulerState)
    (tx : ValidatedTransaction) : SchedulerState :=
  let admitted := state.admitTx tx config
  invalidated admitted.2 (.fromAdmission admitted.1.admission)

theorem pending_invalidated (scheduler : SchedulerState)
    (decision : SchedulerPersistenceDecision) :
    (invalidated scheduler decision).pending = scheduler.pending := by
  unfold invalidated
  split <;> rfl

/-- The transaction takes the slot of a pending one. -/
def Supplants (config : SchedulerConfig) (state : SchedulerState) (tx : ValidatedTransaction)
    (incumbentHash : TxHash) : Prop :=
  state.pending.contains tx.hash = false ∧
    state.slot tx.decoded.sender tx.decoded.nonce = some incumbentHash ∧
    ∃ incumbent, state.pending[incumbentHash]? = some incumbent ∧
      replacementThresholdFee incumbent config.replacementFeeBumpBps ≤ tx.replacementFee

theorem supplants_of_replaced {tx : ValidatedTransaction} {replacedHash : TxHash}
    (replaces : (state.admitTx tx config).1.admission = .replaced replacedHash) :
    Supplants config state tx replacedHash := by
  revert replaces
  refine SchedulerState.admit_cases (motive := fun admitted =>
    admitted.1.admission = .replaced replacedHash → Supplants config state tx replacedHash)
    ?duplicate ?dangling ?replaced ?underpriced ?limited ?admitted
  case replaced =>
    rintro hash incumbent fresh taken stored pays next rfl replaces
    cases replaces
    exact ⟨by rw [contains_eq_isSome, fresh]; rfl, taken, incumbent, stored, pays⟩
  case duplicate => exact fun _ replaces => nomatch replaces
  case dangling => exact fun _ _ _ _ replaces => nomatch replaces
  case underpriced => exact fun _ _ _ _ _ _ replaces => nomatch replaces
  case limited => exact fun _ _ _ replaces => nomatch replaces
  case admitted => exact fun _ _ _ replaces => nomatch replaces

/-- An admission keeps every pending transaction that it does not replace. -/
theorem pending_admitAndInvalidate (tx : ValidatedTransaction) {hash : TxHash}
    (held : state.pending.contains hash = true)
    (spared : ¬ Supplants config state tx hash) :
    (admitAndInvalidate config state tx).pending.contains hash = true := by
  have kept : (state.admitTx tx config).2.pending.contains hash = true := by
    rw [contains_eq_isSome, SchedulerState.getElem?_pending_admitTx]
    rw [contains_eq_isSome] at held
    cases decision : (state.admitTx tx config).1.admission with
    | replaced replacedHash =>
        have other : replacedHash ≠ hash := by
          rintro rfl
          exact spared (supplants_of_replaced decision)
        dsimp only [SchedulerState.entryAfter]
        rw [if_neg other]
        split
        · rfl
        · exact held
    | admitted =>
        dsimp only [SchedulerState.entryAfter]
        split
        · rfl
        · exact held
    | duplicate | underpricedReplacement | senderLimitReached => exact held
  rw [admitAndInvalidate, pending_invalidated]
  exact kept

/-- A replacement leaves no current task with the replaced member behind. -/
theorem Settled.admitAndInvalidate (settled : Settled state spec) (tx : ValidatedTransaction) :
    Settled (admitAndInvalidate config state tx) spec := by
  obtain ⟨entry, stored, least, within, current⟩ := settled
  have unchanged := (state.candidates_admit tx config).1
  cases decision : (state.admitTx tx config).1.admission with
  | replaced replacedHash =>
      have shape : LiveRpc.admitAndInvalidate config state tx =
          (state.admitTx tx config).2.invalidateCandidateHash replacedHash := by
        rw [LiveRpc.admitAndInvalidate, decision]
        rfl
      have found : (LiveRpc.admitAndInvalidate config state tx).candidates[spec.candidateId]? =
          some (if entry.mentions replacedHash then
            { entry with generation := nextGeneration entry.generation } else entry) := by
        rw [shape]
        dsimp only [SchedulerState.invalidateCandidateHash]
        rw [ExtTreeMap.getElem?_map, unchanged, stored]
        rfl
      by_cases mentioned : entry.mentions replacedHash = true
      · rw [if_pos mentioned] at found
        exact Settled.move entry found rfl least within
      · rw [if_neg mentioned] at found
        refine ⟨entry, found, least, within, fun now members => ?_⟩
        refine (current now members).imp_right fun held member listed => ?_
        refine pending_admitAndInvalidate tx (held member listed) fun supplants => mentioned ?_
        have differs : replacedHash = member := by
          have slots := (SchedulerState.pending_of_replaced decision).2.1
          exact Option.some.inj (slots.symm.trans supplants.2.1)
        rw [CandidateEntry.mentions, decide_eq_true_eq, members, differs]
        exact .inr listed
  | admitted | duplicate | underpricedReplacement | senderLimitReached =>
      have shape : LiveRpc.admitAndInvalidate config state tx = (state.admitTx tx config).2 := by
        rw [LiveRpc.admitAndInvalidate, decision]
        rfl
      refine ⟨entry, by rw [shape, unchanged, stored], least, within, fun now members => ?_⟩
      refine (current now members).imp_right fun held member listed => ?_
      have kept := held member listed
      rw [shape, contains_eq_isSome, SchedulerState.getElem?_pending_admitTx, decision]
      rw [contains_eq_isSome] at kept
      dsimp only [SchedulerState.entryAfter]
      first
      | exact kept
      | (split
         · rfl
         · exact kept)

end Settled

end Mempulse.LiveRpc
