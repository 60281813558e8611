import Mempulse.Common

/-!
# The assembly engine

The builder keeps a set of simulated candidates for the target block. A new candidate replaces the
ones it conflicts with when it scores strictly more than they do together, as long as the block gas
limit is kept. The objective is read from metrics that are refreshed after every change of the set.
The latencies of the decisions are left out, they read the clock.
-/

set_option autoImplicit false

namespace Mempulse.Builder

/-! ## Data -/

/-- Distinguishes single-transaction candidates from synthesized bundles. -/
inductive AssemblyCandidateKind where
  | transaction
  | bundle
  deriving DecidableEq

/-- Simulation approval metadata attached to an assembly candidate. -/
structure SimulationApproval where
  simId : String
  blockNumber : UInt64
  approved : Bool
  deriving DecidableEq

/-- Candidate inserted into the assembly engine after search and simulation. -/
structure AssemblyCandidate where
  candidateId : CandidateId
  txHashes : List TxHash
  priorityScore : UInt32
  gasUsed : UInt64
  kind : AssemblyCandidateKind
  simulation : SimulationApproval
  deriving DecidableEq

/-- Limits applied while constructing the in-memory block template. -/
structure AssemblyConfig where
  blockGasLimit : UInt64 := 30000000
  deriving DecidableEq

/-- Objective value for the currently selected candidate set. -/
structure AssemblyObjective where
  totalPriorityScore : Nat := 0
  totalGasUsed : Nat := 0
  totalCandidates : Nat := 0
  deriving DecidableEq

/-- Counters describing insert, reject and rollback behavior inside the engine. -/
structure AssemblyMetrics where
  insertedTotal : Nat := 0
  replacedTotal : Nat := 0
  rejectedTotal : Nat := 0
  rejectedSimulationNotApprovedTotal : Nat := 0
  rejectedObjectiveNotImprovedTotal : Nat := 0
  rejectedGasLimitTotal : Nat := 0
  rollbackTotal : Nat := 0
  activeCandidateTotal : Nat := 0
  totalPriorityScore : Nat := 0
  totalGasUsed : Nat := 0
  deriving DecidableEq

/-- Outcome of attempting to insert a candidate into the live assembly set. -/
inductive AssemblyDecision where
  | inserted (candidateId : CandidateId) (replacedCandidateIds : List CandidateId)
  | rejected (candidateId : CandidateId) (reason : String)
  deriving DecidableEq

/-- Outcome of removing a candidate from the live assembly set. -/
inductive AssemblyRollbackDecision where
  | rolledBack (candidateId : CandidateId)
  | notFound (candidateId : CandidateId)
  deriving DecidableEq

/-- Why a candidate is not inserted. -/
inductive RejectionReason where
  | simulationNotApproved
  | objectiveNotImproved
  | blockGasLimitExceeded
  deriving DecidableEq

/-- The reason as the decision and the log spell it. -/
def RejectionReason.asStr : RejectionReason → String
  | .simulationNotApproved => "simulation_not_approved"
  | .objectiveNotImproved => "objective_not_improved"
  | .blockGasLimitExceeded => "block_gas_limit_exceeded"

/-- Maintains the best currently approved candidate set for a target block. -/
structure AssemblyEngine where
  config : AssemblyConfig
  candidates : List AssemblyCandidate := []
  metrics : AssemblyMetrics := {}
  deriving DecidableEq

/-- Two candidates conflict when they share a transaction. -/
def candidatesConflict (left right : AssemblyCandidate) : Bool :=
  left.txHashes.any fun leftHash => right.txHashes.contains leftHash

/-- What an insert collects of a candidate it conflicts with. -/
structure Conflict where
  index : Nat
  candidateId : CandidateId
  priorityScore : UInt32
  gasUsed : UInt64

namespace AssemblyEngine

/-! ## Metrics -/

/-- The objective of the chosen candidates, summed up afresh. -/
def computeObjective (engine : AssemblyEngine) : AssemblyObjective :=
  engine.candidates.foldl
    (fun objective candidate =>
      { totalPriorityScore :=
          saturatingAdd u64Max objective.totalPriorityScore candidate.priorityScore.toNat
        totalGasUsed := saturatingAdd u64Max objective.totalGasUsed candidate.gasUsed.toNat
        totalCandidates := saturatingAdd usizeMax objective.totalCandidates 1 })
    {}

/-- Brings the three live metrics to the chosen candidates. -/
def refreshLiveMetrics (engine : AssemblyEngine) : AssemblyEngine :=
  let objective := engine.computeObjective
  { engine with
    metrics :=
      { engine.metrics with
        activeCandidateTotal := engine.candidates.length
        totalPriorityScore := objective.totalPriorityScore
        totalGasUsed := objective.totalGasUsed } }

/-- The objective as the live metrics have it. -/
def liveObjective (engine : AssemblyEngine) : AssemblyObjective where
  totalPriorityScore := engine.metrics.totalPriorityScore
  totalGasUsed := engine.metrics.totalGasUsed
  totalCandidates := engine.metrics.activeCandidateTotal

/-! ## Decisions -/

/-- Counts one rejection under its reason. -/
def countRejection (metrics : AssemblyMetrics) : RejectionReason → AssemblyMetrics
  | .simulationNotApproved =>
    { metrics with
      rejectedSimulationNotApprovedTotal :=
        saturatingAdd u64Max metrics.rejectedSimulationNotApprovedTotal 1 }
  | .objectiveNotImproved =>
    { metrics with
      rejectedObjectiveNotImprovedTotal :=
        saturatingAdd u64Max metrics.rejectedObjectiveNotImprovedTotal 1 }
  | .blockGasLimitExceeded =>
    { metrics with
      rejectedGasLimitTotal := saturatingAdd u64Max metrics.rejectedGasLimitTotal 1 }

/-- A rejection changes nothing but its count. -/
def reject (engine : AssemblyEngine) (candidateId : CandidateId) (reason : RejectionReason) :
    AssemblyDecision × AssemblyEngine :=
  (.rejected candidateId reason.asStr,
    { engine with
      metrics := countRejection
        { engine.metrics with rejectedTotal := saturatingAdd u64Max engine.metrics.rejectedTotal 1 }
        reason })

/-- The candidates of the set that conflict with a new one, with their indices. -/
def conflictsWith (candidates : List AssemblyCandidate) (candidate : AssemblyCandidate) :
    List Conflict :=
  (candidates.zipIdx.filter fun entry => candidatesConflict entry.1 candidate).map fun entry =>
    { index := entry.2
      candidateId := entry.1.candidateId
      priorityScore := entry.1.priorityScore
      gasUsed := entry.1.gasUsed }

/-- Attempts to insert a candidate (`insert_inner`). -/
def insert (engine : AssemblyEngine) (candidate : AssemblyCandidate) :
    AssemblyDecision × AssemblyEngine :=
  if !candidate.simulation.approved then engine.reject candidate.candidateId .simulationNotApproved
  else
    let conflicts := conflictsWith engine.candidates candidate
    let replacedCandidateIds := conflicts.map (·.candidateId)
    let conflictedPriorityScore := conflicts.foldl
      (fun total conflict => saturatingAdd u64Max total conflict.priorityScore.toNat) 0
    let conflictedGasUsed := conflicts.foldl
      (fun total conflict => saturatingAdd u64Max total conflict.gasUsed.toNat) 0
    if !replacedCandidateIds.isEmpty && candidate.priorityScore.toNat ≤ conflictedPriorityScore then
      engine.reject candidate.candidateId .objectiveNotImproved
    else
      let nextGasUsed := saturatingAdd u64Max (engine.liveObjective.totalGasUsed - conflictedGasUsed)
        candidate.gasUsed.toNat
      if nextGasUsed > engine.config.blockGasLimit.toNat then
        engine.reject candidate.candidateId .blockGasLimitExceeded
      else
        let kept := conflicts.reverse.foldl (fun candidates conflict =>
          candidates.eraseIdx conflict.index) engine.candidates
        (.inserted candidate.candidateId replacedCandidateIds,
          refreshLiveMetrics
            { engine with
              candidates := kept ++ [candidate]
              metrics :=
                { engine.metrics with
                  insertedTotal := saturatingAdd u64Max engine.metrics.insertedTotal 1
                  replacedTotal := saturatingAdd u64Max engine.metrics.replacedTotal
                    replacedCandidateIds.length } })

/-- Removes a previously inserted candidate by id (`remove_candidate_inner`). -/
def removeCandidate (engine : AssemblyEngine) (candidateId : CandidateId) :
    AssemblyRollbackDecision × AssemblyEngine :=
  match engine.candidates.findIdx? fun candidate => candidate.candidateId = candidateId with
  | none => (.notFound candidateId, engine)
  | some index =>
    (.rolledBack candidateId,
      refreshLiveMetrics
        { engine with
          candidates := engine.candidates.eraseIdx index
          metrics :=
            { engine.metrics with
              rollbackTotal := saturatingAdd u64Max engine.metrics.rollbackTotal 1 } })

/-! ## Histories -/

/-- The calls of the engine's owner. -/
inductive Call where
  | insert (candidate : AssemblyCandidate)
  | removeCandidate (candidateId : CandidateId)
  deriving DecidableEq

/-- The engine after a call. -/
def apply (engine : AssemblyEngine) : Call → AssemblyEngine
  | .insert candidate => (engine.insert candidate).2
  | .removeCandidate candidateId => (engine.removeCandidate candidateId).2

/-- The engine after a history of calls. -/
def run (config : AssemblyConfig) (calls : List Call) : AssemblyEngine :=
  calls.foldl apply { config := config }

/-! ## Conflicts -/

section Conflicts

variable {candidates : List AssemblyCandidate} {candidate : AssemblyCandidate}

/-- The candidates a new one conflicts with. -/
def conflicting (candidates : List AssemblyCandidate) (candidate : AssemblyCandidate) :
    List AssemblyCandidate :=
  candidates.filter fun existing => candidatesConflict existing candidate

/-- The candidates a new one leaves in the set. -/
def compatible (candidates : List AssemblyCandidate) (candidate : AssemblyCandidate) :
    List AssemblyCandidate :=
  candidates.filter fun existing => !candidatesConflict existing candidate

theorem candidatesConflict_eq_false_iff {left right : AssemblyCandidate} :
    candidatesConflict left right = false ↔ left.txHashes.Disjoint right.txHashes := by
  simp only [candidatesConflict, List.any_eq_false, List.contains_iff_mem, List.Disjoint]

/-- What is read of the conflicts is read of the conflicting candidates. -/
theorem map_conflictsWith {β : Type} (candidates : List AssemblyCandidate)
    (candidate : AssemblyCandidate) {ofConflict : Conflict → β} {ofCandidate : AssemblyCandidate → β}
    (same : ∀ existing index, ofConflict
      ⟨index, existing.candidateId, existing.priorityScore, existing.gasUsed⟩ =
        ofCandidate existing) :
    (conflictsWith candidates candidate).map ofConflict =
      (conflicting candidates candidate).map ofCandidate := by
  have unindexed : ∀ start, ((candidates.zipIdx start).filter fun entry =>
      candidatesConflict entry.1 candidate).map (fun entry => ofCandidate entry.1) =
        (conflicting candidates candidate).map ofCandidate := by
    intro start
    induction candidates generalizing start with
    | nil => rfl
    | cons first rest ih =>
        simp only [List.zipIdx_cons, conflicting, List.filter_cons]
        split
        · rw [List.map_cons, List.map_cons, ih]
          rfl
        · exact ih (start + 1)
  have pointwise : ofConflict ∘ (fun entry : AssemblyCandidate × Nat =>
      ⟨entry.2, entry.1.candidateId, entry.1.priorityScore, entry.1.gasUsed⟩) =
        fun entry => ofCandidate entry.1 := by
    funext entry
    exact same entry.1 entry.2
  rw [conflictsWith, List.map_map, pointwise, unindexed]

/-- Erasing indices from behind keeps the earlier ones valid. -/
theorem foldr_eraseIdx_succ {α : Type} (first : α) (indices : List Nat) (list : List α) :
    (indices.map (· + 1)).foldr (fun index kept => kept.eraseIdx index) (first :: list) =
      first :: indices.foldr (fun index kept => kept.eraseIdx index) list := by
  induction indices with
  | nil => rfl
  | cons index rest ih => rw [List.map_cons, List.foldr_cons, ih, List.foldr_cons, List.eraseIdx_cons_succ]

theorem foldr_eraseIdx_filter {α : Type} (removed : α → Bool) (list : List α) :
    ((list.zipIdx.filter fun entry => removed entry.1).map Prod.snd).foldr
        (fun index kept => kept.eraseIdx index) list =
      list.filter fun element => !removed element := by
  induction list with
  | nil => rfl
  | cons first rest ih =>
      have shifted : ((rest.zipIdx 1).filter fun entry => removed entry.1).map Prod.snd =
          (((rest.zipIdx).filter fun entry => removed entry.1).map Prod.snd).map (· + 1) := by
        rw [List.zipIdx_succ, List.filter_map, List.map_map, List.map_map]
        rfl
      rw [List.zipIdx_cons, Nat.zero_add]
      cases leaves : removed first with
      | true =>
          simp only [List.filter_cons, leaves, if_true, Bool.not_true, Bool.false_eq_true, if_false,
            List.map_cons, List.foldr_cons, shifted, foldr_eraseIdx_succ, ih, List.eraseIdx_cons_zero]
      | false =>
          simp only [List.filter_cons, leaves, Bool.false_eq_true, if_false, Bool.not_false, if_true,
            shifted, foldr_eraseIdx_succ, ih]

/-- Removing the conflicts by their indices, the last first, leaves the compatible candidates. -/
theorem eraseIdx_conflictsWith (candidates : List AssemblyCandidate)
    (candidate : AssemblyCandidate) :
    (conflictsWith candidates candidate).reverse.foldl
        (fun kept conflict => kept.eraseIdx conflict.index) candidates =
      compatible candidates candidate := by
  rw [List.foldl_reverse, compatible, ← foldr_eraseIdx_filter, conflictsWith, List.foldr_map,
    List.foldr_map]

end Conflicts

/-! ## The invariant -/

/-- The exact sum of the scores. -/
def scoreOf (candidates : List AssemblyCandidate) : Nat :=
  (candidates.map (·.priorityScore.toNat)).sum

/-- The exact sum of the gas. -/
def gasOf (candidates : List AssemblyCandidate) : Nat := (candidates.map (·.gasUsed.toNat)).sum

/-- The selected candidates are approved, disjoint and within the gas limit, and the metrics are
exact. -/
structure AssemblyInvariant (engine : AssemblyEngine) : Prop where
  approved : ∀ candidate ∈ engine.candidates, candidate.simulation.approved = true
  disjoint : engine.candidates.Pairwise fun left right => left.txHashes.Disjoint right.txHashes
  withinLimit : gasOf engine.candidates ≤ engine.config.blockGasLimit.toNat
  score_exact : engine.liveObjective.totalPriorityScore = scoreOf engine.candidates
  gas_exact : engine.liveObjective.totalGasUsed = gasOf engine.candidates
  count_exact : engine.liveObjective.totalCandidates = engine.candidates.length

section Sums

variable {candidates : List AssemblyCandidate}

theorem sum_conflicting_add_compatible (weight : AssemblyCandidate → Nat)
    (candidates : List AssemblyCandidate) (candidate : AssemblyCandidate) :
    ((conflicting candidates candidate).map weight).sum +
      ((compatible candidates candidate).map weight).sum = (candidates.map weight).sum := by
  unfold conflicting compatible
  induction candidates with
  | nil => rfl
  | cons first rest ih =>
      cases conflict : candidatesConflict first candidate with
      | true =>
          simp only [List.filter_cons, conflict, if_true, Bool.not_true, Bool.false_eq_true,
            if_false, List.map_cons, List.sum_cons]
          omega
      | false =>
          simp only [List.filter_cons, conflict, if_true, Bool.not_false, Bool.false_eq_true,
            if_false, List.map_cons, List.sum_cons]
          omega

/-- Fewer than `2 ^ 32` scores of 32 bits add up without overflow. -/
theorem scoreOf_lt (few : candidates.length < 2 ^ 32) : scoreOf candidates < 2 ^ 64 := by
  have each : ∀ score ∈ candidates.map (·.priorityScore.toNat), score ≤ 2 ^ 32 - 1 := by
    intro score member
    obtain ⟨candidate, -, rfl⟩ := List.mem_map.mp member
    have bound := candidate.priorityScore.toNat_lt
    omega
  have total := List.sum_le_card_nsmul _ _ each
  rw [List.length_map, smul_eq_mul] at total
  have product : candidates.length * (2 ^ 32 - 1) ≤ 2 ^ 32 * (2 ^ 32 - 1) :=
    Nat.mul_le_mul_right _ (Nat.le_of_lt few)
  unfold scoreOf
  omega

/-- The objective folds the three sums with saturation. -/
theorem computeObjective_eq (engine : AssemblyEngine) :
    engine.computeObjective.totalPriorityScore = min (scoreOf engine.candidates) u64Max ∧
      engine.computeObjective.totalGasUsed = min (gasOf engine.candidates) u64Max := by
  have folded : ∀ objective : AssemblyObjective,
      let result := engine.candidates.foldl
        (fun objective candidate =>
          ({ totalPriorityScore :=
              saturatingAdd u64Max objective.totalPriorityScore candidate.priorityScore.toNat
             totalGasUsed := saturatingAdd u64Max objective.totalGasUsed candidate.gasUsed.toNat
             totalCandidates := saturatingAdd usizeMax objective.totalCandidates 1 } :
            AssemblyObjective)) objective
      result.totalPriorityScore = engine.candidates.foldl (fun total candidate =>
          saturatingAdd u64Max total candidate.priorityScore.toNat) objective.totalPriorityScore ∧
        result.totalGasUsed = engine.candidates.foldl (fun total candidate =>
          saturatingAdd u64Max total candidate.gasUsed.toNat) objective.totalGasUsed := by
    induction engine.candidates with
    | nil => exact fun objective => ⟨rfl, rfl⟩
    | cons first rest ih => exact fun objective => ih _
  obtain ⟨score, gas⟩ := folded {}
  constructor
  · refine score.trans ?_
    rw [foldl_saturatingAdd _ _ _ _ (Nat.zero_le _), Nat.zero_add]
    rfl
  · refine gas.trans ?_
    rw [foldl_saturatingAdd _ _ _ _ (Nat.zero_le _), Nat.zero_add]
    rfl

end Sums

/-! ## One call -/

section Calls

variable {engine : AssemblyEngine} {candidate : AssemblyCandidate}

theorem conflictsWith_score (candidates : List AssemblyCandidate) (candidate : AssemblyCandidate) :
    (conflictsWith candidates candidate).foldl
        (fun total conflict => saturatingAdd u64Max total conflict.priorityScore.toNat) 0 =
      min (scoreOf (conflicting candidates candidate)) u64Max := by
  have scores : (conflictsWith candidates candidate).map (·.priorityScore.toNat) =
      (conflicting candidates candidate).map (·.priorityScore.toNat) :=
    map_conflictsWith candidates candidate fun _ _ => rfl
  rw [foldl_saturatingAdd _ _ _ _ (Nat.zero_le _), Nat.zero_add, scores, scoreOf]

theorem conflictsWith_gas (candidates : List AssemblyCandidate) (candidate : AssemblyCandidate) :
    (conflictsWith candidates candidate).foldl
        (fun total conflict => saturatingAdd u64Max total conflict.gasUsed.toNat) 0 =
      min (gasOf (conflicting candidates candidate)) u64Max := by
  have gas : (conflictsWith candidates candidate).map (·.gasUsed.toNat) =
      (conflicting candidates candidate).map (·.gasUsed.toNat) :=
    map_conflictsWith candidates candidate fun _ _ => rfl
  rw [foldl_saturatingAdd _ _ _ _ (Nat.zero_le _), Nat.zero_add, gas, gasOf]

/-- An insert rejects its candidate, or it has passed all three checks. -/
theorem insert_cases (engine : AssemblyEngine) (candidate : AssemblyCandidate) :
    (∃ reason, engine.insert candidate = engine.reject candidate.candidateId reason) ∨
    (candidate.simulation.approved = true ∧
      (conflicting engine.candidates candidate ≠ [] →
        min (scoreOf (conflicting engine.candidates candidate)) u64Max <
          candidate.priorityScore.toNat) ∧
      saturatingAdd u64Max (engine.liveObjective.totalGasUsed -
          min (gasOf (conflicting engine.candidates candidate)) u64Max) candidate.gasUsed.toNat ≤
        engine.config.blockGasLimit.toNat ∧
      ∃ metrics, engine.insert candidate =
        (.inserted candidate.candidateId
          ((conflicting engine.candidates candidate).map (·.candidateId)),
          refreshLiveMetrics
            { config := engine.config
              candidates := compatible engine.candidates candidate ++ [candidate]
              metrics := metrics })) := by
  have ids : (conflictsWith engine.candidates candidate).map (·.candidateId) =
      (conflicting engine.candidates candidate).map (·.candidateId) :=
    map_conflictsWith engine.candidates candidate fun _ _ => rfl
  unfold insert
  dsimp only
  rw [conflictsWith_score, conflictsWith_gas, eraseIdx_conflictsWith, ids]
  split
  case isTrue => exact .inl ⟨_, rfl⟩
  case isFalse approved =>
    split
    case isTrue => exact .inl ⟨_, rfl⟩
    case isFalse improves =>
      split
      case isTrue => exact .inl ⟨_, rfl⟩
      case isFalse fits =>
        refine .inr ⟨by simpa using approved, fun conflicts => ?_, Nat.le_of_not_lt fits, _, rfl⟩
        by_contra notBetter
        apply improves
        rw [Bool.and_eq_true, decide_eq_true_eq]
        exact ⟨by simpa using conflicts, Nat.le_of_not_lt notBetter⟩

theorem liveObjective_reject (engine : AssemblyEngine) (candidateId : CandidateId)
    (reason : RejectionReason) :
    (engine.reject candidateId reason).2.candidates = engine.candidates ∧
      (engine.reject candidateId reason).2.liveObjective = engine.liveObjective ∧
      (engine.reject candidateId reason).2.config = engine.config := by
  cases reason <;> exact ⟨rfl, rfl, rfl⟩

/-- A refreshed engine has exact metrics when its sums fit. -/
theorem AssemblyInvariant.refresh
    (approved : ∀ candidate ∈ engine.candidates, candidate.simulation.approved = true)
    (disjoint : engine.candidates.Pairwise fun left right => left.txHashes.Disjoint right.txHashes)
    (within : gasOf engine.candidates ≤ engine.config.blockGasLimit.toNat)
    (limit : engine.config.blockGasLimit.toNat < u64Max)
    (few : engine.candidates.length < 2 ^ 32) : AssemblyInvariant engine.refreshLiveMetrics where
  approved := approved
  disjoint := disjoint
  withinLimit := within
  score_exact := by
    have bound := scoreOf_lt few
    refine (computeObjective_eq engine).1.trans (Nat.min_eq_left ?_)
    unfold u64Max
    omega
  gas_exact := (computeObjective_eq engine).2.trans (Nat.min_eq_left (by omega))
  count_exact := rfl

theorem AssemblyInvariant.congr {after : AssemblyEngine} (invariant : AssemblyInvariant engine)
    (candidates : after.candidates = engine.candidates)
    (objective : after.liveObjective = engine.liveObjective) (config : after.config = engine.config) :
    AssemblyInvariant after where
  approved := candidates ▸ invariant.approved
  disjoint := candidates ▸ invariant.disjoint
  withinLimit := by
    rw [candidates, config]
    exact invariant.withinLimit
  score_exact := by
    rw [candidates, objective]
    exact invariant.score_exact
  gas_exact := by
    rw [candidates, objective]
    exact invariant.gas_exact
  count_exact := by
    rw [candidates, objective]
    exact invariant.count_exact

/-- A new candidate is disjoint from the ones it leaves in the set. -/
theorem pairwise_compatible_append {candidates : List AssemblyCandidate}
    (disjoint : candidates.Pairwise fun left right => left.txHashes.Disjoint right.txHashes)
    (candidate : AssemblyCandidate) :
    (compatible candidates candidate ++ [candidate]).Pairwise
      fun left right => left.txHashes.Disjoint right.txHashes := by
  refine List.pairwise_append.mpr ⟨disjoint.sublist List.filter_sublist,
    List.pairwise_singleton _ _, fun existing earlier new alone => ?_⟩
  rw [List.mem_singleton.mp alone, ← candidatesConflict_eq_false_iff]
  simpa using (List.mem_filter.mp earlier).2

/-- What an insert does to the set and to the objective. -/
def InsertOutcome (before : AssemblyEngine) (candidate : AssemblyCandidate) : Prop :=
  match before.insert candidate with
  | (.rejected candidateId _, after) =>
    candidateId = candidate.candidateId ∧ after.candidates = before.candidates ∧
      after.liveObjective = before.liveObjective
  | (.inserted candidateId replacedCandidateIds, after) =>
    candidateId = candidate.candidateId ∧
      after.candidates = compatible before.candidates candidate ++ [candidate] ∧
      replacedCandidateIds = (conflicting before.candidates candidate).map (·.candidateId) ∧
      before.liveObjective.totalPriorityScore ≤ after.liveObjective.totalPriorityScore ∧
      (replacedCandidateIds ≠ [] →
        before.liveObjective.totalPriorityScore < after.liveObjective.totalPriorityScore)

/-- An insert keeps the invariant and has the outcome that its decision says. -/
theorem AssemblyInvariant.insert (invariant : AssemblyInvariant engine)
    (limit : engine.config.blockGasLimit.toNat < u64Max)
    (few : engine.candidates.length + 1 < 2 ^ 32) (candidate : AssemblyCandidate) :
    AssemblyInvariant (engine.insert candidate).2 ∧ InsertOutcome engine candidate := by
  unfold InsertOutcome
  rcases insert_cases engine candidate with ⟨reason, rejected⟩ |
    ⟨approved, improves, fits, metrics, inserted⟩
  · obtain ⟨candidates, objective, config⟩ :=
      liveObjective_reject engine candidate.candidateId reason
    rw [rejected]
    exact ⟨invariant.congr candidates objective config, rfl, candidates, objective⟩
  · have gas := sum_conflicting_add_compatible (·.gasUsed.toNat) engine.candidates candidate
    have score := sum_conflicting_add_compatible (·.priorityScore.toNat) engine.candidates candidate
    have exactGas := invariant.gas_exact
    have within := invariant.withinLimit
    have newGas : gasOf (compatible engine.candidates candidate ++ [candidate]) ≤
        engine.config.blockGasLimit.toNat := by
      rw [exactGas] at fits
      unfold gasOf saturatingAdd at *
      rw [List.map_append, List.sum_append, List.map_singleton, List.sum_singleton]
      omega
    have fewer : (compatible engine.candidates candidate ++ [candidate]).length < 2 ^ 32 := by
      have bound := List.length_filter_le
        (fun existing => !candidatesConflict existing candidate) engine.candidates
      rw [List.length_append, List.length_singleton]
      unfold compatible
      omega
    have kept : AssemblyInvariant (refreshLiveMetrics
        { config := engine.config
          candidates := compatible engine.candidates candidate ++ [candidate]
          metrics := metrics }) := by
      apply AssemblyInvariant.refresh
      · intro selected member
        rcases List.mem_append.mp member with earlier | new
        · exact invariant.approved selected (List.mem_of_mem_filter earlier)
        · rw [List.mem_singleton.mp new]
          exact approved
      · exact pairwise_compatible_append invariant.disjoint candidate
      · exact newGas
      · exact limit
      · exact fewer
    rw [inserted]
    have exactScore := kept.score_exact
    have oldScore := invariant.score_exact
    have newScore : scoreOf (compatible engine.candidates candidate ++ [candidate]) =
        scoreOf (compatible engine.candidates candidate) + candidate.priorityScore.toNat := by
      unfold scoreOf
      rw [List.map_append, List.sum_append, List.map_singleton, List.sum_singleton]
    have better : conflicting engine.candidates candidate ≠ [] →
        engine.liveObjective.totalPriorityScore <
          scoreOf (compatible engine.candidates candidate ++ [candidate]) := by
      intro conflicts
      have strict := improves conflicts
      have bound := candidate.priorityScore.toNat_lt
      unfold scoreOf u64Max at *
      omega
    refine ⟨kept, rfl, rfl, rfl, ?_, fun replaced => ?_⟩
    · rw [exactScore]
      by_cases conflicts : conflicting engine.candidates candidate = []
      · rw [conflicts] at score
        unfold scoreOf at *
        simp only [List.map_nil, List.sum_nil] at score
        change _ ≤ scoreOf (compatible engine.candidates candidate ++ [candidate])
        unfold scoreOf
        omega
      · exact Nat.le_of_lt (better conflicts)
    · rw [exactScore]
      exact better fun none => replaced (by rw [none]; rfl)

theorem removeCandidate_sublist (engine : AssemblyEngine) (candidateId : CandidateId) :
    (engine.removeCandidate candidateId).2.candidates.Sublist engine.candidates := by
  unfold AssemblyEngine.removeCandidate
  split
  case h_1 => exact List.Sublist.refl _
  case h_2 index _ => exact List.eraseIdx_sublist engine.candidates index

/-- Removing a candidate keeps the invariant. -/
theorem AssemblyInvariant.removeCandidate (invariant : AssemblyInvariant engine)
    (limit : engine.config.blockGasLimit.toNat < u64Max)
    (few : engine.candidates.length < 2 ^ 32) (candidateId : CandidateId) :
    AssemblyInvariant (engine.removeCandidate candidateId).2 := by
  unfold AssemblyEngine.removeCandidate
  split
  case h_1 => exact invariant
  case h_2 index _ =>
    have part := List.eraseIdx_sublist engine.candidates index
    apply AssemblyInvariant.refresh
    · exact fun candidate member => invariant.approved candidate (part.subset member)
    · exact invariant.disjoint.sublist part
    · exact Nat.le_trans ((part.map _).sum_le_sum fun _ _ => Nat.zero_le _) invariant.withinLimit
    · exact limit
    · exact Nat.lt_of_le_of_lt part.length_le few

theorem config_apply (engine : AssemblyEngine) (call : Call) :
    (engine.apply call).config = engine.config := by
  cases call with
  | insert candidate =>
      change (engine.insert candidate).2.config = engine.config
      rcases insert_cases engine candidate with ⟨reason, rejected⟩ | ⟨-, -, -, metrics, inserted⟩
      · rw [rejected]
        exact (liveObjective_reject engine candidate.candidateId reason).2.2
      · rw [inserted]
        rfl
  | removeCandidate candidateId =>
      change (engine.removeCandidate candidateId).2.config = engine.config
      unfold AssemblyEngine.removeCandidate
      split <;> rfl

/-- A call adds at most one candidate. -/
theorem length_apply (engine : AssemblyEngine) (call : Call) :
    (engine.apply call).candidates.length ≤ engine.candidates.length + 1 := by
  cases call with
  | insert candidate =>
      change (engine.insert candidate).2.candidates.length ≤ _
      rcases insert_cases engine candidate with ⟨reason, rejected⟩ | ⟨-, -, -, metrics, inserted⟩
      · rw [rejected, (liveObjective_reject engine candidate.candidateId reason).1]
        exact Nat.le_succ _
      · have bound := List.length_filter_le
          (fun existing => !candidatesConflict existing candidate) engine.candidates
        rw [inserted]
        change (compatible engine.candidates candidate ++ [candidate]).length ≤ _
        rw [List.length_append, List.length_singleton]
        exact Nat.succ_le_succ bound
  | removeCandidate candidateId =>
      change (engine.removeCandidate candidateId).2.candidates.length ≤ _
      unfold AssemblyEngine.removeCandidate
      split
      · exact Nat.le_succ _
      · exact Nat.le_succ_of_le (List.eraseIdx_sublist engine.candidates _).length_le

end Calls

/-! ## Runs -/

section Runs

variable {config : AssemblyConfig}

theorem run_concat (config : AssemblyConfig) (calls : List Call) (call : Call) :
    run config (calls ++ [call]) = (run config calls).apply call := by
  simp only [run, List.foldl_append, List.foldl_cons, List.foldl_nil]

theorem run_frame (config : AssemblyConfig) (calls : List Call) :
    (run config calls).config = config ∧ (run config calls).candidates.length ≤ calls.length := by
  induction calls using List.reverseRecOn with
  | nil => exact ⟨rfl, Nat.le_refl _⟩
  | append_singleton calls call ih =>
      obtain ⟨same, bound⟩ := ih
      have longer := length_apply (run config calls) call
      rw [run_concat, List.length_append, List.length_singleton]
      exact ⟨(config_apply _ call).trans same, by omega⟩

theorem AssemblyInvariant.run (limit : config.blockGasLimit.toNat < u64Max) {calls : List Call}
    (few : calls.length < 2 ^ 32) : AssemblyInvariant (run config calls) := by
  induction calls using List.reverseRecOn with
  | nil =>
      exact
        { approved := fun candidate member => by cases member
          disjoint := List.Pairwise.nil
          withinLimit := Nat.zero_le _
          score_exact := rfl
          gas_exact := rfl
          count_exact := rfl }
  | append_singleton calls call ih =>
      rw [List.length_append, List.length_singleton] at few
      obtain ⟨same, bound⟩ := run_frame config calls
      have invariant := ih (by omega)
      have capped : (AssemblyEngine.run config calls).config.blockGasLimit.toNat < u64Max := by
        rw [same]
        exact limit
      rw [run_concat]
      cases call with
      | insert candidate => exact (invariant.insert capped (by omega) candidate).1
      | removeCandidate candidateId => exact invariant.removeCandidate capped (by omega) candidateId

end Runs

/-- **The assembly engine keeps its invariant** over every history of fewer than `2 ^ 32` calls
under every gas limit below `u64::MAX`, and every insert of the history has the outcome that its
decision says. -/
theorem run_assemblyInvariant (config : AssemblyConfig)
    (limit : config.blockGasLimit.toNat < u64Max) (calls : List Call)
    (few : calls.length < 2 ^ 32) :
    AssemblyInvariant (run config calls) ∧
      ∀ before candidate after, calls = before ++ .insert candidate :: after →
        InsertOutcome (run config before) candidate := by
  refine ⟨AssemblyInvariant.run limit few, ?_⟩
  rintro before candidate after rfl
  rw [List.length_append, List.length_cons] at few
  obtain ⟨same, bound⟩ := run_frame config before
  have invariant : AssemblyInvariant (run config before) :=
    AssemblyInvariant.run limit (by omega)
  exact (invariant.insert (by rw [same]; exact limit) (by omega) candidate).2

/-- The candidate of the crate's tests. -/
def sampleCandidate (candidateId : CandidateId) (txHashes : List TxHash) (priorityScore : UInt32)
    (gasUsed : UInt64) : AssemblyCandidate where
  candidateId := candidateId
  txHashes := txHashes
  priorityScore := priorityScore
  gasUsed := gasUsed
  kind := .transaction
  simulation := { simId := "sim", blockNumber := 1, approved := true }

/-- A bundle that replaces two transactions, and a candidate that does not fit. -/
def replacingCalls : List Call :=
  [.insert (sampleCandidate "a" [1] 10 21000), .insert (sampleCandidate "b" [2] 20 21000),
    .insert (sampleCandidate "ab" [1, 2] 31 50000), .insert (sampleCandidate "c" [3] 5 29990000),
    .removeCandidate "b"]

theorem replacingCalls_assemblyInvariant :
    AssemblyInvariant (run {} replacingCalls) ∧
      ∀ before candidate after, replacingCalls = before ++ .insert candidate :: after →
        InsertOutcome (run {} before) candidate :=
  run_assemblyInvariant {} (by decide) replacingCalls (by decide)

end AssemblyEngine

end Mempulse.Builder
