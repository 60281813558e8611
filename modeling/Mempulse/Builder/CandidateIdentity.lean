import Mempulse.LiveRpc.AssemblySet
import Mempulse.LiveRpc.Origins
import Mempulse.Searcher.Ranking

/-!
# Candidate identity

The builder names a candidate by its strategy and its transaction, as the scheduler does. A ranked
candidate has its transaction among its members, so two candidates of one id conflict, and the
assembly set holds at most one of them.
-/

set_option autoImplicit false

namespace Mempulse.Searcher

open FeatureEngine

/-! ## Members -/

/-- A candidate has its transaction among its members. -/
def OpportunityCandidate.NamesItself (candidate : OpportunityCandidate) : Prop :=
  candidate.txHash ∈ candidate.memberTxHashes

theorem weightedCandidate_namesItself (strategy : StrategyKind) (featured : FeaturedTransaction)
    (mevWeight urgencyWeight bonus : Nat) :
    (weightedCandidate strategy featured mevWeight urgencyWeight bonus).NamesItself :=
  List.mem_singleton_self _

theorem bundleOfPair_namesItself {left right : BundleInput} {candidate : OpportunityCandidate}
    (bundled : bundleOfPair left right = some candidate) : candidate.NamesItself := by
  unfold bundleOfPair at bundled
  split at bundled <;> cases bundled
  exact List.mem_cons_self

/-- **Every ranked candidate has its transaction among its members**, bundles included. -/
theorem rankOpportunityBatch_namesItself {batch : List SearcherInputTx} {config : SearcherConfig}
    {candidate : OpportunityCandidate}
    (ranked : candidate ∈ (rankOpportunityBatch batch config).candidates) :
    candidate.NamesItself := by
  rw [candidates_rankOpportunityBatch] at ranked
  rcases List.mem_append.mp (mem_sortBy.mp (List.mem_of_mem_take ranked)) with alone | bundled
  · obtain ⟨input, -, ofInput⟩ := List.mem_flatMap.mp alone
    obtain ⟨-, strategy, mevWeight, urgencyWeight, bonus, -, -, -, -, rfl⟩ :=
      rankTransaction_weighted (mem_sortBy.mp ofInput)
    exact weightedCandidate_namesItself _ _ _ _ _
  · obtain ⟨pair, -, ofPair⟩ := List.mem_filterMap.mp bundled
    exact bundleOfPair_namesItself ofPair

end Mempulse.Searcher

namespace Mempulse.LiveRpc

open Searcher Builder

/-! ## Opportunities of the pipeline -/

/-- What the pipeline makes of a ranked candidate. -/
def executableOpportunityOf (candidate : OpportunityCandidate) (detectedUnixMs : Int64)
    (chainId : Option UInt64) : ExecutableOpportunity where
  record :=
    { txHash := candidate.txHash
      chainId := chainId
      strategy := candidate.strategy.debug
      score := UInt32.ofNat candidate.score
      protocol := candidate.protocol
      category := candidate.category
      featureEngineVersion := candidate.featureEngineVersion
      scorerVersion := candidate.scorerVersion
      strategyVersion := candidate.strategyVersion
      reasons := candidate.reasons
      detectedUnixMs := detectedUnixMs }
  candidate := candidate

theorem mem_buildExecutableOpportunities_ranked {executable : List Scheduler.ValidatedTransaction}
    {detectedUnixMs : Int64} {chainId : Option UInt64} {built : ExecutableOpportunity}
    (member : built ∈ buildExecutableOpportunities executable detectedUnixMs chainId) :
    built = executableOpportunityOf built.candidate detectedUnixMs chainId := by
  unfold buildExecutableOpportunities at member
  split at member
  · cases member
  · obtain ⟨candidate, -, rfl⟩ := List.mem_map.mp member
    rfl

/-! ## Assembly candidates of ranked opportunities -/

/-- The candidate is made of an opportunity of some ranking and of the results of some simulation, by
whichever encoder does what the `hex` crate says. -/
structure RankedCandidate (candidate : AssemblyCandidate) (opportunity : OpportunityCandidate) :
    Prop where
  ranked : ∃ batch config, opportunity ∈ (rankOpportunityBatch batch config).candidates
  built : ∃ encode, HexEncodes encode ∧ ∃ simulation,
    fromSimulatedOpportunity encode opportunity simulation = .ok candidate

section Ranked

variable {candidate other : AssemblyCandidate} {opportunity second : OpportunityCandidate}

theorem RankedCandidate.spelled (made : RankedCandidate candidate opportunity) :
    candidate.candidateId =
      opportunity.strategy.debug ++ ":" ++ formatFixedHex opportunity.txHash := by
  obtain ⟨encode, documented, simulation, built⟩ := made.built
  exact candidateId_fromSimulatedOpportunity documented built

theorem RankedCandidate.named (made : RankedCandidate candidate opportunity) :
    opportunity.txHash ∈ candidate.txHashes := by
  obtain ⟨batch, config, ranked⟩ := made.ranked
  obtain ⟨encode, -, simulation, built⟩ := made.built
  have itself := rankOpportunityBatch_namesItself ranked
  have members : opportunityHashes opportunity = opportunity.memberTxHashes :=
    if_neg (by simpa using List.ne_nil_of_mem itself)
  rw [txHashes_fromSimulatedOpportunity built, members]
  exact itself

/-- Candidates of one id are of one strategy and one transaction. -/
theorem RankedCandidate.inj (made : RankedCandidate candidate opportunity)
    (made' : RankedCandidate other second) (same : candidate.candidateId = other.candidateId) :
    opportunity.strategy = second.strategy ∧ opportunity.txHash = second.txHash :=
  spelledId_inj (by rw [← made.spelled, ← made'.spelled, same])

/-- Disjoint candidates have different ids. -/
theorem RankedCandidate.candidateId_ne (made : RankedCandidate candidate opportunity)
    (made' : RankedCandidate other second) (apart : candidate.txHashes.Disjoint other.txHashes) :
    candidate.candidateId ≠ other.candidateId := by
  intro same
  have named := made'.named
  rw [← (made.inj made' same).2] at named
  exact apart made.named named

end Ranked

/-! ## Histories -/

section Histories

open AssemblyEngine

variable {engine : AssemblyEngine} {config : AssemblyConfig} {calls : List Call}

/-- The inserts of a history are of ranked opportunities. -/
def RankedCalls (calls : List Call) : Prop :=
  ∀ candidate, .insert candidate ∈ calls → ∃ opportunity, RankedCandidate candidate opportunity

/-- The selected candidates are of ranked opportunities and disjoint. -/
structure Selected (engine : AssemblyEngine) : Prop where
  ranked : ∀ candidate ∈ engine.candidates, ∃ opportunity, RankedCandidate candidate opportunity
  disjoint : engine.candidates.Pairwise fun left right => left.txHashes.Disjoint right.txHashes

theorem Selected.insert (selected : Selected engine) {candidate : AssemblyCandidate}
    {opportunity : OpportunityCandidate} (made : RankedCandidate candidate opportunity) :
    Selected (engine.insert candidate).2 := by
  refine ⟨fun held member => ?_, ?_⟩
  · rcases mem_insert member with before | rfl
    · exact selected.ranked held before
    · exact ⟨opportunity, made⟩
  · rcases engine.insert_cases candidate with ⟨reason, rejected⟩ | ⟨-, -, -, metrics, inserted⟩
    · rw [rejected, (liveObjective_reject engine candidate.candidateId reason).1]
      exact selected.disjoint
    · rw [inserted]
      exact pairwise_compatible_append selected.disjoint candidate

theorem Selected.removeCandidate (selected : Selected engine) (candidateId : CandidateId) :
    Selected (engine.removeCandidate candidateId).2 := by
  have part := removeCandidate_sublist engine candidateId
  exact ⟨fun held member => selected.ranked held (part.subset member), selected.disjoint.sublist part⟩

theorem Selected.run (ranked : RankedCalls calls) : Selected (run config calls) := by
  induction calls using List.reverseRecOn with
  | nil => exact ⟨fun held member => (nomatch member), List.Pairwise.nil⟩
  | append_singleton calls call ih =>
      have earlier := ih fun candidate member => ranked candidate (List.mem_append_left _ member)
      rw [run_concat]
      cases call with
      | insert candidate =>
          obtain ⟨opportunity, made⟩ := ranked candidate (List.mem_append_right _ (.head _))
          exact earlier.insert made
      | removeCandidate candidateId => exact earlier.removeCandidate candidateId

theorem Selected.nodup (selected : Selected engine) :
    (engine.candidates.map (·.candidateId)).Nodup := by
  refine List.pairwise_map.mpr (selected.disjoint.imp_of_mem ?_)
  intro left right leftHeld rightHeld apart
  obtain ⟨opportunity, made⟩ := selected.ranked left leftHeld
  obtain ⟨second, made'⟩ := selected.ranked right rightHeld
  exact made.candidateId_ne made' apart

/-- After a removal no selected candidate has the id that was removed. -/
theorem Selected.removed (selected : Selected engine) (candidateId : CandidateId) :
    candidateId ∉ (engine.removeCandidate candidateId).2.candidates.map (·.candidateId) := by
  intro remains
  obtain ⟨candidate, member, same⟩ := List.mem_map.mp remains
  unfold AssemblyEngine.removeCandidate at member
  split at member
  case h_1 missing =>
    have different := List.findIdx?_eq_none_iff.mp missing candidate member
    exact absurd same (by simpa using different)
  case h_2 index found =>
    obtain ⟨bound, here, -⟩ := List.findIdx?_eq_some_iff_getElem.mp found
    obtain ⟨position, elsewhere, held⟩ := List.mem_eraseIdx_iff_getElem?.mp member
    -- both positions hold the id, and the ids are different
    have first : (engine.candidates.map (·.candidateId))[index]? = some candidateId := by
      rw [List.getElem?_map, List.getElem?_eq_getElem bound]
      simpa using here
    have other : (engine.candidates.map (·.candidateId))[position]? = some candidateId := by
      rw [List.getElem?_map, held, Option.map_some, same]
    exact elsewhere ((List.getElem?_inj (by simpa using bound) selected.nodup).mp
      (first.trans other.symm)).symm

end Histories

/-! ## The theorem -/

/-- The id of a candidate of the builder is the one that the pipeline registers with the scheduler,
and it tells candidates of another strategy or transaction apart. -/
structure IdentityAgrees (candidate : AssemblyCandidate) (opportunity : OpportunityCandidate) :
    Prop where
  registered : ∀ detectedUnixMs chainId, candidate.candidateId =
    (schedulerCandidateFromExecutableOpportunity
      (executableOpportunityOf opportunity detectedUnixMs chainId)).candidateId
  pipeline : ∀ executable detectedUnixMs chainId,
    ∀ built ∈ buildExecutableOpportunities executable detectedUnixMs chainId,
      built.candidate = opportunity →
        candidate.candidateId = (schedulerCandidateFromExecutableOpportunity built).candidateId
  injective : ∀ other second, RankedCandidate other second →
    candidate.candidateId = other.candidateId →
      opportunity.strategy = second.strategy ∧ opportunity.txHash = second.txHash

theorem RankedCandidate.identityAgrees {candidate : AssemblyCandidate}
    {opportunity : OpportunityCandidate} (made : RankedCandidate candidate opportunity) :
    IdentityAgrees candidate opportunity where
  registered _ _ := made.spelled
  pipeline executable detectedUnixMs chainId built member same := by
    rw [mem_buildExecutableOpportunities_ranked member, same]
    exact made.spelled
  injective _ _ made' := made.inj made'

/-- **The ids in the assembly set are unique and are those of the scheduler**, over every history
whose inserts are of ranked opportunities, whatever their simulations. -/
theorem run_candidateIds_unique (config : AssemblyConfig) (calls : List AssemblyEngine.Call)
    (ranked : RankedCalls calls) :
    ((AssemblyEngine.run config calls).candidates.map (·.candidateId)).Nodup ∧
      (∀ candidateId, candidateId ∉
        ((AssemblyEngine.run config calls).removeCandidate candidateId).2.candidates.map
          (·.candidateId)) ∧
      ∀ candidate opportunity, RankedCandidate candidate opportunity →
        IdentityAgrees candidate opportunity :=
  ⟨(Selected.run ranked).nodup, (Selected.run ranked).removed,
    fun _ _ made => made.identityAgrees⟩

/-- Both swaps succeed. -/
def swapResults : SimulationBatchResult where
  chainContext := { blockNumber := 1 }
  txResults := [⟨10, true, 21000⟩, ⟨12, true, 90000⟩]
  finalStateDiffHash := 0

/-- The assembly candidates of two swaps of one sender, the worst first. -/
def swapCandidates : List AssemblyCandidate :=
  (rankOpportunityBatch [swapInput 10 7, swapInput 12 8]
    { minScore := 0, maxCandidates := 8 }).candidates.reverse.filterMap fun opportunity =>
      (fromSimulatedOpportunity hexEncode opportunity swapResults).toOption

theorem rankedCalls_swapCandidates : RankedCalls (swapCandidates.map .insert) := by
  intro candidate member
  obtain ⟨_, listed, same⟩ := List.mem_map.mp member
  cases same
  obtain ⟨opportunity, ranked, taken⟩ := List.mem_filterMap.mp listed
  refine ⟨opportunity, ⟨_, _, List.mem_reverse.mp ranked⟩, hexEncode,
    hexEncodes_hexEncode, swapResults, ?_⟩
  cases built : fromSimulatedOpportunity hexEncode opportunity swapResults with
  | error error =>
      rw [built] at taken
      cases taken
  | ok made =>
      rw [built] at taken
      exact congrArg Except.ok (Option.some.inj taken)

/-- The bundle of the two swaps takes the place of their own candidates. -/
theorem run_candidateIds_unique_swaps :
    ((AssemblyEngine.run {} (swapCandidates.map .insert)).candidates.map
        (·.candidateId)).Nodup ∧
      swapCandidates.length = 3 ∧
      (AssemblyEngine.run {} (swapCandidates.map .insert)).candidates.map (·.txHashes) =
        [[10, 12]] :=
  ⟨(run_candidateIds_unique {} _ rankedCalls_swapCandidates).1, by decide +kernel,
    by decide +kernel⟩

end Mempulse.LiveRpc
