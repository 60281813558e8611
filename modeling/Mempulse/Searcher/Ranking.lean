import Mempulse.Library.Sorting
import Mempulse.LiveRpc.CandidateIds

/-!
# Canonical ranking

A strategy and a transaction make at most one candidate, so the order of the candidates is strict,
and so is the order in which the neighbours of a bundle are looked for. The ranking of a batch does
not depend on the order of its transactions.
-/

set_option autoImplicit false

namespace Mempulse.Searcher

open Std FeatureEngine Library

/-! ## The order of the candidates -/

/-- Higher scores come first, then earlier strategies, then smaller hashes. -/
def OpportunityCandidate.Outranks (left right : OpportunityCandidate) : Prop :=
  right.score < left.score ∨ right.score = left.score ∧
    (left.strategy.rank < right.strategy.rank ∨
      left.strategy = right.strategy ∧ left.txHash < right.txHash)

theorem StrategyKind.rank_inj {left right : StrategyKind} (same : left.rank = right.rank) :
    left = right := by
  cases left <;> cases right <;> first | rfl | cases same

theorem compare_hash_eq_lt_iff {left right : TxHash} :
    compare left right = .lt ↔ left < right :=
  compareOfLessAndEq_eq_lt

theorem candidateSortKey_eq_lt_iff {left right : OpportunityCandidate} :
    candidateSortKey left right = .lt ↔ left.Outranks right := by
  have strategies : left.strategy.rank = right.strategy.rank ↔ left.strategy = right.strategy :=
    ⟨StrategyKind.rank_inj, congrArg _⟩
  simp only [candidateSortKey, Ordering.then_eq_lt, Ordering.then_eq_eq, Std.compare_eq_lt,
    Std.compare_eq_iff_eq, compare_hash_eq_lt_iff, OpportunityCandidate.Outranks, strategies]
  tauto

theorem candidateSortKey_eq_eq {left right : OpportunityCandidate}
    (same : candidateSortKey left right = .eq) : left.key = right.key := by
  simp only [candidateSortKey, Ordering.then_eq_eq, Std.compare_eq_iff_eq] at same
  exact Prod.ext (StrategyKind.rank_inj same.1.2) same.2

instance : TransCmp candidateSortKey :=
  inferInstanceAs (TransCmp (compareLex
    (compareLex (fun left right : OpportunityCandidate => compareOn (·.score) right left)
      (compareOn fun candidate => candidate.strategy.rank))
    (compareOn fun candidate => candidate.txHash)))

instance : TransCmp fun left right : BundleInput =>
    candidateSortKey left.candidate right.candidate where
  eq_swap := swap_eq candidateSortKey _ _
  isLE_trans earlier later := @TransCmp.isLE_trans _ candidateSortKey _ _ _ _ earlier later

instance : TransCmp bundleSortKey :=
  inferInstanceAs (TransCmp (compareLex
    (compareLex (compareOn fun input : BundleInput => input.sender)
      (compareOn fun input => input.nonce))
    fun left right => candidateSortKey left.candidate right.candidate))

theorem bundleSortKey_eq_eq {left right : BundleInput} (same : bundleSortKey left right = .eq) :
    left.candidate.txHash = right.candidate.txHash := by
  simp only [bundleSortKey, Ordering.then_eq_eq] at same
  exact congrArg Prod.snd (candidateSortKey_eq_eq same.2)

/-- Different elements of a list in which no two are alike are not alike. -/
theorem eq_of_pairwise_ne {α β : Type} {label : α → β} {list : List α}
    (distinct : list.Pairwise fun left right => label left ≠ label right) {one other : α}
    (first : one ∈ list) (second : other ∈ list) (same : label one = label other) : one = other :=
  List.inj_on_of_nodup_map (List.pairwise_map.mpr distinct) first second same

/-- Candidates of different strategies and transactions have one order. -/
theorem sortBy_candidates_of_perm {candidates other : List OpportunityCandidate}
    (distinct : candidates.Pairwise fun left right => left.key ≠ right.key)
    (same : candidates.Perm other) :
    sortBy candidateSortKey candidates = sortBy candidateSortKey other :=
  stableSort_eq_of_perm same fun _ first _ second equal =>
    eq_of_pairwise_ne distinct first second (candidateSortKey_eq_eq equal)

theorem sortBy_candidates_strict {candidates : List OpportunityCandidate}
    (distinct : candidates.Pairwise fun left right => left.key ≠ right.key) :
    (sortBy candidateSortKey candidates).Pairwise OpportunityCandidate.Outranks := by
  have ordered : Ordered candidateSortKey (sortBy candidateSortKey candidates) :=
    ordered_stableSort candidates
  refine (ordered.and (key_ne_of_pairwise_sortBy distinct)).imp fun ⟨above, differ⟩ => ?_
  refine candidateSortKey_eq_lt_iff.mp ((Ordering.isLE_iff_eq_lt_or_eq_eq.mp above).resolve_right ?_)
  exact fun equal => differ (candidateSortKey_eq_eq equal)

/-- Bundles are looked for in one order. -/
theorem buildBundleCandidates_of_perm {inputs other : List BundleInput}
    (distinct : inputs.Pairwise fun left right => left.candidate.txHash ≠ right.candidate.txHash)
    (same : inputs.Perm other) : buildBundleCandidates inputs = buildBundleCandidates other := by
  have sorted : sortBy bundleSortKey inputs = sortBy bundleSortKey other :=
    stableSort_eq_of_perm same fun _ first _ second equal =>
      eq_of_pairwise_ne distinct first second (bundleSortKey_eq_eq equal)
  rw [buildBundleCandidates, buildBundleCandidates, sorted]

theorem generatedCandidates_perm {batch other : List SearcherInputTx}
    (distinct : batch.Pairwise fun left right => left.decoded.hash ≠ right.decoded.hash)
    (same : batch.Perm other) (minScore : Nat) :
    (generatedCandidates batch minScore).Perm (generatedCandidates other minScore) := by
  refine List.Perm.append (same.flatMap_right _) (List.Perm.of_eq ?_)
  exact buildBundleCandidates_of_perm (bundleInputs_pairwise distinct minScore)
    (same.filterMap _)

/-! ## Scores -/

/-- A score is the total of its components, each of which fits its type. -/
structure OpportunityCandidate.Scored (candidate : OpportunityCandidate) : Prop where
  score : candidate.score = candidate.breakdown.total
  mev : candidate.breakdown.mevComponent ≤ u32Max
  urgency : candidate.breakdown.urgencyComponent ≤ u32Max
  structural : candidate.breakdown.structuralComponent ≤ u32Max
  bonus : candidate.breakdown.strategyBonus ≤ u32Max

theorem total_mono {smaller larger : ScoreBreakdown}
    (mev : smaller.mevComponent ≤ larger.mevComponent)
    (urgency : smaller.urgencyComponent ≤ larger.urgencyComponent)
    (structural : smaller.structuralComponent ≤ larger.structuralComponent)
    (bonus : smaller.strategyBonus ≤ larger.strategyBonus) : smaller.total ≤ larger.total := by
  simp only [ScoreBreakdown.total, saturatingAdd]
  omega

theorem le_saturatingAdd {bound value : Nat} (fits : value ≤ bound) (more : Nat) :
    value ≤ saturatingAdd bound value more :=
  Nat.le_min.mpr ⟨Nat.le_add_right _ _, fits⟩

/-- A bundle scores at least as high as its first member. -/
theorem score_le_of_bundleOfPair {left right : BundleInput} {candidate : OpportunityCandidate}
    (scored : left.candidate.Scored) (bundled : bundleOfPair left right = some candidate) :
    left.candidate.score ≤ candidate.score := by
  unfold bundleOfPair at bundled
  split at bundled
  · cases bundled
  · cases bundled
    rw [scored.score]
    refine total_mono (le_saturatingAdd scored.mev _) (le_saturatingAdd scored.urgency _)
      (le_saturatingAdd scored.structural _) ?_
    exact (le_saturatingAdd scored.bonus _).trans (le_saturatingAdd (Nat.min_le_right _ _) _)

theorem structuralBonus_le (featured : FeaturedTransaction) : structuralBonus featured ≤ 512 + 500 := by
  unfold structuralBonus
  omega

theorem scores_le (input : FeatureInput) :
    (analyzeTransaction input).mevScore ≤ 100 ∧ (analyzeTransaction input).urgencyScore ≤ 100 :=
  ⟨Nat.min_le_right _ _, Nat.min_le_right _ _⟩

/-- The analysis gives scores of at most a hundred, so no component comes near its bound. -/
theorem scored_weightedCandidate (tx : EventLog.TxDecoded) (calldata : List UInt8)
    (strategy : StrategyKind) {mevWeight urgencyWeight bonus : Nat} (mev : mevWeight ≤ 120)
    (urgency : urgencyWeight ≤ 25) (more : bonus ≤ 500) :
    (weightedCandidate strategy (analyzeDecodedTransaction tx calldata) mevWeight urgencyWeight
      bonus).Scored := by
  obtain ⟨mevScore, urgencyScore⟩ := @scores_le _
  have structural := structuralBonus_le (analyzeDecodedTransaction tx calldata)
  refine ⟨rfl, ?_, ?_, ?_, ?_⟩
  · exact (Nat.mul_le_mul mevScore mev).trans (by decide)
  · exact (Nat.mul_le_mul urgencyScore urgency).trans (by decide)
  · exact structural.trans (by decide)
  · exact more.trans (by decide)

theorem scored_perTxCandidates {input : SearcherInputTx} {minScore : Nat}
    {candidate : OpportunityCandidate} (ranked : candidate ∈ perTxCandidates input minScore) :
    minScore ≤ candidate.score ∧ candidate.Scored := by
  obtain ⟨reaches, strategy, mevWeight, urgencyWeight, bonus, -, mev, urgency, more, rfl⟩ :=
    rankTransaction_weighted (mem_sortBy.mp ranked)
  exact ⟨reaches, scored_weightedCandidate _ _ strategy mev urgency more⟩

/-- **No candidate scores less than the least score**, bundles included. -/
theorem minScore_le_of_generated {batch : List SearcherInputTx} {minScore : Nat}
    {candidate : OpportunityCandidate} (generated : candidate ∈ generatedCandidates batch minScore) :
    minScore ≤ candidate.score := by
  rcases List.mem_append.mp generated with alone | bundled
  · obtain ⟨input, -, ranked⟩ := List.mem_flatMap.mp alone
    exact (scored_perTxCandidates ranked).1
  · obtain ⟨⟨left, right⟩, paired, isBundle⟩ := List.mem_filterMap.mp bundled
    obtain ⟨input, -, derived⟩ := List.mem_filterMap.mp (mem_sortBy.mp (List.of_mem_zip paired).1)
    obtain ⟨best, head, rfl⟩ := Option.map_eq_some_iff.mp derived
    obtain ⟨reaches, scored⟩ := scored_perTxCandidates (List.mem_of_mem_head? head)
    exact reaches.trans (score_le_of_bundleOfPair scored isBundle)

/-! ## The ranking -/

/-- **Ranking is canonical.** -/
structure CanonicallyRanked (batch : List SearcherInputTx) (config : SearcherConfig) : Prop where
  permuted : ∀ other, batch.Perm other →
    rankOpportunityBatch other config = rankOpportunityBatch batch config
  ranked : ∃ ordered : List OpportunityCandidate,
    ordered.Perm (generatedCandidates batch config.minScore) ∧
      ordered.Pairwise OpportunityCandidate.Outranks ∧
        (rankOpportunityBatch batch config).candidates = ordered.take config.maxCandidates
  scores : ∀ candidate ∈ (rankOpportunityBatch batch config).candidates,
    config.minScore ≤ candidate.score
  generated : (rankOpportunityBatch batch config).metrics.generatedCandidates =
    (generatedCandidates batch config.minScore).length
  returned : (rankOpportunityBatch batch config).metrics.returnedCandidates =
    (rankOpportunityBatch batch config).candidates.length
  truncated : (rankOpportunityBatch batch config).metrics.generatedCandidates =
    (rankOpportunityBatch batch config).metrics.returnedCandidates +
      (rankOpportunityBatch batch config).metrics.truncatedCandidates

/-- **The ranking of a batch of different transactions is canonical.** -/
theorem canonicallyRanked_of_distinct (batch : List SearcherInputTx) (config : SearcherConfig)
    (distinct : (batch.map fun input => input.decoded.hash).Nodup) :
    CanonicallyRanked batch config := by
  have apart : batch.Pairwise fun left right => left.decoded.hash ≠ right.decoded.hash :=
    List.pairwise_map.mp distinct
  have keys := generatedCandidates_pairwise apart config.minScore
  refine ⟨fun other same => ?_, ⟨sortBy candidateSortKey (generatedCandidates batch config.minScore),
    List.perm_insertionSort _ _, sortBy_candidates_strict keys, rfl⟩, fun candidate returned => ?_,
    (List.perm_insertionSort _ _).length_eq, rfl, ?_⟩
  · have sorted := sortBy_candidates_of_perm keys
      (generatedCandidates_perm apart same config.minScore)
    have bundles := buildBundleCandidates_of_perm (bundleInputs_pairwise apart config.minScore)
      (same.filterMap _)
    unfold generatedCandidates at sorted
    unfold rankOpportunityBatch
    dsimp only
    rw [← sorted, ← bundles, same.length_eq]
  · rw [candidates_rankOpportunityBatch] at returned
    exact minScore_le_of_generated (mem_sortBy.mp (List.mem_of_mem_take returned))
  · exact (Nat.add_sub_cancel' (List.length_take_le' _ _)).symm

/-- A Uniswap swap of the sample sender. -/
def swapInput (hash : TxHash) (nonce : UInt64) : SearcherInputTx where
  decoded := (Scheduler.sampleValidatedTx hash 1 nonce 100).decoded
  calldata := [0x38, 0xed, 0x17, 0x39]

/-- Two competing swaps and one that follows them. -/
theorem canonicallyRanked_swaps :
    CanonicallyRanked [swapInput 10 7, swapInput 11 7, swapInput 12 8]
      { minScore := 0, maxCandidates := 2 } :=
  canonicallyRanked_of_distinct _ _ (by decide)

end Mempulse.Searcher
