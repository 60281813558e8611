import Mempulse.Searcher.Bundles

/-!
# Scores and the offered fee

A transaction offers a priority fee, or a gas price when it has none. The urgency score counts the
offer in gwei up to a cap, but narrows it to sixteen bits first, so an offer of 65536 gwei counts
nothing. Everything behind it is monotone: a raised offer lowers no score exactly when its gwei, so
narrowed, reach the cap or those of the offer before.
-/

set_option autoImplicit false

namespace Mempulse.Searcher

open Std EventLog FeatureEngine Library

/-! ## Offers -/

/-- The fee a transaction offers. -/
def offeredFee (input : FeatureInput) : Option U128 :=
  input.maxPriorityFeePerGasWei.or input.gasPriceWei

/-- The transaction with another offer in the same place. -/
def offering (input : FeatureInput) (fee : U128) : FeatureInput :=
  match input.maxPriorityFeePerGasWei with
  | some _ => { input with maxPriorityFeePerGasWei := some fee }
  | none => { input with gasPriceWei := some fee }

/-- The raised fee counts at least as much: its gwei in sixteen bits reach the cap of sixty, or those
of the offer; of a gas price half as much counts, up to forty. -/
def CountsNoLess (input : FeatureInput) (offered fee : U128) : Prop :=
  match input.maxPriorityFeePerGasWei with
  | some _ => 60 ≤ gweiU16 fee ∨ gweiU16 offered ≤ gweiU16 fee
  | none => 80 ≤ gweiU16 fee ∨ gweiU16 offered / 2 ≤ gweiU16 fee / 2

/-- A transaction with the analysis of an input. -/
def analyzed (featured : FeaturedTransaction) (input : FeatureInput) : FeaturedTransaction :=
  { featured with analysis := analyzeTransaction input }

/-- The candidate a transaction contributes to bundles. -/
def topCandidate (featured : FeaturedTransaction) (minScore : Nat) : Option OpportunityCandidate :=
  (sortBy candidateSortKey (rankTransaction featured minScore)).head?

/-- **No score is lower**: neither those of the analysis, nor those of a candidate or a bundle that
comes from it. -/
structure ScoresNoLower (input raised : FeatureInput) : Prop where
  urgency : (analyzeTransaction input).urgencyScore ≤ (analyzeTransaction raised).urgencyScore
  mev : (analyzeTransaction input).mevScore ≤ (analyzeTransaction raised).mevScore
  candidates : ∀ featured minScore, ∀ candidate ∈ rankTransaction (analyzed featured input) minScore,
    ∃ other ∈ rankTransaction (analyzed featured raised) minScore,
      other.strategy = candidate.strategy ∧ candidate.score ≤ other.score
  leading : ∀ featured minScore sender nonce candidate second bundle,
    topCandidate (analyzed featured input) minScore = some candidate →
      bundleOfPair ⟨sender, nonce, candidate⟩ second = some bundle →
        ∃ other raisedBundle, topCandidate (analyzed featured raised) minScore = some other ∧
          bundleOfPair ⟨sender, nonce, other⟩ second = some raisedBundle ∧
            bundle.score ≤ raisedBundle.score
  following : ∀ featured minScore sender nonce candidate first bundle,
    topCandidate (analyzed featured input) minScore = some candidate →
      bundleOfPair first ⟨sender, nonce, candidate⟩ = some bundle →
        ∃ other raisedBundle, topCandidate (analyzed featured raised) minScore = some other ∧
          bundleOfPair first ⟨sender, nonce, other⟩ = some raisedBundle ∧
            bundle.score ≤ raisedBundle.score

/-! ## The scores of an analysis -/

/-- What the offer adds to the urgency score. -/
def offeredPoints (input : FeatureInput) : Nat :=
  match input.maxPriorityFeePerGasWei with
  | some priority => min (gweiU16 priority) 60
  | none =>
    match input.gasPriceWei with
    | some gasPrice => min (gweiU16 gasPrice / 2) 40
    | none => 0

theorem offeredPoints_le (input : FeatureInput) : offeredPoints input ≤ 60 := by
  unfold offeredPoints
  split
  · exact Nat.min_le_right _ _
  · split
    · exact (Nat.min_le_right _ _).trans (by decide)
    · exact Nat.zero_le _

/-- The urgency score never reaches its cap. -/
theorem computeUrgencyScore_eq (input : FeatureInput) :
    computeUrgencyScore input = offeredPoints input + (if input.txType = 2 then 6 else 0) +
      (if 0 < input.maxFeePerGasWei.getD 0 then 4 else 0) := by
  have few := offeredPoints_le input
  have start : computeUrgencyScore input =
      min (if 0 < input.maxFeePerGasWei.getD 0 then
        saturatingAdd u16Max (if input.txType = 2 then saturatingAdd u16Max (offeredPoints input) 6
          else offeredPoints input) 4
        else if input.txType = 2 then saturatingAdd u16Max (offeredPoints input) 6
          else offeredPoints input) 100 := by
    unfold computeUrgencyScore offeredPoints
    cases input.maxPriorityFeePerGasWei <;> cases input.gasPriceWei <;>
      simp [saturatingAdd, u16Max]
  rw [start]
  unfold saturatingAdd u16Max
  split_ifs <;> omega

section Offering

variable {input : FeatureInput} {offered fee : U128}

theorem offeredPoints_le_iff (offers : offeredFee input = some offered) :
    offeredPoints input ≤ offeredPoints (offering input fee) ↔ CountsNoLess input offered fee := by
  unfold offeredFee at offers
  unfold offeredPoints offering CountsNoLess
  cases priority : input.maxPriorityFeePerGasWei with
  | some paid =>
      rw [priority, Option.some_or, Option.some.injEq] at offers
      subst offers
      dsimp only
      omega
  | none =>
      rw [priority, Option.none_or] at offers
      rw [offers]
      dsimp only
      omega

theorem urgencyScore_le_iff (offers : offeredFee input = some offered) :
    (analyzeTransaction input).urgencyScore ≤
      (analyzeTransaction (offering input fee)).urgencyScore ↔ CountsNoLess input offered fee := by
  rw [← offeredPoints_le_iff offers]
  change computeUrgencyScore _ ≤ computeUrgencyScore _ ↔ _
  have same : (offering input fee).txType = input.txType ∧
      (offering input fee).maxFeePerGasWei = input.maxFeePerGasWei := by
    unfold offering
    split <;> exact ⟨rfl, rfl⟩
  rw [computeUrgencyScore_eq, computeUrgencyScore_eq, same.1, same.2]
  omega

/-- Offers below 65536 gwei are not cut off. -/
theorem countsNoLess_of_lt (input : FeatureInput) (more : offered ≤ fee)
    (small : fee.toNat < 2 ^ 16 * weiPerGwei) : CountsNoLess input offered fee := by
  have below : gweiU16 offered ≤ gweiU16 fee := by
    have order : offered.toNat ≤ fee.toNat := more
    unfold gweiU16 weiPerGwei at *
    omega
  unfold CountsNoLess
  cases input.maxPriorityFeePerGasWei with
  | some _ => exact Or.inr below
  | none => exact Or.inr (Nat.div_le_div_right below)

end Offering

/-- An analysis with higher scores of the same transaction. -/
structure Raises (lower higher : FeatureAnalysis) : Prop where
  protocol : higher.protocol = lower.protocol
  category : higher.category = lower.category
  mev : lower.mevScore ≤ higher.mevScore
  urgency : lower.urgencyScore ≤ higher.urgencyScore

theorem mevScore_mono (structural : Nat) (elsewhere : Prop) [Decidable elsewhere]
    {lower higher : Nat} (below : lower ≤ higher) :
    min (if elsewhere then saturatingAdd u16Max structural (lower / 2) - 15
      else saturatingAdd u16Max structural (lower / 2)) 100 ≤
    min (if elsewhere then saturatingAdd u16Max structural (higher / 2) - 15
      else saturatingAdd u16Max structural (higher / 2)) 100 := by
  unfold saturatingAdd
  split_ifs <;> omega

/-- The offer counts in the MEV score by way of the urgency score only. -/
theorem raises_offering {input : FeatureInput} {fee : U128}
    (urgent : (analyzeTransaction input).urgencyScore ≤
      (analyzeTransaction (offering input fee)).urgencyScore) :
    Raises (analyzeTransaction input) (analyzeTransaction (offering input fee)) := by
  unfold offering at urgent ⊢
  cases priority : input.maxPriorityFeePerGasWei with
  | some paid =>
      rw [priority] at urgent
      exact ⟨rfl, rfl, mevScore_mono _ _ urgent, urgent⟩
  | none =>
      rw [priority] at urgent
      exact ⟨rfl, rfl, mevScore_mono _ _ urgent, urgent⟩

/-! ## Candidates -/

/-- The exact sum of the components. -/
def ScoreBreakdown.sum (breakdown : ScoreBreakdown) : Nat :=
  breakdown.mevComponent + breakdown.urgencyComponent + breakdown.structuralComponent +
    breakdown.strategyBonus

theorem ScoreBreakdown.total_eq (breakdown : ScoreBreakdown) :
    breakdown.total = min breakdown.sum u32Max := by
  unfold ScoreBreakdown.total ScoreBreakdown.sum saturatingAdd
  omega

/-- A bundle scores the sum of its members, and 400. -/
theorem score_bundleOfPair {left right : BundleInput} {bundle : OpportunityCandidate}
    (bundled : bundleOfPair left right = some bundle) :
    bundle.score =
      min (left.candidate.breakdown.sum + right.candidate.breakdown.sum + 400) u32Max := by
  unfold bundleOfPair at bundled
  split at bundled
  · cases bundled
  · cases bundled
    refine (ScoreBreakdown.total_eq _).trans ?_
    unfold ScoreBreakdown.sum saturatingAdd
    generalize u32Max = bound
    dsimp only
    omega

section Candidates

variable {featured : FeaturedTransaction} {input raised : FeatureInput} {minScore : Nat}
  {candidate : OpportunityCandidate}

/-- A weighted candidate scores no less when the scores of the analysis are higher. -/
theorem score_weightedCandidate_le
    (raises : Raises (analyzeTransaction input) (analyzeTransaction raised))
    (strategy : StrategyKind) (mevWeight urgencyWeight bonus : Nat) :
    (weightedCandidate strategy (analyzed featured input) mevWeight urgencyWeight bonus).score ≤
      (weightedCandidate strategy (analyzed featured raised) mevWeight urgencyWeight bonus).score :=
  total_mono (Nat.mul_le_mul_right _ raises.mev) (Nat.mul_le_mul_right _ raises.urgency)
    (Nat.le_refl _) (Nat.le_refl _)

/-- A transaction qualifies for a strategy with higher scores too. -/
theorem evaluated_of_raises
    (raises : Raises (analyzeTransaction input) (analyzeTransaction raised))
    (evaluated : candidate ∈ [evaluateSandwichCandidate (analyzed featured input),
      evaluateBackrunCandidate (analyzed featured input),
      evaluateArbCandidate (analyzed featured input)].filterMap id) :
    ∃ strategy mevWeight urgencyWeight bonus,
      candidate = weightedCandidate strategy (analyzed featured input) mevWeight urgencyWeight bonus ∧
      weightedCandidate strategy (analyzed featured raised) mevWeight urgencyWeight bonus ∈
        [evaluateSandwichCandidate (analyzed featured raised),
          evaluateBackrunCandidate (analyzed featured raised),
          evaluateArbCandidate (analyzed featured raised)].filterMap id := by
  obtain ⟨found, listed, rfl⟩ := List.mem_filterMap.mp evaluated
  have mev := raises.mev
  have urgency := raises.urgency
  simp only [List.mem_cons, List.not_mem_nil, or_false] at listed
  rcases listed with sandwich | backrun | arb
  · simp only [evaluateSandwichCandidate] at sandwich
    split at sandwich
    · cases sandwich
    · split at sandwich
      · cases sandwich
      · rename_i suits venue
        cases sandwich
        refine ⟨_, _, _, _, rfl, List.mem_filterMap.mpr ⟨_, .head _, ?_⟩⟩
        simp only [analyzed] at suits venue
        simp only [evaluateSandwichCandidate, analyzed, raises.protocol, raises.category]
        rw [if_neg fun short => suits (short.imp_right mev.trans_lt)]
        exact if_neg venue
  · simp only [evaluateBackrunCandidate] at backrun
    split at backrun
    · cases backrun
    · rename_i suits
      cases backrun
      refine ⟨_, _, _, _, rfl, List.mem_filterMap.mpr ⟨_, .tail _ (.head _), ?_⟩⟩
      simp only [analyzed] at suits
      simp only [evaluateBackrunCandidate, analyzed, raises.category]
      exact if_neg fun short => suits (short.imp_right (Or.imp mev.trans_lt urgency.trans_lt))
  · simp only [evaluateArbCandidate] at arb
    split at arb
    · cases arb
    · rename_i suits
      cases arb
      refine ⟨_, _, _, _, rfl, List.mem_filterMap.mpr ⟨_, .tail _ (.tail _ (.head _)), ?_⟩⟩
      simp only [analyzed] at suits
      simp only [evaluateArbCandidate, analyzed, raises.category]
      exact if_neg fun short => suits (short.imp_right mev.trans_lt)

/-- Each candidate has one of its strategy that scores no less. -/
theorem exists_candidate_of_raises
    (raises : Raises (analyzeTransaction input) (analyzeTransaction raised))
    (ranked : candidate ∈ rankTransaction (analyzed featured input) minScore) :
    ∃ other ∈ rankTransaction (analyzed featured raised) minScore,
      other.strategy = candidate.strategy ∧ candidate.score ≤ other.score := by
  obtain ⟨evaluated, reaches⟩ := List.mem_filter.mp ranked
  obtain ⟨strategy, mevWeight, urgencyWeight, bonus, rfl, still⟩ := evaluated_of_raises raises evaluated
  have higher : (weightedCandidate strategy (analyzed featured input) mevWeight urgencyWeight
      bonus).score ≤ (weightedCandidate strategy (analyzed featured raised) mevWeight urgencyWeight
        bonus).score := score_weightedCandidate_le raises strategy mevWeight urgencyWeight bonus
  exact ⟨_, List.mem_filter.mpr ⟨still, decide_eq_true ((of_decide_eq_true reaches).trans higher)⟩,
    rfl, higher⟩

/-- The best candidate scores highest. -/
theorem score_le_topCandidate {featured : FeaturedTransaction} {top : OpportunityCandidate}
    (best : topCandidate featured minScore = some top)
    (ranked : candidate ∈ rankTransaction featured minScore) : candidate.score ≤ top.score := by
  have sorted : Ordered candidateSortKey (sortBy candidateSortKey (rankTransaction featured minScore)) :=
    ordered_stableSort _
  have listed : candidate ∈ sortBy candidateSortKey (rankTransaction featured minScore) :=
    mem_sortBy.mpr ranked
  obtain ⟨rest, shape⟩ := List.head?_eq_some_iff.mp best
  rw [shape] at sorted listed
  rcases List.mem_cons.mp listed with rfl | later
  · exact Nat.le_refl _
  · have below := (List.pairwise_cons.mp sorted).1 candidate later
    rcases Ordering.isLE_iff_eq_lt_or_eq_eq.mp below with above | equal
    · rcases candidateSortKey_eq_lt_iff.mp above with more | ⟨same, -⟩
      · exact more.le
      · exact same.le
    · simp only [candidateSortKey, Ordering.then_eq_eq, Std.compare_eq_iff_eq] at equal
      exact equal.1.1.le

/-- A transaction's best candidate is one of its weighted ones. -/
theorem topCandidate_weighted {top : OpportunityCandidate}
    (best : topCandidate (analyzed featured input) minScore = some top) :
    top.protocol = (analyzeTransaction input).protocol ∧
      top.category = (analyzeTransaction input).category ∧ top.breakdown.sum = top.score := by
  obtain ⟨-, strategy, mevWeight, urgencyWeight, bonus, -, mev, urgency, more, rfl⟩ :=
    rankTransaction_weighted (mem_sortBy.mp (List.mem_of_mem_head? best))
  obtain ⟨mevScore, urgencyScore⟩ := scores_le input
  have structural := structuralBonus_le (analyzed featured input)
  have first := Nat.mul_le_mul mevScore mev
  have second := Nat.mul_le_mul urgencyScore urgency
  refine ⟨rfl, rfl, (Nat.min_eq_left ?_).symm.trans (ScoreBreakdown.total_eq _).symm⟩
  change (analyzeTransaction input).mevScore * mevWeight +
    (analyzeTransaction input).urgencyScore * urgencyWeight +
      structuralBonus (analyzed featured input) + bonus ≤ 2 ^ 32 - 1
  omega

/-- The best candidate with higher scores counts at least as much in a bundle. -/
theorem exists_topCandidate_of_raises
    (raises : Raises (analyzeTransaction input) (analyzeTransaction raised))
    {top : OpportunityCandidate} (best : topCandidate (analyzed featured input) minScore = some top) :
    ∃ other, topCandidate (analyzed featured raised) minScore = some other ∧
      other.protocol = top.protocol ∧ other.category = top.category ∧
        top.breakdown.sum ≤ other.breakdown.sum := by
  obtain ⟨protocol, category, sum⟩ := topCandidate_weighted best
  obtain ⟨candidate, ranked, -, higher⟩ :=
    exists_candidate_of_raises raises (mem_sortBy.mp (List.mem_of_mem_head? best))
  obtain ⟨other, found⟩ : ∃ other, topCandidate (analyzed featured raised) minScore = some other :=
    Option.ne_none_iff_exists'.mp fun none => by
      have listed : candidate ∈
          sortBy candidateSortKey (rankTransaction (analyzed featured raised) minScore) :=
        mem_sortBy.mpr ranked
      rw [List.head?_eq_none_iff.mp none] at listed
      cases listed
  obtain ⟨otherProtocol, otherCategory, otherSum⟩ := topCandidate_weighted found
  refine ⟨other, found, ?_, ?_, ?_⟩
  · rw [otherProtocol, protocol, raises.protocol]
  · rw [otherCategory, category, raises.category]
  · rw [sum, otherSum]
    exact higher.trans (score_le_topCandidate found ranked)

end Candidates

/-- Higher scores of the analysis lower no score. -/
theorem scoresNoLower_of_raises {input raised : FeatureInput}
    (raises : Raises (analyzeTransaction input) (analyzeTransaction raised)) :
    ScoresNoLower input raised where
  urgency := raises.urgency
  mev := raises.mev
  candidates := fun _ _ _ ranked => exists_candidate_of_raises raises ranked
  leading := by
    intro featured minScore sender nonce candidate second bundle best bundled
    obtain ⟨other, found, protocol, category, more⟩ := exists_topCandidate_of_raises raises best
    have paired := paired_of_bundleOfPair bundled
    obtain ⟨raisedBundle, raisedBundled, -⟩ :=
      @exists_bundleOfPair ⟨sender, nonce, other⟩ second paired.sender
        (protocol.trans (paired.leftProtocol.symm.trans paired.rightProtocol))
        (category.trans (paired.leftCategory.symm.trans paired.rightCategory)) paired.nonce
    refine ⟨other, raisedBundle, found, raisedBundled, ?_⟩
    rw [score_bundleOfPair bundled, score_bundleOfPair raisedBundled]
    exact min_le_min_right _ (by dsimp only; omega)
  following := by
    intro featured minScore sender nonce candidate first bundle best bundled
    obtain ⟨other, found, protocol, category, more⟩ := exists_topCandidate_of_raises raises best
    have paired := paired_of_bundleOfPair bundled
    obtain ⟨raisedBundle, raisedBundled, -⟩ :=
      @exists_bundleOfPair first ⟨sender, nonce, other⟩ paired.sender
        ((paired.leftProtocol.symm.trans paired.rightProtocol).trans protocol.symm)
        ((paired.leftCategory.symm.trans paired.rightCategory).trans category.symm) paired.nonce
    refine ⟨other, raisedBundle, found, raisedBundled, ?_⟩
    rw [score_bundleOfPair bundled, score_bundleOfPair raisedBundled]
    exact min_le_min_right _ (by dsimp only; omega)

/-- **Raising the offered fee lowers no score exactly when its gwei in sixteen bits count no less**,
and the scores of every analysis are at most a hundred. -/
theorem scoresNoLower_iff (input : FeatureInput) :
    ((analyzeTransaction input).urgencyScore ≤ 100 ∧ (analyzeTransaction input).mevScore ≤ 100) ∧
      ∀ offered fee, offeredFee input = some offered → offered ≤ fee →
        (ScoresNoLower input (offering input fee) ↔ CountsNoLess input offered fee) := by
  refine ⟨(scores_le input).symm, fun offered fee offers _ => ?_⟩
  rw [← urgencyScore_le_iff offers]
  exact ⟨fun noLower => noLower.urgency, fun urgent =>
    scoresNoLower_of_raises (raises_offering urgent)⟩

/-- A swap that offers sixty gwei of priority fee. -/
def sixtyGweiSwap : FeatureInput where
  toAddress := some 0x7a250d5630b4cf539739df2c5dacb4c659f2488d
  calldata := [0x38, 0xed, 0x17, 0x39]
  txType := 2
  chainId := some 1
  gasLimit := none
  valueWei := none
  gasPriceWei := none
  maxFeePerGasWei := none
  maxPriorityFeePerGasWei := some 60000000000
  maxFeePerBlobGasWei := none

theorem sixtyGweiSwap_raised : ScoresNoLower sixtyGweiSwap (offering sixtyGweiSwap 70000000000) :=
  ((scoresNoLower_iff sixtyGweiSwap).2 60000000000 70000000000 rfl (by decide)).mpr
    (countsNoLess_of_lt _ (by decide) (by decide))

/-- An offer of 65536 gwei counts nothing. -/
theorem sixtyGweiSwap_raised_lower :
    ¬ ∀ (input : FeatureInput) (offered fee : U128), offeredFee input = some offered →
      offered ≤ fee → ScoresNoLower input (offering input fee) := by
  intro noLower
  have urgent := (noLower sixtyGweiSwap 60000000000 65536000000000 rfl (by decide)).urgency
  revert urgent
  decide

end Mempulse.Searcher
