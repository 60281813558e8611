import Mathlib.Data.List.Sort
import Mempulse.FeatureEngine

/-!
# The searcher

Ranking of a batch of transactions into opportunity candidates: one candidate per strategy a
transaction qualifies for, and bundles of two transactions of one sender with adjacent nonces.
Scores are `u32` in the source and natural numbers here, with their saturation written out.
`sort_by` is a stable sort; an insertion sort by the same comparison gives the same list.
-/

set_option autoImplicit false

namespace Mempulse.Searcher

open EventLog FeatureEngine

/-- `u32::MAX`. -/
def u32Max : Nat := 2 ^ 32 - 1

/-! ## Scores -/

/-- The version every candidate is stamped with. -/
def scorerVersion : String := "scorer.v1"

/-- Score decomposition that explains how one candidate reached its total score. -/
structure ScoreBreakdown where
  mevComponent : Nat
  urgencyComponent : Nat
  structuralComponent : Nat
  strategyBonus : Nat
  deriving DecidableEq

/-- The saturating sum of the components. -/
def ScoreBreakdown.total (breakdown : ScoreBreakdown) : Nat :=
  saturatingAdd u32Max
    (saturatingAdd u32Max
      (saturatingAdd u32Max breakdown.mevComponent breakdown.urgencyComponent)
      breakdown.structuralComponent)
    breakdown.strategyBonus

/-! ## Strategies -/

/-- Strategy families that can be emitted by the searcher. -/
inductive StrategyKind where
  | sandwichCandidate
  | backrunCandidate
  | arbCandidate
  | bundleCandidate
  deriving DecidableEq

/-- The position of a strategy in the derived order. -/
def StrategyKind.rank : StrategyKind → Nat
  | .sandwichCandidate => 0
  | .backrunCandidate => 1
  | .arbCandidate => 2
  | .bundleCandidate => 3

/-- `format!("{:?}", kind)`. -/
def StrategyKind.debug : StrategyKind → String
  | .sandwichCandidate => "SandwichCandidate"
  | .backrunCandidate => "BackrunCandidate"
  | .arbCandidate => "ArbCandidate"
  | .bundleCandidate => "BundleCandidate"

/-- The version of each strategy. -/
def strategyVersion : StrategyKind → String
  | .sandwichCandidate => "strategy.sandwich.v1"
  | .backrunCandidate => "strategy.backrun.v1"
  | .arbCandidate => "strategy.arb.v1"
  | .bundleCandidate => "strategy.bundle.v1"

/-- Searcher-facing transaction input. -/
structure SearcherInputTx where
  decoded : TxDecoded
  calldata : List UInt8
  deriving DecidableEq

/-- Ranking thresholds for one searcher batch. -/
structure SearcherConfig where
  minScore : Nat := 0
  maxCandidates : Nat := 64
  deriving DecidableEq

/-- Ranked opportunity candidate emitted by the searcher. -/
structure OpportunityCandidate where
  txHash : TxHash
  memberTxHashes : List TxHash
  strategy : StrategyKind
  featureEngineVersion : String
  scorerVersion : String
  strategyVersion : String
  score : Nat
  protocol : String
  category : String
  breakdown : ScoreBreakdown
  reasons : List String
  deriving DecidableEq

/-- Batch-level metrics produced during opportunity ranking. -/
structure SearcherBatchMetrics where
  inputTransactions : Nat
  generatedCandidates : Nat
  returnedCandidates : Nat
  truncatedCandidates : Nat
  bundleCandidatesGenerated : Nat
  deriving DecidableEq

/-- Ranked searcher output plus batch-level metrics. -/
structure SearcherBatchResult where
  candidates : List OpportunityCandidate
  metrics : SearcherBatchMetrics
  deriving DecidableEq

/-- The bonus for long calldata and for gas. -/
def structuralBonus (featured : FeaturedTransaction) : Nat :=
  min featured.calldataLen 512 + min (featured.gasLimit.getD 0).toNat 500000 / 1000

/-- `candidate`. -/
def candidateOf (strategy : StrategyKind) (featured : FeaturedTransaction)
    (breakdown : ScoreBreakdown) (reasons : List String) : OpportunityCandidate where
  txHash := featured.hash
  memberTxHashes := [featured.hash]
  strategy := strategy
  featureEngineVersion := FeatureEngine.version
  scorerVersion := Searcher.scorerVersion
  strategyVersion := Searcher.strategyVersion strategy
  score := breakdown.total
  protocol := featured.analysis.protocol
  category := featured.analysis.category
  breakdown := breakdown
  reasons := reasons

/-- What the three strategies build: a candidate of their weights and bonus. -/
def weightedCandidate (strategy : StrategyKind) (featured : FeaturedTransaction)
    (mevWeight urgencyWeight bonus : Nat) : OpportunityCandidate :=
  let structural := structuralBonus featured
  candidateOf strategy featured
    { mevComponent := featured.analysis.mevScore * mevWeight
      urgencyComponent := featured.analysis.urgencyScore * urgencyWeight
      structuralComponent := structural
      strategyBonus := bonus }
    [s!"mev_score={featured.analysis.mevScore}*{mevWeight}",
      s!"urgency_score={featured.analysis.urgencyScore}*{urgencyWeight}",
      s!"calldata/gas structural bonus={structural}",
      s!"strategy bonus={bonus}"]

/-- A swap with a high score on a protocol known for it. -/
def evaluateSandwichCandidate (featured : FeaturedTransaction) : Option OpportunityCandidate :=
  let analysis := featured.analysis
  if analysis.category ≠ "swap" ∨ analysis.mevScore < 70 then none
  else if !analysis.protocol.startsWith "uniswap" && analysis.protocol ≠ "1inch" then none
  else some (weightedCandidate .sandwichCandidate featured 120 25 500)

/-- A swap with a score and some urgency. -/
def evaluateBackrunCandidate (featured : FeaturedTransaction) : Option OpportunityCandidate :=
  let analysis := featured.analysis
  if analysis.category ≠ "swap" ∨ analysis.mevScore < 55 ∨ analysis.urgencyScore < 12 then none
  else some (weightedCandidate .backrunCandidate featured 100 20 300)

/-- A swap with a score. -/
def evaluateArbCandidate (featured : FeaturedTransaction) : Option OpportunityCandidate :=
  let analysis := featured.analysis
  if analysis.category ≠ "swap" ∨ analysis.mevScore < 50 then none
  else some (weightedCandidate .arbCandidate featured 90 15 200)

/-- The candidates of one transaction at or above the threshold. -/
def rankTransaction (featured : FeaturedTransaction) (minScore : Nat) :
    List OpportunityCandidate :=
  ([evaluateSandwichCandidate featured, evaluateBackrunCandidate featured,
    evaluateArbCandidate featured].filterMap id).filter fun candidate => minScore ≤ candidate.score

/-! ## Bundles and ranking -/

/-- Higher scores first, then the strategy's rank, then the hash. -/
def candidateSortKey (left right : OpportunityCandidate) : Ordering :=
  ((compare right.score left.score).then (compare left.strategy.rank right.strategy.rank)).then
    (compare left.txHash right.txHash)

/-- What the bundle synthesis reads of a candidate. -/
structure BundleInput where
  sender : Address
  nonce : UInt64
  candidate : OpportunityCandidate
  deriving DecidableEq

/-- The comparison `build_bundle_candidates` sorts by. -/
def bundleSortKey (left right : BundleInput) : Ordering :=
  ((compare left.sender right.sender).then (compare left.nonce right.nonce)).then
    (candidateSortKey left.candidate right.candidate)

/-- `sort_by`, which is stable. -/
def sortBy {α : Type} (key : α → α → Ordering) (list : List α) : List α :=
  list.insertionSort fun left right => (key left right).isLE

/-- `format!("{:?}", hash)`: the bytes, most significant first. -/
def debugHash (hash : TxHash) : String :=
  let bytes := (List.range 32).map fun index => hash.toNat / 256 ^ (31 - index) % 256
  "[" ++ ", ".intercalate (bytes.map toString) ++ "]"

/-- The bundle of an adjacent pair, when the pair makes one. -/
def bundleOfPair (left right : BundleInput) : Option OpportunityCandidate :=
  if left.sender ≠ right.sender ∨ right.nonce.toNat ≠ saturatingAdd u64Max left.nonce.toNat 1 ∨
      left.candidate.protocol ≠ right.candidate.protocol ∨
      left.candidate.category ≠ right.candidate.category then none
  else
    let first := left.candidate.breakdown
    let second := right.candidate.breakdown
    let breakdown : ScoreBreakdown :=
      { mevComponent := saturatingAdd u32Max first.mevComponent second.mevComponent
        urgencyComponent := saturatingAdd u32Max first.urgencyComponent second.urgencyComponent
        structuralComponent :=
          saturatingAdd u32Max first.structuralComponent second.structuralComponent
        strategyBonus :=
          saturatingAdd u32Max (saturatingAdd u32Max first.strategyBonus second.strategyBonus) 400 }
    some
      { txHash := left.candidate.txHash
        memberTxHashes := [left.candidate.txHash, right.candidate.txHash]
        strategy := .bundleCandidate
        featureEngineVersion := FeatureEngine.version
        scorerVersion := Searcher.scorerVersion
        strategyVersion := Searcher.strategyVersion .bundleCandidate
        score := breakdown.total
        protocol := left.candidate.protocol
        category := left.candidate.category
        breakdown := breakdown
        reasons :=
          ["bundle_size=2",
            s!"contiguous_nonces={left.nonce}..{right.nonce}",
            "member_hashes=" ++ debugHash left.candidate.txHash ++ "+" ++
              debugHash right.candidate.txHash,
            s!"member_scores={left.candidate.score}+{right.candidate.score}",
            "bundle bonus=400"] }

/-- Bundles of neighbours in the order of sender and nonce. -/
def buildBundleCandidates (inputs : List BundleInput) : List OpportunityCandidate :=
  let sorted := sortBy bundleSortKey inputs
  (sorted.zip sorted.tail).filterMap fun pair => bundleOfPair pair.1 pair.2

/-- The candidates of one transaction, best first. -/
def perTxCandidates (input : SearcherInputTx) (minScore : Nat) : List OpportunityCandidate :=
  sortBy candidateSortKey
    (rankTransaction (analyzeDecodedTransaction input.decoded input.calldata) minScore)

/-- What a transaction contributes to bundles: its best candidate. -/
def bundleInputOf (input : SearcherInputTx) (minScore : Nat) : Option BundleInput :=
  (perTxCandidates input minScore).head?.map fun topCandidate =>
    { sender := input.decoded.sender, nonce := input.decoded.nonce, candidate := topCandidate }

/-- Ranks a batch of transactions into standalone and bundle opportunity candidates. -/
def rankOpportunityBatch (batch : List SearcherInputTx) (config : SearcherConfig) :
    SearcherBatchResult :=
  let standalone := batch.flatMap fun input => perTxCandidates input config.minScore
  let bundleCandidates :=
    buildBundleCandidates (batch.filterMap fun input => bundleInputOf input config.minScore)
  let candidates := sortBy candidateSortKey (standalone ++ bundleCandidates)
  let returned := candidates.take config.maxCandidates
  { candidates := returned
    metrics :=
      { inputTransactions := batch.length
        generatedCandidates := candidates.length
        returnedCandidates := returned.length
        truncatedCandidates := candidates.length - returned.length
        bundleCandidatesGenerated := bundleCandidates.length } }

/-! ## Where candidates come from -/

/-- The hashes a candidate is about are among those listed. -/
def OpportunityCandidate.AmongHashes (candidate : OpportunityCandidate) (hashes : List TxHash) :
    Prop :=
  candidate.txHash ∈ hashes ∧ ∀ member ∈ candidate.memberTxHashes, member ∈ hashes

theorem mem_sortBy {α : Type} {key : α → α → Ordering} {list : List α} {item : α} :
    item ∈ sortBy key list ↔ item ∈ list :=
  (List.perm_insertionSort _ list).mem_iff

theorem weightedCandidate_amongHashes (strategy : StrategyKind) (featured : FeaturedTransaction)
    (mevWeight urgencyWeight bonus : Nat) :
    (weightedCandidate strategy featured mevWeight urgencyWeight bonus).AmongHashes
      [featured.hash] :=
  ⟨List.mem_singleton_self _, fun _ member => member⟩

/-- The candidates of a transaction are weighted ones that reach the least score, and none of them is
a bundle. -/
theorem rankTransaction_weighted {featured : FeaturedTransaction} {minScore : Nat}
    {candidate : OpportunityCandidate} (ranked : candidate ∈ rankTransaction featured minScore) :
    minScore ≤ candidate.score ∧ ∃ strategy mevWeight urgencyWeight bonus,
      strategy ≠ .bundleCandidate ∧ mevWeight ≤ 120 ∧ urgencyWeight ≤ 25 ∧ bonus ≤ 500 ∧
        candidate = weightedCandidate strategy featured mevWeight urgencyWeight bonus := by
  obtain ⟨evaluated, reaches⟩ := List.mem_filter.mp ranked
  refine ⟨of_decide_eq_true reaches, ?_⟩
  obtain ⟨found, listed, rfl⟩ := List.mem_filterMap.mp evaluated
  simp only [List.mem_cons, List.not_mem_nil, or_false] at listed
  rcases listed with sandwich | backrun | arb
  · simp only [evaluateSandwichCandidate] at sandwich
    split at sandwich
    · cases sandwich
    · split at sandwich <;> cases sandwich
      exact ⟨_, _, _, _, by decide, by decide, by decide, by decide, rfl⟩
  · simp only [evaluateBackrunCandidate] at backrun
    split at backrun <;> cases backrun
    exact ⟨_, _, _, _, by decide, by decide, by decide, by decide, rfl⟩
  · simp only [evaluateArbCandidate] at arb
    split at arb <;> cases arb
    exact ⟨_, _, _, _, by decide, by decide, by decide, by decide, rfl⟩

theorem rankTransaction_amongHashes {featured : FeaturedTransaction} {minScore : Nat}
    {candidate : OpportunityCandidate} (ranked : candidate ∈ rankTransaction featured minScore) :
    candidate.AmongHashes [featured.hash] := by
  obtain ⟨-, strategy, mevWeight, urgencyWeight, bonus, -, -, -, -, rfl⟩ :=
    rankTransaction_weighted ranked
  exact weightedCandidate_amongHashes strategy featured mevWeight urgencyWeight bonus

theorem perTxCandidates_amongHashes {input : SearcherInputTx} {minScore : Nat}
    {candidate : OpportunityCandidate} (ranked : candidate ∈ perTxCandidates input minScore) :
    candidate.AmongHashes [input.decoded.hash] :=
  rankTransaction_amongHashes (mem_sortBy.mp ranked)

theorem OpportunityCandidate.AmongHashes.of_mem {candidate : OpportunityCandidate} {hash : TxHash}
    {hashes : List TxHash} (among : candidate.AmongHashes [hash]) (listed : hash ∈ hashes) :
    candidate.AmongHashes hashes := by
  refine ⟨?_, fun member named => ?_⟩
  · rw [List.mem_singleton.mp among.1]
    exact listed
  · rw [List.mem_singleton.mp (among.2 member named)]
    exact listed

theorem bundleOfPair_amongHashes {left right : BundleInput} {hashes : List TxHash}
    {candidate : OpportunityCandidate} (bundled : bundleOfPair left right = some candidate)
    (leftListed : left.candidate.txHash ∈ hashes) (rightListed : right.candidate.txHash ∈ hashes) :
    candidate.AmongHashes hashes := by
  unfold bundleOfPair at bundled
  split at bundled
  · cases bundled
  · cases bundled
    refine ⟨leftListed, fun member named => ?_⟩
    simp only [List.mem_cons, List.not_mem_nil, or_false] at named
    rcases named with rfl | rfl
    · exact leftListed
    · exact rightListed

/-- **Ranking invents no hash.** Every candidate of a batch is about transactions of the batch. -/
theorem rankOpportunityBatch_amongHashes {batch : List SearcherInputTx} {config : SearcherConfig}
    {candidate : OpportunityCandidate}
    (ranked : candidate ∈ (rankOpportunityBatch batch config).candidates) :
    candidate.AmongHashes (batch.map fun input => input.decoded.hash) := by
  have listed := mem_sortBy.mp (List.mem_of_mem_take ranked)
  have hashed : ∀ {input : SearcherInputTx}, input ∈ batch →
      input.decoded.hash ∈ batch.map fun input => input.decoded.hash :=
    fun member => List.mem_map.mpr ⟨_, member, rfl⟩
  rcases List.mem_append.mp listed with standalone | bundle
  · obtain ⟨input, member, generated⟩ := List.mem_flatMap.mp standalone
    exact (perTxCandidates_amongHashes generated).of_mem (hashed member)
  · obtain ⟨⟨left, right⟩, paired, bundled⟩ := List.mem_filterMap.mp bundle
    obtain ⟨first, second⟩ := List.of_mem_zip paired
    have inputs : ∀ {bundleInput : BundleInput},
        bundleInput ∈ sortBy bundleSortKey
          (batch.filterMap fun input => bundleInputOf input config.minScore) →
        bundleInput.candidate.txHash ∈ batch.map fun input => input.decoded.hash := by
      intro bundleInput sorted
      obtain ⟨input, member, derived⟩ := List.mem_filterMap.mp (mem_sortBy.mp sorted)
      obtain ⟨best, head, rfl⟩ := Option.map_eq_some_iff.mp derived
      have generated := List.mem_of_mem_head? head
      exact ((perTxCandidates_amongHashes generated).of_mem (hashed member)).1
    exact bundleOfPair_amongHashes bundled (inputs first) (inputs (List.mem_of_mem_tail second))

end Mempulse.Searcher
