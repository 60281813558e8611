import Mempulse.HexParsers
import Mempulse.LiveRpc.Pipeline

/-!
# Candidate ids

The id of a candidate spells its strategy and its transaction. One ranking makes at most one
candidate of a strategy and a transaction: the three strategies look at each transaction once, and
a transaction is at most once the left one of a bundle. So the candidates a worker registers
together have different ids.
-/

set_option autoImplicit false

namespace Mempulse

/-! ## Hex strings -/

theorem digitChar_inj : ∀ left right : Fin 16,
    Nat.digitChar left = Nat.digitChar right → left = right := by
  decide

/-- Numbers with the same low hexadecimal digits. -/
theorem mod_pow_eq_of_digits {left right count : Nat}
    (digits : ∀ position < count, left / 16 ^ position % 16 = right / 16 ^ position % 16) :
    left % 16 ^ count = right % 16 ^ count := by
  induction count with
  | zero => rw [pow_zero, Nat.mod_one, Nat.mod_one]
  | succ count ih =>
      have lower := ih fun position below => digits position (Nat.lt_succ_of_lt below)
      rw [Nat.mod_pow_succ, Nat.mod_pow_succ, lower, digits count (Nat.lt_succ_self count)]

namespace Searcher

open FeatureEngine

/-! ## One candidate of a strategy and a transaction -/

/-- What the id of a candidate spells. -/
def OpportunityCandidate.key (candidate : OpportunityCandidate) : StrategyKind × TxHash :=
  (candidate.strategy, candidate.txHash)

/-- The pairs of a zip are related as their left elements are. -/
theorem pairwise_zip_fst {α β : Type} {related : α → α → Prop} {left : List α}
    (pairwise : left.Pairwise related) (right : List β) :
    (left.zip right).Pairwise fun first second => related first.1 second.1 := by
  induction pairwise generalizing right with
  | nil => exact List.Pairwise.nil
  | cons apart _ ih =>
      cases right with
      | nil => exact List.Pairwise.nil
      | cons head tail =>
          exact List.pairwise_cons.mpr
            ⟨fun pair member => apart pair.1 (List.of_mem_zip member).1, ih tail⟩

theorem pairwise_zip_snd {α β : Type} {related : β → β → Prop} {right : List β}
    (pairwise : right.Pairwise related) (left : List α) :
    (left.zip right).Pairwise fun first second => related first.2 second.2 := by
  rw [← List.zip_swap, List.pairwise_map]
  exact pairwise_zip_fst pairwise left

section Keys

variable {featured : FeaturedTransaction} {minScore : Nat}

theorem evaluateSandwichCandidate_key {candidate : OpportunityCandidate}
    (evaluated : evaluateSandwichCandidate featured = some candidate) :
    candidate.key = (.sandwichCandidate, featured.hash) := by
  simp only [evaluateSandwichCandidate] at evaluated
  split at evaluated
  · cases evaluated
  · split at evaluated <;> cases evaluated
    rfl

theorem evaluateBackrunCandidate_key {candidate : OpportunityCandidate}
    (evaluated : evaluateBackrunCandidate featured = some candidate) :
    candidate.key = (.backrunCandidate, featured.hash) := by
  simp only [evaluateBackrunCandidate] at evaluated
  split at evaluated <;> cases evaluated
  rfl

theorem evaluateArbCandidate_key {candidate : OpportunityCandidate}
    (evaluated : evaluateArbCandidate featured = some candidate) :
    candidate.key = (.arbCandidate, featured.hash) := by
  simp only [evaluateArbCandidate] at evaluated
  split at evaluated <;> cases evaluated
  rfl

/-- The candidates of a transaction are about it, and none of them is a bundle. -/
theorem rankTransaction_key {candidate : OpportunityCandidate}
    (ranked : candidate ∈ rankTransaction featured minScore) :
    candidate.txHash = featured.hash ∧ candidate.strategy ≠ .bundleCandidate := by
  obtain ⟨-, strategy, mevWeight, urgencyWeight, bonus, alone, -, -, -, rfl⟩ :=
    rankTransaction_weighted ranked
  exact ⟨rfl, alone⟩

/-- A transaction has at most one candidate of each strategy. -/
theorem rankTransaction_pairwise (featured : FeaturedTransaction) (minScore : Nat) :
    (rankTransaction featured minScore).Pairwise fun left right => left.key ≠ right.key := by
  refine List.Pairwise.filter _ (List.pairwise_filterMap.mpr ?_)
  have differ : ∀ {left right : Option OpportunityCandidate} {first second : StrategyKind},
      (∀ candidate, left = some candidate → candidate.key = (first, featured.hash)) →
        (∀ candidate, right = some candidate → candidate.key = (second, featured.hash)) →
          first ≠ second → ∀ one, left = some one → ∀ other, right = some other →
            one.key ≠ other.key := by
    intro left right first second leftKey rightKey apart one isOne other isOther same
    rw [leftKey one isOne, rightKey other isOther] at same
    exact apart (congrArg Prod.fst same)
  have sandwich := fun candidate => @evaluateSandwichCandidate_key featured candidate
  have backrun := fun candidate => @evaluateBackrunCandidate_key featured candidate
  have arb := fun candidate => @evaluateArbCandidate_key featured candidate
  simp only [List.pairwise_cons, List.mem_cons, List.not_mem_nil, or_false, forall_eq_or_imp,
    forall_eq, false_implies, implies_true, List.Pairwise.nil, and_true, id]
  exact ⟨⟨differ sandwich backrun (by decide), differ sandwich arb (by decide)⟩,
    differ backrun arb (by decide)⟩

theorem key_ne_of_pairwise_sortBy {candidates : List OpportunityCandidate}
    (distinct : candidates.Pairwise fun left right => left.key ≠ right.key) :
    (sortBy candidateSortKey candidates).Pairwise fun left right => left.key ≠ right.key :=
  (List.perm_insertionSort _ candidates).symm.pairwise distinct Ne.symm

theorem perTxCandidates_key {input : SearcherInputTx} {candidate : OpportunityCandidate}
    (ranked : candidate ∈ perTxCandidates input minScore) :
    candidate.txHash = input.decoded.hash ∧ candidate.strategy ≠ .bundleCandidate :=
  rankTransaction_key (mem_sortBy.mp ranked)

/-- A bundle is about its left transaction. -/
theorem bundleOfPair_key {left right : BundleInput} {candidate : OpportunityCandidate}
    (bundled : bundleOfPair left right = some candidate) :
    candidate.key = (.bundleCandidate, left.candidate.txHash) := by
  unfold bundleOfPair at bundled
  split at bundled <;> cases bundled
  rfl

theorem bundleInputOf_txHash {input : SearcherInputTx} {bundleInput : BundleInput}
    (derived : bundleInputOf input minScore = some bundleInput) :
    bundleInput.candidate.txHash = input.decoded.hash := by
  obtain ⟨best, head, rfl⟩ := Option.map_eq_some_iff.mp derived
  exact (perTxCandidates_key (List.mem_of_mem_head? head)).1

/-- Each transaction is the left one of at most one bundle. -/
theorem buildBundleCandidates_pairwise {inputs : List BundleInput}
    (distinct : inputs.Pairwise fun left right => left.candidate.txHash ≠ right.candidate.txHash) :
    (buildBundleCandidates inputs).Pairwise fun left right => left.key ≠ right.key := by
  have sorted : (sortBy bundleSortKey inputs).Pairwise
      fun left right => left.candidate.txHash ≠ right.candidate.txHash :=
    (List.perm_insertionSort _ inputs).symm.pairwise distinct Ne.symm
  have lefts : ((sortBy bundleSortKey inputs).zip (sortBy bundleSortKey inputs).tail).Pairwise
      fun first second => first.1.candidate.txHash ≠ second.1.candidate.txHash :=
    pairwise_zip_fst sorted _
  refine List.pairwise_filterMap.mpr (lefts.imp fun differ one isOne other isOther same => ?_)
  rw [bundleOfPair_key isOne, bundleOfPair_key isOther] at same
  exact differ (congrArg Prod.snd same)

/-- The candidates of a batch before they are ranked. -/
def generatedCandidates (batch : List SearcherInputTx) (minScore : Nat) :
    List OpportunityCandidate :=
  (batch.flatMap fun input => perTxCandidates input minScore) ++
    buildBundleCandidates (batch.filterMap fun input => bundleInputOf input minScore)

theorem bundleInputs_pairwise {batch : List SearcherInputTx}
    (distinct : batch.Pairwise fun left right => left.decoded.hash ≠ right.decoded.hash)
    (minScore : Nat) :
    (batch.filterMap fun input => bundleInputOf input minScore).Pairwise
      fun left right => left.candidate.txHash ≠ right.candidate.txHash := by
  refine List.pairwise_filterMap.mpr (distinct.imp fun differ one isOne other isOther => ?_)
  rw [bundleInputOf_txHash isOne, bundleInputOf_txHash isOther]
  exact differ

/-- **A batch makes at most one candidate of a strategy and a transaction.** -/
theorem generatedCandidates_pairwise {batch : List SearcherInputTx}
    (distinct : batch.Pairwise fun left right => left.decoded.hash ≠ right.decoded.hash)
    (minScore : Nat) :
    (generatedCandidates batch minScore).Pairwise fun left right => left.key ≠ right.key := by
  have standalone : (batch.flatMap fun input => perTxCandidates input minScore).Pairwise
      fun left right => left.key ≠ right.key := by
    refine List.pairwise_flatMap.mpr ⟨fun input _ => ?_, distinct.imp ?_⟩
    · exact key_ne_of_pairwise_sortBy (rankTransaction_pairwise _ _)
    · intro first second differ one ofFirst other ofSecond same
      have hashes := congrArg Prod.snd same
      rw [OpportunityCandidate.key, OpportunityCandidate.key, (perTxCandidates_key ofFirst).1,
        (perTxCandidates_key ofSecond).1] at hashes
      exact differ hashes
  refine List.pairwise_append.mpr
    ⟨standalone, buildBundleCandidates_pairwise (bundleInputs_pairwise distinct minScore),
      fun one alone other bundled same => ?_⟩
  obtain ⟨input, -, ranked⟩ := List.mem_flatMap.mp alone
  obtain ⟨⟨left, right⟩, -, isBundle⟩ := List.mem_filterMap.mp bundled
  rw [bundleOfPair_key isBundle] at same
  exact (perTxCandidates_key ranked).2 (congrArg Prod.fst same)

/-- The candidates that are returned are the first ones generated. -/
theorem candidates_rankOpportunityBatch (batch : List SearcherInputTx) (config : SearcherConfig) :
    (rankOpportunityBatch batch config).candidates =
      (sortBy candidateSortKey (generatedCandidates batch config.minScore)).take
        config.maxCandidates := rfl

theorem rankOpportunityBatch_pairwise {batch : List SearcherInputTx}
    (distinct : batch.Pairwise fun left right => left.decoded.hash ≠ right.decoded.hash)
    (config : SearcherConfig) :
    (rankOpportunityBatch batch config).candidates.Pairwise
      fun left right => left.key ≠ right.key := by
  rw [candidates_rankOpportunityBatch]
  exact (key_ne_of_pairwise_sortBy (generatedCandidates_pairwise distinct _)).sublist
    (List.take_sublist _ _)

end Keys

end Searcher

namespace LiveRpc

open Scheduler Searcher

/-! ## Ids -/

theorem strategyDebug_inj {left right : StrategyKind} (same : left.debug = right.debug) :
    left = right := by
  cases left <;> cases right <;> first | rfl | simp [StrategyKind.debug] at same

theorem length_formatFixedHex (hash : TxHash) : (formatFixedHex hash).toList.length = 66 := by
  simp [formatFixedHex, hexText, hexString]

theorem formatFixedHex_inj {left right : TxHash}
    (same : formatFixedHex left = formatFixedHex right) : left = right :=
  hexText_injective same

/-- An id spells one strategy and one transaction. -/
theorem spelledId_inj {left right : StrategyKind} {leftHash rightHash : TxHash}
    (same : left.debug ++ ":" ++ formatFixedHex leftHash =
      right.debug ++ ":" ++ formatFixedHex rightHash) : left = right ∧ leftHash = rightHash := by
  have characters := congrArg String.toList same
  rw [String.toList_append, String.toList_append (s := right.debug ++ ":")] at characters
  obtain ⟨strategies, hashes⟩ := List.append_inj' characters (by
    rw [length_formatFixedHex, length_formatFixedHex])
  rw [String.toList_append, String.toList_append, List.append_cancel_right_eq] at strategies
  exact ⟨strategyDebug_inj (String.toList_inj.mp strategies),
    formatFixedHex_inj (String.toList_inj.mp hashes)⟩

section Opportunities

variable {executable simulationContext : List ValidatedTransaction} {detectedUnixMs : Int64}
  {chainId : Option UInt64}

theorem mem_buildExecutableOpportunities {opportunity : ExecutableOpportunity}
    (built : opportunity ∈ buildExecutableOpportunities executable detectedUnixMs chainId) :
    opportunity.record.txHash = opportunity.candidate.txHash ∧
      opportunity.candidate.AmongHashes (executable.map (·.hash)) := by
  unfold buildExecutableOpportunities at built
  split at built
  · cases built
  · obtain ⟨candidate, ranked, rfl⟩ := List.mem_map.mp built
    have among := rankOpportunityBatch_amongHashes ranked
    rw [List.map_map] at among
    exact ⟨rfl, among⟩

theorem buildExecutableOpportunities_pairwise
    (distinct : executable.Pairwise fun left right => left.hash ≠ right.hash) :
    (buildExecutableOpportunities executable detectedUnixMs chainId).Pairwise
      fun left right => left.candidate.key ≠ right.candidate.key := by
  unfold buildExecutableOpportunities
  split
  · exact List.Pairwise.nil
  · exact List.pairwise_map.mpr (rankOpportunityBatch_pairwise (List.pairwise_map.mpr distinct) _)

/-- A task is prepared for the candidate of an opportunity. -/
theorem mem_prepareSimulationTasks {opportunities : List ExecutableOpportunity}
    {prepared : PreparedSimulationTask}
    (listed : prepared ∈ prepareSimulationTasks opportunities simulationContext) :
    prepared.opportunity ∈ opportunities ∧
      prepared.candidate = schedulerCandidateFromExecutableOpportunity prepared.opportunity := by
  obtain ⟨opportunity, member, requested⟩ := List.mem_filterMap.mp listed
  obtain ⟨request, -, rfl⟩ := Option.map_eq_some_iff.mp requested
  exact ⟨member, rfl⟩

/-- **The candidates that are registered together have different ids.** -/
theorem prepareSimulationTasks_pairwise
    (distinct : executable.Pairwise fun left right => left.hash ≠ right.hash) :
    (prepareSimulationTasks (buildExecutableOpportunities executable detectedUnixMs chainId)
      simulationContext).Pairwise
        fun left right => left.candidate.candidateId ≠ right.candidate.candidateId := by
  refine List.pairwise_filterMap.mpr
    ((buildExecutableOpportunities_pairwise distinct).imp_of_mem ?_)
  intro first second firstBuilt secondBuilt differ one isOne other isOther same
  obtain ⟨request, -, rfl⟩ := Option.map_eq_some_iff.mp isOne
  obtain ⟨request, -, rfl⟩ := Option.map_eq_some_iff.mp isOther
  obtain ⟨strategy, hash⟩ := spelledId_inj same
  rw [(mem_buildExecutableOpportunities firstBuilt).1,
    (mem_buildExecutableOpportunities secondBuilt).1] at hash
  exact differ (Prod.ext strategy hash)

theorem nodup_eraseDups {α : Type} [DecidableEq α] (list : List α) : list.eraseDups.Nodup := by
  induction measured : list.length using Nat.strong_induction_on generalizing list with
  | _ length ih =>
    cases list with
    | nil => exact List.nodup_nil
    | cons first rest =>
        have shorter : (rest.filter fun other => !other == first).length < length := by
          have bound := List.length_filter_le (fun other => !other == first) rest
          rw [← measured, List.length_cons]
          omega
        rw [List.eraseDups_cons, List.nodup_cons]
        refine ⟨fun member => ?_, ih _ shorter _ rfl⟩
        have kept := List.mem_filter.mp (List.mem_eraseDups.mp member)
        simp at kept

/-- The transactions of different hashes are different. -/
theorem pendingTransactions_pairwise {state : SchedulerState}
    (keyed : ∀ {hash : TxHash} {tx : ValidatedTransaction}, state.pending[hash]? = some tx →
      tx.hash = hash) {hashes : List TxHash} (distinct : hashes.Nodup) :
    (state.pendingTransactions hashes).Pairwise fun left right => left.hash ≠ right.hash := by
  refine List.pairwise_filterMap.mpr (distinct.imp fun differ one isOne other isOther same => ?_)
  rw [keyed isOne, keyed isOther] at same
  exact differ same

end Opportunities

end LiveRpc

end Mempulse
