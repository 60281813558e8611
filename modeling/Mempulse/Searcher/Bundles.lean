import Mempulse.Library.TextFiles
import Mempulse.Searcher.Ranking

/-!
# Bundles

A bundle is made from two neighbours of one sender whose nonces follow one another. The next nonce is
computed with saturation, so at the largest nonce it is the nonce itself, and two competing
transactions there make a bundle too.
-/

set_option autoImplicit false

namespace Mempulse.Searcher

open Std FeatureEngine Library

/-- The entries whose best candidates are neighbours when bundles are looked for. -/
def neighbours (batch : List SearcherInputTx) (minScore : Nat) : List (BundleInput × BundleInput) :=
  let sorted := sortBy bundleSortKey (batch.filterMap fun input => bundleInputOf input minScore)
  sorted.zip sorted.tail

/-- A bundle that two transactions make. -/
def MadeFrom (minScore : Nat) (first second : SearcherInputTx) (candidate : OpportunityCandidate) :
    Prop :=
  ∃ left right, bundleInputOf first minScore = some left ∧
    bundleInputOf second minScore = some right ∧ bundleOfPair left right = some candidate

/-- The protocol and category of a transaction. -/
def SearcherInputTx.market (input : SearcherInputTx) : String × String :=
  let analysis := (analyzeDecodedTransaction input.decoded input.calldata).analysis
  (analysis.protocol, analysis.category)

/-- **A bundle is of two different transactions of the batch**, of one sender and with nonces that
follow one another. -/
structure SoundBundle (batch : List SearcherInputTx) (minScore : Nat)
    (candidate : OpportunityCandidate) (first second : SearcherInputTx) : Prop where
  firstListed : first ∈ batch
  secondListed : second ∈ batch
  made : MadeFrom minScore first second candidate
  different : first ≠ second
  members : candidate.memberTxHashes = [first.decoded.hash, second.decoded.hash]
  named : candidate.txHash = first.decoded.hash
  sender : first.decoded.sender = second.decoded.sender
  nonce : second.decoded.nonce.toNat = first.decoded.nonce.toNat + 1
  firstMarket : first.market = (candidate.protocol, candidate.category)
  secondMarket : second.market = (candidate.protocol, candidate.category)

/-- Every bundle that is returned is sound, however many candidates are returned. -/
def BundlesSound (batch : List SearcherInputTx) (minScore : Nat) : Prop :=
  ∀ maxCandidates, ∀ candidate ∈ (rankOpportunityBatch batch
      { minScore := minScore, maxCandidates := maxCandidates }).candidates,
    candidate.strategy = .bundleCandidate →
      ∃ first second, SoundBundle batch minScore candidate first second

/-- No two neighbours of one sender and one market both have the largest nonce. -/
def NoTerminalPair (batch : List SearcherInputTx) (minScore : Nat) : Prop :=
  ∀ pair ∈ neighbours batch minScore, pair.1.sender = pair.2.sender →
    pair.1.candidate.protocol = pair.2.candidate.protocol →
      pair.1.candidate.category = pair.2.candidate.category →
        ¬ (pair.1.nonce.toNat = u64Max ∧ pair.2.nonce.toNat = u64Max)

section Bundles

variable {batch : List SearcherInputTx} {minScore : Nat} {left right : BundleInput}
  {candidate : OpportunityCandidate}

/-- What a bundle says of its members. -/
structure Paired (left right : BundleInput) (candidate : OpportunityCandidate) : Prop where
  sender : left.sender = right.sender
  nonce : right.nonce.toNat = saturatingAdd u64Max left.nonce.toNat 1
  members : candidate.memberTxHashes = [left.candidate.txHash, right.candidate.txHash]
  named : candidate.txHash = left.candidate.txHash
  leftProtocol : candidate.protocol = left.candidate.protocol
  rightProtocol : candidate.protocol = right.candidate.protocol
  leftCategory : candidate.category = left.candidate.category
  rightCategory : candidate.category = right.candidate.category
  reasons : candidate.reasons[1]? = some s!"contiguous_nonces={left.nonce}..{right.nonce}"

theorem paired_of_bundleOfPair (bundled : bundleOfPair left right = some candidate) :
    Paired left right candidate := by
  unfold bundleOfPair at bundled
  split at bundled
  case isTrue => cases bundled
  case isFalse suits =>
    simp only [not_or, ne_eq, not_not] at suits
    obtain ⟨sender, nonce, protocol, category⟩ := suits
    cases bundled
    exact ⟨sender, nonce, rfl, rfl, rfl, protocol, rfl, category, rfl⟩

/-- Neighbours of one sender and one market whose nonces follow one another, or are both the
largest. -/
theorem exists_bundleOfPair (sender : left.sender = right.sender)
    (protocol : left.candidate.protocol = right.candidate.protocol)
    (category : left.candidate.category = right.candidate.category)
    (nonce : right.nonce.toNat = saturatingAdd u64Max left.nonce.toNat 1) :
    ∃ candidate, bundleOfPair left right = some candidate ∧
      candidate.strategy = .bundleCandidate := by
  unfold bundleOfPair
  rw [if_neg (by simp [sender, protocol, category, nonce])]
  exact ⟨_, rfl, rfl⟩

/-- What a transaction contributes to bundles is about it. -/
theorem bundleInputOf_about {input : SearcherInputTx} {bundleInput : BundleInput}
    (derived : bundleInputOf input minScore = some bundleInput) :
    bundleInput.sender = input.decoded.sender ∧ bundleInput.nonce = input.decoded.nonce ∧
      bundleInput.candidate.txHash = input.decoded.hash ∧
      input.market = (bundleInput.candidate.protocol, bundleInput.candidate.category) := by
  have hash := bundleInputOf_txHash derived
  obtain ⟨best, head, rfl⟩ := Option.map_eq_some_iff.mp derived
  obtain ⟨-, strategy, mevWeight, urgencyWeight, bonus, -, -, -, -, weighted⟩ :=
    rankTransaction_weighted (mem_sortBy.mp (List.mem_of_mem_head? head))
  refine ⟨rfl, rfl, hash, ?_⟩
  rw [weighted]
  rfl

theorem mem_neighbours (neighbour : (left, right) ∈ neighbours batch minScore) :
    ∃ first ∈ batch, ∃ second ∈ batch, bundleInputOf first minScore = some left ∧
      bundleInputOf second minScore = some right := by
  obtain ⟨before, after⟩ := List.of_mem_zip neighbour
  obtain ⟨first, firstListed, isLeft⟩ := List.mem_filterMap.mp (mem_sortBy.mp before)
  obtain ⟨second, secondListed, isRight⟩ :=
    List.mem_filterMap.mp (mem_sortBy.mp (List.mem_of_mem_tail after))
  exact ⟨first, firstListed, second, secondListed, isLeft, isRight⟩

/-- The bundles of a batch are those of its neighbours. -/
theorem mem_generated_bundle (bundle : candidate.strategy = .bundleCandidate) :
    candidate ∈ generatedCandidates batch minScore ↔
      ∃ left right, (left, right) ∈ neighbours batch minScore ∧
        bundleOfPair left right = some candidate := by
  constructor
  · intro generated
    rcases List.mem_append.mp generated with alone | bundled
    · obtain ⟨input, -, ranked⟩ := List.mem_flatMap.mp alone
      exact absurd bundle (perTxCandidates_key ranked).2
    · obtain ⟨⟨left, right⟩, neighbour, isBundle⟩ := List.mem_filterMap.mp bundled
      exact ⟨left, right, neighbour, isBundle⟩
  · rintro ⟨left, right, neighbour, isBundle⟩
    exact List.mem_append_right _ (List.mem_filterMap.mpr ⟨(left, right), neighbour, isBundle⟩)

/-- Every generated candidate is returned when there is room for all. -/
theorem mem_candidates_of_generated (generated : candidate ∈ generatedCandidates batch minScore) :
    candidate ∈ (rankOpportunityBatch batch
      { minScore := minScore
        maxCandidates := (generatedCandidates batch minScore).length }).candidates := by
  have all : (sortBy candidateSortKey (generatedCandidates batch minScore)).length ≤
      (generatedCandidates batch minScore).length := (List.perm_insertionSort _ _).length_eq.le
  rw [candidates_rankOpportunityBatch, List.take_of_length_le all]
  exact mem_sortBy.mpr generated

/-! ## The reason of a bundle -/

theorem dot_notMem_toString (number : UInt64) : '.' ∉ (toString number).toList := by
  intro member
  have digits : toString number = Nat.repr number.toNat := rfl
  rw [digits, Nat.repr, String.toList_ofList] at member
  exact absurd (Nat.isDigit_of_mem_toDigits (by decide) (by decide) member) (by decide)

theorem contiguousNonces_eq (first second : UInt64) :
    s!"contiguous_nonces={first}..{second}" = (String.singleton '.').intercalate
      ["contiguous_nonces=" ++ toString first, "", toString second] := by
  rw [← String.toList_inj, String.toList_intercalate]
  simp [List.intercalate, toString]

/-- The reason of a bundle tells its nonces. -/
theorem contiguousNonces_inj {first second third fourth : UInt64}
    (same : s!"contiguous_nonces={first}..{second}" = s!"contiguous_nonces={third}..{fourth}") :
    first = third ∧ second = fourth := by
  have parts : ∀ first second : UInt64,
      (s!"contiguous_nonces={first}..{second}").toList.splitOn '.' =
        ["contiguous_nonces=".toList ++ (toString first).toList, [], (toString second).toList] := by
    intro first second
    rw [contiguousNonces_eq, splitOn_toList_intercalate]
    · simp
    · simp [dot_notMem_toString]
    · simp
  have equal := parts first second
  rw [same, parts third fourth] at equal
  simp only [List.cons.injEq, List.append_cancel_left_eq, String.toList_inj, and_true, true_and]
    at equal
  exact ⟨UInt64.toNat_inj.mp (Nat.repr_injective equal.1.symm),
    UInt64.toNat_inj.mp (Nat.repr_injective equal.2.symm)⟩

/-! ## Sound bundles -/

/-- A bundle of neighbours that do not both have the largest nonce is sound. -/
theorem soundBundle_of_neighbours (neighbour : (left, right) ∈ neighbours batch minScore)
    (bundled : bundleOfPair left right = some candidate)
    (below : ¬ (left.nonce.toNat = u64Max ∧ right.nonce.toNat = u64Max)) :
    ∃ first second, SoundBundle batch minScore candidate first second := by
  obtain ⟨first, firstListed, second, secondListed, isLeft, isRight⟩ := mem_neighbours neighbour
  have paired := paired_of_bundleOfPair bundled
  obtain ⟨leftSender, leftNonce, leftHash, leftMarket⟩ := bundleInputOf_about isLeft
  obtain ⟨rightSender, rightNonce, rightHash, rightMarket⟩ := bundleInputOf_about isRight
  have follows : second.decoded.nonce.toNat = first.decoded.nonce.toNat + 1 := by
    have nonce := paired.nonce
    have bound := left.nonce.toNat_lt
    rw [← leftNonce, ← rightNonce]
    simp only [saturatingAdd, u64Max] at nonce below
    omega
  refine ⟨first, second, firstListed, secondListed, ⟨left, right, isLeft, isRight, bundled⟩, ?_,
    ?_, ?_, ?_, follows, ?_, ?_⟩
  · rintro rfl
    omega
  · rw [paired.members, leftHash, rightHash]
  · rw [paired.named, leftHash]
  · rw [← leftSender, ← rightSender, paired.sender]
  · rw [leftMarket, paired.leftProtocol, paired.leftCategory]
  · rw [rightMarket, paired.rightProtocol, paired.rightCategory]

/-- A bundle that neighbours with the largest nonce make is not sound. -/
theorem not_soundBundle_of_terminal (bundled : bundleOfPair left right = some candidate)
    (terminal : left.nonce.toNat = u64Max ∧ right.nonce.toNat = u64Max)
    (first second : SearcherInputTx) : ¬ SoundBundle batch minScore candidate first second := by
  intro sound
  obtain ⟨one, other, isOne, isOther, made⟩ := sound.made
  have reason := (paired_of_bundleOfPair bundled).reasons
  rw [(paired_of_bundleOfPair made).reasons, Option.some.injEq] at reason
  obtain ⟨sameFirst, sameSecond⟩ := contiguousNonces_inj reason
  have nonce := sound.nonce
  rw [← (bundleInputOf_about isOne).2.1, ← (bundleInputOf_about isOther).2.1, sameFirst, sameSecond,
    terminal.1, terminal.2] at nonce
  omega

end Bundles

/-- **When bundles are sound.** For every batch and least score, they are exactly when no two
neighbours of one sender and one market both have the largest nonce. -/
theorem bundlesSound_iff (batch : List SearcherInputTx) (minScore : Nat) :
    BundlesSound batch minScore ↔ NoTerminalPair batch minScore := by
  constructor
  · rintro sound ⟨left, right⟩ neighbour sender protocol category terminal
    obtain ⟨candidate, bundled, bundle⟩ := exists_bundleOfPair sender protocol category (by
      rw [terminal.1, terminal.2]
      rfl)
    have generated := (mem_generated_bundle bundle).mpr ⟨left, right, neighbour, bundled⟩
    obtain ⟨first, second, isSound⟩ :=
      sound _ candidate (mem_candidates_of_generated generated) bundle
    exact not_soundBundle_of_terminal bundled terminal first second isSound
  · intro noTerminal maxCandidates candidate returned bundle
    rw [candidates_rankOpportunityBatch] at returned
    obtain ⟨left, right, neighbour, bundled⟩ :=
      (mem_generated_bundle bundle).mp (mem_sortBy.mp (List.mem_of_mem_take returned))
    have paired := paired_of_bundleOfPair bundled
    exact soundBundle_of_neighbours neighbour bundled (noTerminal (left, right) neighbour
      paired.sender (paired.leftProtocol.symm.trans paired.rightProtocol)
        (paired.leftCategory.symm.trans paired.rightCategory))

/-- Two competing swaps at the largest nonce make a bundle. -/
theorem terminalSwaps_not_bundlesSound :
    let batch := [swapInput 10 18446744073709551615, swapInput 11 18446744073709551615]
    ((rankOpportunityBatch batch {}).candidates.map fun candidate =>
        (candidate.strategy, candidate.memberTxHashes)) =
          [(.bundleCandidate, [10, 11]), (.arbCandidate, [10]), (.arbCandidate, [11])] ∧
      ¬ BundlesSound batch 0 := by
  intro batch
  have returned : ((rankOpportunityBatch batch {}).candidates.map fun candidate =>
      (candidate.strategy, candidate.memberTxHashes)) =
        [(.bundleCandidate, [10, 11]), (.arbCandidate, [10]), (.arbCandidate, [11])] := by
    decide +kernel
  refine ⟨returned, fun sound => ?_⟩
  obtain ⟨candidate, rest, ranked, shape, -⟩ := List.map_eq_cons_iff.mp returned
  obtain ⟨first, second, isSound⟩ := sound 64 candidate
    (ranked ▸ List.mem_cons_self) (Prod.mk.inj shape).1
  have terminal : ∀ input ∈ batch, input.decoded.nonce.toNat = u64Max := by decide
  have nonce := isSound.nonce
  rw [terminal first isSound.firstListed, terminal second isSound.secondListed] at nonce
  omega

end Mempulse.Searcher
