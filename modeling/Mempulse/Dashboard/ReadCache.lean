import Mempulse.Dashboard.Dispatch
import Mempulse.Replay.FrameOrder
import Mempulse.Storage.Mutations

/-!
# The dashboard read cache

The provider keeps the dashboard's views of the storage beside the storage revision they were
built at, and builds them again when the revision has moved. A read holds the storage lock from
the revision to the views, so a read is one step between mutations.

Every mutator moves the revision by one, and `append_event` also by one for each upsert it makes
itself. The revision saturates, so the views are those of the storage while fewer than `2 ^ 64`
such calls have been made (`dashboardCache_coherent`), and `2 ^ 63` appended decodes are enough to
freeze them (`saturatedRevision_stale`).
-/

set_option autoImplicit false

namespace Mempulse.Dashboard

open Std EventLog Library Storage Replay

/-! ## The views -/

/-- Replay chart point for the dashboard timeline. -/
structure ReplayPoint where
  seqHi : UInt64
  timestampUnixMs : Int64
  pendingCount : UInt32
  deriving DecidableEq

/-- Aggregated feature count of a protocol and a category. -/
structure FeatureSummary where
  protocol : String
  category : String
  count : Nat
  deriving DecidableEq

/-- The four views the cache keeps. -/
structure DashboardViews where
  replayPoints : List ReplayPoint := []
  featureSummary : List FeatureSummary := []
  featureDetails : List FeatureDetail := []
  opportunities : List OpportunityDetail := []
  deriving DecidableEq

/-- The points of the replay chart, thinned by the stride. -/
def buildReplayPoints (iteration : MapIteration) (storage : InMemoryStorage) (replayStride : Nat) :
    List ReplayPoint :=
  (iteration.replayFrames storage.listEvents .deterministicEventReplay replayStride).map fun frame =>
    { seqHi := frame.seqHi, timestampUnixMs := frame.timestampUnixMs
      pendingCount := UInt32.ofNat frame.pending.length }

/-- Largest count first, then by name. -/
def cmpFeatureSummary (left right : FeatureSummary) : Ordering :=
  (compare right.count left.count).then
    ((compare left.protocol right.protocol).then (compare left.category right.category))

/-- Counts every retained feature row, also several of one hash. -/
def buildFeatureSummary (storage : InMemoryStorage) : List FeatureSummary :=
  let counts : FeatureSummaryCounts := storage.txFeatures.rows.foldl
    (fun counts feature =>
      InMemoryStorage.incrementFeatureSummaryCount counts feature.protocol feature.category) ∅
  stableSort cmpFeatureSummary <| counts.toList.map fun entry =>
    { protocol := entry.1.1, category := entry.1.2, count := entry.2 }

/-- A selector as hexadecimal text. -/
def formatMethodSelector (methodSelector : Option (BitVec 32)) : Option String :=
  methodSelector.map formatBytes

/-- A feature row as the listing shows it. -/
def featureDetail (feature : TxFeaturesRecord) : FeatureDetail where
  hash := formatBytes feature.hash
  protocol := feature.protocol
  category := feature.category
  chainId := feature.chainId
  mevScore := feature.mevScore
  urgencyScore := feature.urgencyScore
  methodSelector := formatMethodSelector feature.methodSelector
  featureEngineVersion := feature.featureEngineVersion

/-- The loop of `build_feature_details`: the first row of each hash. -/
def buildFeatureDetailsLoop (emitted : ExtTreeSet TxHash) : List TxFeaturesRecord → List FeatureDetail
  | [] => []
  | feature :: rest =>
    if emitted.contains feature.hash then buildFeatureDetailsLoop emitted rest
    else featureDetail feature :: buildFeatureDetailsLoop (emitted.insert feature.hash) rest

/-- The newest feature row of every hash, newest first. -/
def buildFeatureDetails (storage : InMemoryStorage) : List FeatureDetail :=
  buildFeatureDetailsLoop ∅ storage.txFeatures.rows.reverse

/-- Latest first, then by hash and strategy. Opportunities equal in all three may come in any
order from the source's unstable sort; here they keep theirs. -/
def cmpOpportunity (left right : OpportunityRecord) : Ordering :=
  (compare right.detectedUnixMs left.detectedUnixMs).then
    ((compare left.txHash right.txHash).then (compare left.strategy right.strategy))

/-- The opportunities in the order of the listing. -/
def buildOpportunities (storage : InMemoryStorage) : List OpportunityDetail :=
  (stableSort cmpOpportunity storage.opportunities).map fun row =>
    { txHash := formatBytes row.txHash, status := "detected", strategy := row.strategy
      score := row.score, protocol := row.protocol, category := row.category, chainId := row.chainId
      featureEngineVersion := row.featureEngineVersion, scorerVersion := row.scorerVersion
      strategyVersion := row.strategyVersion, reasons := row.reasons
      detectedUnixMs := row.detectedUnixMs }

/-- Builds the four views from the storage. The replay of one build lists its hash map in an order
of its own. -/
def buildViews (iteration : MapIteration) (storage : InMemoryStorage) (replayStride : Nat) :
    DashboardViews where
  replayPoints := buildReplayPoints iteration storage replayStride
  featureSummary := buildFeatureSummary storage
  featureDetails := buildFeatureDetails storage
  opportunities := buildOpportunities storage

/-- The views do not depend on the order of the hash map they were built with. -/
theorem buildViews_eq (iteration other : MapIteration) (storage : InMemoryStorage)
    (replayStride : Nat) :
    buildViews iteration storage replayStride = buildViews other storage replayStride := by
  rw [buildViews, buildReplayPoints, replayFrames_eq iteration other _ _ .deterministicEventReplay]
  rfl

/-! ## The provider -/

/-- The cache without its measurements: build times and an estimate of its size in memory. -/
structure DashboardReadCache where
  revision : Option Nat := none
  refreshes : Nat := 0
  views : DashboardViews := {}
  deriving DecidableEq

/-- In-memory provider backed by a storage. -/
structure InMemoryVizProvider where
  storage : InMemoryStorage
  replayStride : Nat
  dashboardCache : DashboardReadCache := {}

namespace InMemoryVizProvider

/-- A provider with nothing cached. -/
def new (storage : InMemoryStorage) (replayStride : Nat) : InMemoryVizProvider where
  storage := storage
  replayStride := max replayStride 1

/-- The cache a read returns, which is also the cache it leaves. -/
def dashboardCacheSnapshot (provider : InMemoryVizProvider) (iteration : MapIteration) :
    DashboardReadCache :=
  let revision := provider.storage.readModelRevision
  if provider.dashboardCache.revision ≠ some revision then
    { revision := some revision
      refreshes := saturatingAdd u64Max provider.dashboardCache.refreshes 1
      views := buildViews iteration provider.storage provider.replayStride }
  else provider.dashboardCache

end InMemoryVizProvider

/-- What happens to a provider: the storage is mutated, or the dashboard is read. -/
inductive ProviderStep where
  | mutate (mutation : StorageMutation)
  | read (iteration : MapIteration)

namespace InMemoryVizProvider

/-- The provider after a step. -/
def step (provider : InMemoryVizProvider) : ProviderStep → InMemoryVizProvider
  | .mutate mutation => { provider with storage := provider.storage.mutate mutation }
  | .read iteration =>
    { provider with dashboardCache := provider.dashboardCacheSnapshot iteration }

/-- The provider after the steps. -/
def run (provider : InMemoryVizProvider) (steps : List ProviderStep) : InMemoryVizProvider :=
  steps.foldl step provider

theorem run_concat (provider : InMemoryVizProvider) (steps : List ProviderStep)
    (last : ProviderStep) : provider.run (steps ++ [last]) = (provider.run steps).step last := by
  rw [run, List.foldl_append]
  rfl

theorem run_append (provider : InMemoryVizProvider) (steps later : List ProviderStep) :
    provider.run (steps ++ later) = (provider.run steps).run later :=
  List.foldl_append

end InMemoryVizProvider

/-! ## The revision -/

/-- How many mutators an appended event calls: itself and the upserts it makes. -/
def appendCalls (event : EventEnvelope) : Nat :=
  let projected := match event.payload with
    | .candidateQueued _ | .assemblyDecisionApplied _ => 1
    | _ => 0
  let lifecycle := if (InMemoryStorage.lifecycleUpdate event).isSome then 1 else 0
  projected + lifecycle + 1

/-- How many mutators a mutation calls. -/
def mutatorCalls : StorageMutation → Nat
  | .appendEvent event => appendCalls event
  | .upsertTxSeen _ | .upsertTxFull _ | .upsertTxFeatures _ | .upsertOpportunity _
  | .upsertBuilderLifecycle _ | .upsertTxLifecycle _ | .upsertPeerStats _
  | .writeSchedulerSnapshot _ => 1

/-- How often a step raises the revision. -/
def ProviderStep.calls : ProviderStep → Nat
  | .mutate mutation => mutatorCalls mutation
  | .read _ => 0

theorem mutatorCalls_pos (mutation : StorageMutation) : 0 < mutatorCalls mutation := by
  cases mutation with
  | appendEvent event => exact Nat.succ_pos _
  | upsertTxSeen | upsertTxFull | upsertTxFeatures | upsertOpportunity | upsertBuilderLifecycle
  | upsertTxLifecycle | upsertPeerStats | writeSchedulerSnapshot => exact Nat.one_pos

theorem saturatingAdd_saturatingAdd (bound start left right : Nat) :
    saturatingAdd bound (saturatingAdd bound start left) right =
      saturatingAdd bound start (left + right) := by
  simp only [saturatingAdd]
  omega

/-- **Every mutator moves the revision**, by one for each call. -/
theorem readModelRevision_mutate (storage : InMemoryStorage) (mutation : StorageMutation) :
    (storage.mutate mutation).readModelRevision =
      saturatingAdd u64Max storage.readModelRevision (mutatorCalls mutation) := by
  cases mutation with
  | appendEvent event =>
      rcases event with ⟨seqId, ingestTsUnixMs, ingestTsMonoNs, sourceId, payload⟩
      cases payload <;>
        first
          | rfl
          | exact saturatingAdd_saturatingAdd u64Max storage.readModelRevision 1 1
  | upsertTxSeen | upsertTxFull | upsertTxFeatures | upsertOpportunity | upsertBuilderLifecycle
  | upsertTxLifecycle | upsertPeerStats | writeSchedulerSnapshot => rfl

/-! ## Coherence -/

/-- The number of mutator calls of a list of steps. -/
def callsOf (steps : List ProviderStep) : Nat :=
  (steps.map ProviderStep.calls).sum

theorem callsOf_concat (steps : List ProviderStep) (last : ProviderStep) :
    callsOf (steps ++ [last]) = callsOf steps + last.calls := by
  simp [callsOf]

/-- The revision counts the mutator calls, and a cache built at the present revision has the views
of the present storage. -/
structure Coherent (calls : Nat) (provider : InMemoryVizProvider) : Prop where
  counted : provider.storage.readModelRevision = calls
  past : ∀ revision, provider.dashboardCache.revision = some revision → revision ≤ calls
  current : provider.dashboardCache.revision = some calls → ∀ iteration,
    provider.dashboardCache.views =
      buildViews iteration provider.storage provider.replayStride

namespace Coherent

theorem start (config : StorageConfig) (replayStride : Nat) :
    Coherent 0 (InMemoryVizProvider.new (InMemoryStorage.withConfig config) replayStride) where
  counted := rfl
  past := fun _ built => nomatch built
  current := fun built => nomatch built

variable {calls : Nat} {provider : InMemoryVizProvider}

theorem mutate (coherent : Coherent calls provider) (mutation : StorageMutation)
    (fits : calls + mutatorCalls mutation < 2 ^ 64) :
    Coherent (calls + mutatorCalls mutation) (provider.step (.mutate mutation)) where
  counted := by
    have bound : calls + mutatorCalls mutation ≤ u64Max := by
      rw [u64Max]
      omega
    exact (readModelRevision_mutate provider.storage mutation).trans
      (by rw [coherent.counted, saturatingAdd_of_le bound])
  past := fun revision built => (coherent.past revision built).trans (Nat.le_add_right _ _)
  current := by
    -- The cache was built before the mutation, so at an earlier revision.
    intro built
    have earlier := coherent.past _ built
    have moves := mutatorCalls_pos mutation
    omega

/-- A read serves the views of the storage, and leaves them in the cache. -/
theorem snapshot (coherent : Coherent calls provider) (iteration : MapIteration) :
    (provider.dashboardCacheSnapshot iteration).revision = some calls ∧
      ∀ other, (provider.dashboardCacheSnapshot iteration).views =
        buildViews other provider.storage provider.replayStride := by
  unfold InMemoryVizProvider.dashboardCacheSnapshot
  rw [coherent.counted]
  by_cases built : provider.dashboardCache.revision = some calls
  · rw [if_neg (not_not.mpr built)]
    exact ⟨built, coherent.current built⟩
  · rw [if_pos built]
    exact ⟨rfl, fun other => buildViews_eq iteration other _ _⟩

theorem read (coherent : Coherent calls provider) (iteration : MapIteration) :
    Coherent calls (provider.step (.read iteration)) where
  counted := coherent.counted
  past := by
    intro revision built
    have present := (coherent.snapshot iteration).1
    exact (Option.some.inj (built.symm.trans present)).le
  current := fun _ => (coherent.snapshot iteration).2

/-- **What one step preserves.** -/
theorem step (coherent : Coherent calls provider) (step : ProviderStep)
    (fits : calls + step.calls < 2 ^ 64) : Coherent (calls + step.calls) (provider.step step) := by
  cases step with
  | mutate mutation => exact coherent.mutate mutation fits
  | read iteration => exact coherent.read iteration

theorem run (config : StorageConfig) (replayStride : Nat) (steps : List ProviderStep)
    (fits : callsOf steps < 2 ^ 64) :
    Coherent (callsOf steps)
      ((InMemoryVizProvider.new (InMemoryStorage.withConfig config) replayStride).run steps) := by
  induction steps using List.reverseRecOn with
  | nil => exact .start config replayStride
  | append_singleton steps last ih =>
      rw [callsOf_concat] at fits ⊢
      rw [InMemoryVizProvider.run_concat]
      exact (ih (by omega)).step last fits

end Coherent

/-- The views a read serves are those built from the storage at the time of the read, and reading
again rebuilds nothing. -/
def ServesFresh (provider : InMemoryVizProvider) : Prop :=
  ∀ iteration other : MapIteration,
    (provider.dashboardCacheSnapshot iteration).views =
        buildViews other provider.storage provider.replayStride ∧
      (provider.step (.read iteration)).dashboardCacheSnapshot other =
        provider.dashboardCacheSnapshot iteration

/-- **Dashboard cache coherence.** While the steps of a run call fewer than `2 ^ 64` mutators, the
upserts that `append_event` makes itself among them, every read serves the views of the storage as
it is, and a second read rebuilds nothing. -/
theorem dashboardCache_coherent (config : StorageConfig) (replayStride : Nat)
    (steps : List ProviderStep) (fits : callsOf steps < 2 ^ 64) :
    ServesFresh
      ((InMemoryVizProvider.new (InMemoryStorage.withConfig config) replayStride).run steps) := by
  intro iteration other
  have coherent := Coherent.run config replayStride steps fits
  refine ⟨(coherent.snapshot iteration).2 other, ?_⟩
  have present := (coherent.snapshot iteration).1
  have counted := (coherent.read iteration).counted
  conv_lhs => unfold InMemoryVizProvider.dashboardCacheSnapshot
  rw [counted]
  exact if_neg (not_not.mpr present)

/-- A decoded transaction. -/
def decodedTwoCalls : EventEnvelope where
  seqId := 1
  ingestTsUnixMs := 1
  ingestTsMonoNs := 1
  sourceId := "rpc-mainnet"
  payload := .txDecoded (Scheduler.sampleValidatedTx 10 1 7 100).decoded

/-- A feature row of hash `10`. -/
def sampleFeatures : TxFeaturesRecord where
  hash := 10
  chainId := some 1
  protocol := "uniswap-v2"
  category := "swap"
  mevScore := 80
  urgencyScore := 10
  methodSelector := none
  featureEngineVersion := "feature-engine.v1"

/-- Two appends, a read, an upsert and the read that follows it. -/
theorem dashboardCache_coherent_upsert :
    ServesFresh
      ((InMemoryVizProvider.new (InMemoryStorage.withConfig {}) 1).run
        [.mutate (.appendEvent decodedTwoCalls), .mutate (.appendEvent decodedTwoCalls),
          .read .increasing, .mutate (.upsertTxFeatures sampleFeatures)]) :=
  dashboardCache_coherent {} 1 _ (by decide)

/-! ## A saturated revision -/

namespace InMemoryVizProvider

theorem run_mutations (provider : InMemoryVizProvider) (mutations : List StorageMutation) :
    provider.run (mutations.map .mutate) =
      { provider with storage := provider.storage.mutateAll mutations } := by
  induction mutations generalizing provider with
  | nil => rfl
  | cons mutation rest ih => exact ih (provider.step (.mutate mutation))

end InMemoryVizProvider

/-- A mutation after a read that leaves the revision where it was goes unseen. -/
theorem views_eq_of_servesFresh {storage : InMemoryStorage} {mutation : StorageMutation}
    {replayStride : Nat} (iteration : MapIteration)
    (still : (storage.mutate mutation).readModelRevision = storage.readModelRevision)
    (fresh : ServesFresh (({ storage := storage, replayStride := replayStride } :
      InMemoryVizProvider).run [.read iteration, .mutate mutation])) :
    buildViews iteration storage replayStride =
      buildViews iteration (storage.mutate mutation) replayStride := by
  have served := (fresh iteration iteration).1
  unfold InMemoryVizProvider.dashboardCacheSnapshot at served
  rw [if_neg] at served
  · exact served
  · exact not_not.mpr (congrArg some still.symm)

theorem readModelRevision_mutateAll (storage : InMemoryStorage) (mutations : List StorageMutation) :
    (storage.mutateAll mutations).readModelRevision =
      if mutations = [] then storage.readModelRevision
      else saturatingAdd u64Max storage.readModelRevision (mutations.map mutatorCalls).sum := by
  induction mutations generalizing storage with
  | nil => rfl
  | cons mutation rest ih =>
      have moved := readModelRevision_mutate storage mutation
      refine (ih (storage.mutate mutation)).trans ?_
      rw [if_neg (List.cons_ne_nil _ _), List.map_cons, List.sum_cons, moved]
      split
      case isTrue done => rw [done, List.map_nil, List.sum_nil, Nat.add_zero]
      case isFalse => exact saturatingAdd_saturatingAdd _ _ _ _

/-- The number of mutations of a list of steps, whatever they call. -/
def mutationCount (steps : List ProviderStep) : Nat :=
  steps.countP fun step => match step with
    | .mutate _ => true
    | .read _ => false

/-- Decodes, each of which moves the revision twice. -/
def decodes (count : Nat) : List StorageMutation :=
  List.replicate count (.appendEvent decodedTwoCalls)

/-- Reading after many decodes, and then writing a feature row. -/
def frozenRun (count : Nat) : List ProviderStep :=
  (decodes count).map .mutate ++ [.read .increasing, .mutate (.upsertTxFeatures sampleFeatures)]

theorem mutationCount_frozenRun (count : Nat) : mutationCount (frozenRun count) = count + 1 := by
  have mutations : mutationCount ((decodes count).map .mutate) = count := by
    rw [mutationCount, List.countP_map]
    exact (List.countP_eq_length.mpr fun _ _ => rfl).trans List.length_replicate
  rw [frozenRun, mutationCount, List.countP_append]
  exact congrArg (· + 1) mutations

section Frozen

variable {count : Nat} {storage : InMemoryStorage}
  (decoded : storage = (InMemoryStorage.withConfig {}).mutateAll (decodes count))

include decoded

theorem readModelRevision_decodes (saturates : u64Max ≤ count * 2) :
    storage.readModelRevision = u64Max := by
  have calls : ((decodes count).map mutatorCalls).sum = count * 2 := by
    rw [decodes, List.map_replicate, List.sum_replicate, smul_eq_mul]
    rfl
  have some : decodes count ≠ [] := by
    rw [decodes, ne_eq, List.replicate_eq_nil_iff]
    rintro rfl
    exact absurd saturates (by decide)
  rw [decoded, readModelRevision_mutateAll, if_neg some, calls, saturatingAdd,
    Nat.min_eq_right (saturates.trans (Nat.le_add_left _ _))]

omit decoded in
theorem filterMap_txFeaturesRow_decodes : (decodes count).filterMap (·.txFeaturesRow) = [] := by
  rw [List.filterMap_eq_nil_iff]
  intro mutation member
  rw [List.eq_of_mem_replicate member]
  rfl

theorem txFeatures_decodes : storage.txFeatures.rows = [] := by
  have tabulated := (TablesConsistent.run {} (decodes count)).txFeatures.rows
  rwa [filterMap_txFeaturesRow_decodes, window_nil, ← decoded] at tabulated

theorem txFeatures_upsert_decodes :
    (storage.upsertTxFeatures sampleFeatures).txFeatures.rows = [sampleFeatures] := by
  have tabulated := (TablesConsistent.run {} (decodes count ++
    [.upsertTxFeatures sampleFeatures])).txFeatures.rows
  rw [List.filterMap_append, filterMap_txFeaturesRow_decodes,
    InMemoryStorage.mutateAll_concat, ← decoded] at tabulated
  exact tabulated

/-- Once the revision is saturated, the views built at it stay. -/
theorem not_servesFresh_of_saturated (saturates : u64Max ≤ count * 2) :
    ¬ ServesFresh ((InMemoryVizProvider.new (InMemoryStorage.withConfig {}) 1).run
      (frozenRun count)) := by
  intro fresh
  have revision := readModelRevision_decodes decoded saturates
  have moved : (storage.upsertTxFeatures sampleFeatures).readModelRevision = u64Max := by
    have bumped := readModelRevision_mutate storage (.upsertTxFeatures sampleFeatures)
    rw [revision] at bumped
    exact bumped
  rw [frozenRun, InMemoryVizProvider.run_append, InMemoryVizProvider.run_mutations] at fresh
  have still : (storage.mutate (.upsertTxFeatures sampleFeatures)).readModelRevision =
      storage.readModelRevision := moved.trans revision.symm
  have same := views_eq_of_servesFresh .increasing still (decoded ▸ fresh)
  have details : buildFeatureDetails storage =
      buildFeatureDetails (storage.upsertTxFeatures sampleFeatures) :=
    congrArg DashboardViews.featureDetails same
  rw [buildFeatureDetails, buildFeatureDetails, txFeatures_decodes decoded,
    txFeatures_upsert_decodes decoded] at details
  simp [buildFeatureDetailsLoop] at details

end Frozen

/-- **A saturated revision freezes the dashboard.** After `2 ^ 63` appended decodes a read builds
the views at the last revision, and a feature row written after it never shows. -/
theorem saturatedRevision_stale :
    mutationCount (frozenRun (2 ^ 63)) < 2 ^ 64 ∧
      ¬ ServesFresh ((InMemoryVizProvider.new (InMemoryStorage.withConfig {}) 1).run
        (frozenRun (2 ^ 63))) := by
  refine ⟨?_, not_servesFresh_of_saturated rfl (by decide)⟩
  rw [mutationCount_frozenRun]
  decide

end Mempulse.Dashboard
