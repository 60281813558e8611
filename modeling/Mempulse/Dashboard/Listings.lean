import Mempulse.Dashboard.EventPages
import Mempulse.Dashboard.ReadCache
import Mempulse.Dashboard.TransactionViews
import Mempulse.Library.BoundedScan

/-!
# Listings of a chain

The listings of the dashboard can be asked for the rows of one chain. Each looks at four times its
limit of the rows of all chains and filters them afterwards, so rows of other chains can hide rows of
the chain that is asked for.
-/

set_option autoImplicit false

namespace Mempulse.Dashboard

open Std EventLog Library Scheduler Storage Replay

/-! ## Queries -/

/-- The query of the listing of transactions. -/
structure TransactionsQuery where
  limit : Option Nat := none
  minScore : Option UInt32 := none
  status : Option String := none
  chainId : Option UInt64 := none
  deriving DecidableEq

/-- The query of the snapshot. -/
structure DashboardSnapshotQuery where
  txLimit : Option Nat := none
  featureLimit : Option Nat := none
  oppLimit : Option Nat := none
  minScore : Option UInt32 := none
  chainId : Option UInt64 := none
  deriving DecidableEq

/-- `clamp`. It panics when the lower bound is above the upper one. -/
def clamp (value low high : Nat) : Nat := min (max value low) high

/-- The limit of a query: its own or a default, from one to a greatest one. -/
def limitOr (limit : Option Nat) (default greatest : Nat) : Nat := clamp (limit.getD default) 1 greatest

/-! ## Chains -/

/-- No limit a handler admits is above the upper bound. -/
def chainFilterScanLimit (limit : Nat) (chainId : Option UInt64) : Nat :=
  if chainId.isSome then clamp (saturatingMul usizeMax limit 4) limit 20000 else limit

/-- Without a filter every row matches; with one, a row without a chain does not. -/
def chainMatchesFilter (recordChainId chainIdFilter : Option UInt64) : Bool :=
  match chainIdFilter with
  | some chainId => recordChainId = some chainId
  | none => true

/-- The body three of the `filter_*_by_chain` functions share. -/
def filterByChain {Row : Type} (chainOf : Row → Option UInt64) (values : List Row)
    (chainId : Option UInt64) (limit : Nat) : List Row :=
  (values.filter fun row => chainMatchesFilter (chainOf row) chainId).take limit

/-- The feature rows of a chain, at most `limit`. -/
def filterFeatureDetailsByChain (values : List FeatureDetail) (chainId : Option UInt64)
    (limit : Nat) : List FeatureDetail :=
  filterByChain (·.chainId) values chainId limit

/-- The opportunities of a chain, at most `limit`. -/
def filterOpportunitiesByChain (values : List OpportunityDetail) (chainId : Option UInt64)
    (limit : Nat) : List OpportunityDetail :=
  filterByChain (·.chainId) values chainId limit

/-- The transactions of a chain, at most `limit`. -/
def filterTransactionDetailsByChain (values : List FullTransactionDetail) (chainId : Option UInt64)
    (limit : Nat) : List FullTransactionDetail :=
  filterByChain (·.chainId) values chainId limit

/-- A transaction's chain is looked up in its detail. One without a detail is left out. -/
def filterTransactionSummariesByChain (detailOf : String → Outcome (Option FullTransactionDetail))
    (values : List TransactionSummary) (chainId : Option UInt64) (limit : Nat) :
    Outcome (List TransactionSummary) :=
  Outcome.takeWhere (fun row =>
    if chainId.isNone then .returned true
    else
      (detailOf row.hash).map fun detail =>
        detail.any fun detail => chainMatchesFilter detail.chainId chainId) values limit

/-! ## The provider -/

/-- A recent transaction as the listing shows it. -/
def transactionSummary (row : RecentTransactionRecord) : TransactionSummary where
  hash := formatBytes row.hash
  sender := formatBytes row.sender
  nonce := row.nonce
  txType := row.txType
  seenUnixMs := row.seenUnixMs
  sourceId := row.sourceId

/-- The share of transactions without high risk, in basis points. -/
def marketSuccessRateBps (totalTxCount highRiskCount : Nat) : UInt16 :=
  if totalTxCount = 0 then 10000
  else
    let successful := totalTxCount - highRiskCount
    UInt16.ofNat (min (saturatingMul u64Max successful 10000 / totalTxCount) 10000)

/-- The market statistics as the snapshot shows them. -/
def mapMarketStats (snapshot : MarketStatsSnapshot) : MarketStats where
  totalSignalVolume := .ofNat snapshot.totalSignalVolume
  totalTxCount := .ofNat snapshot.totalTxCount
  lowRiskCount := .ofNat snapshot.lowRiskCount
  mediumRiskCount := .ofNat snapshot.mediumRiskCount
  highRiskCount := .ofNat snapshot.highRiskCount
  successRateBps := marketSuccessRateBps snapshot.totalTxCount snapshot.highRiskCount

/-- The snapshot of the dashboard, without the ingest status of the chains, which its handler takes
from the live RPC workers. -/
structure DashboardSnapshotV2 where
  revision : Nat
  latestSeqId : UInt64
  opportunities : List OpportunityDetail
  featureSummary : List FeatureSummary
  featureDetails : List FeatureDetail
  transactions : List TransactionSummary
  marketStats : MarketStats
  deriving DecidableEq

namespace InMemoryVizProvider

/-- The listing of feature rows, from the read cache. -/
def featureDetails (provider : InMemoryVizProvider) (iteration : MapIteration) (limit : Nat) :
    List FeatureDetail :=
  (provider.dashboardCacheSnapshot iteration).views.featureDetails.take (max limit 1)

/-- The listing of opportunities at or above a score, from the read cache. -/
def opportunities (provider : InMemoryVizProvider) (iteration : MapIteration) (limit : Nat)
    (minScore : UInt32) : List OpportunityDetail :=
  ((provider.dashboardCacheSnapshot iteration).views.opportunities.filter fun row =>
    minScore ≤ row.score).take limit

/-- The listing of recent transactions, from the storage. -/
def recentTransactions (provider : InMemoryVizProvider) (limit : Nat) :
    Outcome (List TransactionSummary) :=
  (provider.storage.recentTransactions limit).map (List.map transactionSummary)

/-- The snapshot is built from the storage, not from the cache. -/
def dashboardSnapshotV2 (provider : InMemoryVizProvider)
    (txLimit featureLimit oppLimit summaryLimit : Nat) (minScore : UInt32)
    (chainId : Option UInt64) : Outcome DashboardSnapshotV2 :=
  let txLimit := max txLimit 1
  let featureLimit := max featureLimit 1
  let oppLimit := max oppLimit 1
  let summaryLimit := max summaryLimit 1
  let featureScanLimit := chainFilterScanLimit featureLimit chainId
  let oppScanLimit := chainFilterScanLimit oppLimit chainId
  let txScanLimit := chainFilterScanLimit txLimit chainId
  let storage := provider.storage
  let chainIdByHash : ExtTreeMap TxHash (Option UInt64) :=
    storage.txFull.rows.foldl (fun byHash row => byHash.insert row.hash row.chainId) ∅
  (storage.recentTransactions txScanLimit).map fun recent =>
    { revision := storage.readModelRevision
      latestSeqId := storage.latestSeqId.getD 0
      opportunities := (((buildOpportunities storage).filter fun row => minScore ≤ row.score).take
        oppScanLimit |>.filter fun row => chainMatchesFilter row.chainId chainId).take oppLimit
      featureSummary := (buildFeatureSummary storage).take summaryLimit
      featureDetails := (((buildFeatureDetails storage).take featureScanLimit).filter fun row =>
        chainMatchesFilter row.chainId chainId).take featureLimit
      -- The loop stops when it has pushed as many rows as the limit, which is at least one.
      transactions := ((recent.filter fun row =>
        chainMatchesFilter (chainIdByHash[row.hash]?).join chainId).take txLimit).map
          transactionSummary
      marketStats := mapMarketStats storage.marketStats }

end InMemoryVizProvider

/-! ## The handlers -/

namespace Handlers

/-- `/features/recent`. -/
def featuresRecent (provider : InMemoryVizProvider) (iteration : MapIteration)
    (query : TransactionsQuery) : List FeatureDetail :=
  let limit := limitOr query.limit 100 5000
  let scanLimit := chainFilterScanLimit limit query.chainId
  filterFeatureDetailsByChain (provider.featureDetails iteration scanLimit) query.chainId limit

/-- The status filter of a query: its trimmed text, if that is not empty. -/
def statusFilter (query : TransactionsQuery) : Option String :=
  (query.status.map fun status => String.ofList (Library.trim status.toList)).filter fun status =>
    !status.isEmpty

/-- `/opps` and `/opps/recent`. -/
def filteredOpportunities (provider : InMemoryVizProvider) (iteration : MapIteration)
    (query : TransactionsQuery) : List OpportunityDetail :=
  let limit := limitOr query.limit 100 5000
  let minScore := query.minScore.getD 0
  let scanLimit := chainFilterScanLimit limit query.chainId
  let values := provider.opportunities iteration scanLimit minScore
  let filtered := match statusFilter query with
    | some status => values.filter fun row => eqIgnoreAsciiCase row.status status
    | none => values
  filterOpportunitiesByChain filtered query.chainId limit

/-- `/transactions`. -/
def transactions (provider : InMemoryVizProvider) (query : TransactionsQuery) :
    Outcome (List TransactionSummary) :=
  let limit := limitOr query.limit 25 200
  let scanLimit := chainFilterScanLimit limit query.chainId
  (provider.recentTransactions scanLimit).bind fun values =>
    filterTransactionSummariesByChain (transactionDetailByHash provider.storage) values query.chainId
      limit

/-- `/transactions/all`. -/
def transactionsAll (provider : InMemoryVizProvider) (query : TransactionsQuery) :
    List FullTransactionDetail :=
  let limit := limitOr query.limit 1000 5000
  let scanLimit := chainFilterScanLimit limit query.chainId
  filterTransactionDetailsByChain (transactionDetails provider.storage scanLimit) query.chainId limit

/-- `/dashboard/snapshot-v2`. -/
def dashboardSnapshotV2 (provider : InMemoryVizProvider) (downsampleLimit : Nat)
    (query : DashboardSnapshotQuery) : Outcome DashboardSnapshotV2 :=
  provider.dashboardSnapshotV2 (limitOr query.txLimit 250 500) (limitOr query.featureLimit 600 2000)
    (limitOr query.oppLimit 600 2000) (clamp downsampleLimit 1 5000) (query.minScore.getD 0)
    query.chainId

end Handlers

/-! ## Completeness -/

/-- The chain of the last full row of a transaction. -/
def fullChain (storage : InMemoryStorage) (hash : TxHash) : Option UInt64 :=
  (latest (·.hash) hash storage.txFull.rows).bind (·.chainId)

/-- The opportunities a query wants of those with its score. -/
def wantedOpportunity (query : TransactionsQuery) (row : OpportunityDetail) : Bool :=
  ((Handlers.statusFilter query).all fun status => eqIgnoreAsciiCase row.status status) &&
    chainMatchesFilter row.chainId query.chainId

/-- Each of the three lists of a snapshot has fewer rows than its limit only when it has all rows that
are retained of the chain. -/
structure SnapshotComplete (storage : InMemoryStorage) (snapshot : DashboardSnapshotQuery)
    (view : DashboardSnapshotV2) : Prop where
  features : CompleteBelow (limitOr snapshot.featureLimit 600 2000) view.featureDetails
    ((buildFeatureDetails storage).filter fun row =>
      chainMatchesFilter row.chainId snapshot.chainId)
  opportunities : CompleteBelow (limitOr snapshot.oppLimit 600 2000) view.opportunities
    (((buildOpportunities storage).filter fun row => snapshot.minScore.getD 0 ≤ row.score).filter
      fun row => chainMatchesFilter row.chainId snapshot.chainId)
  transactions : CompleteBelow (limitOr snapshot.txLimit 250 500) view.transactions
    (((newestRecent storage).filter fun row =>
      chainMatchesFilter (fullChain storage row.hash) snapshot.chainId).map transactionSummary)

/-- Each of the six listings has fewer rows than its limit only when it has all rows that are
retained of the chain. A list without a limit stands for the retained rows of its kind. -/
structure ChainListingsComplete (storage : InMemoryStorage) (replayStride : Nat)
    (iteration : MapIteration) (downsampleLimit : Nat) (query : TransactionsQuery)
    (snapshot : DashboardSnapshotQuery) : Prop where
  featuresRecent : CompleteBelow (limitOr query.limit 100 5000)
    (Handlers.featuresRecent (.new storage replayStride) iteration query)
    ((buildFeatureDetails storage).filter fun row => chainMatchesFilter row.chainId query.chainId)
  opportunities : CompleteBelow (limitOr query.limit 100 5000)
    (Handlers.filteredOpportunities (.new storage replayStride) iteration query)
    (((buildOpportunities storage).filter fun row => query.minScore.getD 0 ≤ row.score).filter
      (wantedOpportunity query))
  transactionsAll : CompleteBelow (limitOr query.limit 1000 5000)
    (Handlers.transactionsAll (.new storage replayStride) query)
    ((transactionDetails storage storage.txSeen.rows.length).filter fun row =>
      chainMatchesFilter row.chainId query.chainId)
  snapshotView : ∃ view, Handlers.dashboardSnapshotV2 (.new storage replayStride) downsampleLimit
    snapshot = .returned view ∧ SnapshotComplete storage snapshot view

/-- Each of the six listings finds enough rows of the chain where it looks, or there are none
beyond. -/
structure ChainScansSuffice (storage : InMemoryStorage) (query : TransactionsQuery)
    (snapshot : DashboardSnapshotQuery) : Prop where
  featuresRecent : ScanSuffices (fun row => chainMatchesFilter row.chainId query.chainId)
    (chainFilterScanLimit (limitOr query.limit 100 5000) query.chainId)
    (limitOr query.limit 100 5000) (buildFeatureDetails storage)
  opportunities : ScanSuffices (wantedOpportunity query)
    (chainFilterScanLimit (limitOr query.limit 100 5000) query.chainId)
    (limitOr query.limit 100 5000)
    ((buildOpportunities storage).filter fun row => query.minScore.getD 0 ≤ row.score)
  transactionsAll : ScanSuffices (fun row => chainMatchesFilter row.chainId query.chainId)
    (chainFilterScanLimit (limitOr query.limit 1000 5000) query.chainId)
    (limitOr query.limit 1000 5000) (transactionDetails storage storage.txSeen.rows.length)
  snapshotFeatures : ScanSuffices (fun row => chainMatchesFilter row.chainId snapshot.chainId)
    (chainFilterScanLimit (limitOr snapshot.featureLimit 600 2000) snapshot.chainId)
    (limitOr snapshot.featureLimit 600 2000) (buildFeatureDetails storage)
  snapshotOpportunities : ScanSuffices (fun row => chainMatchesFilter row.chainId snapshot.chainId)
    (chainFilterScanLimit (limitOr snapshot.oppLimit 600 2000) snapshot.chainId)
    (limitOr snapshot.oppLimit 600 2000)
    ((buildOpportunities storage).filter fun row => snapshot.minScore.getD 0 ≤ row.score)
  snapshotTransactions : ScanSuffices
    (fun row => chainMatchesFilter (fullChain storage row.hash) snapshot.chainId)
    (chainFilterScanLimit (limitOr snapshot.txLimit 250 500) snapshot.chainId)
    (limitOr snapshot.txLimit 250 500) (newestRecent storage)

section Limits

theorem limitOr_pos (limit : Option Nat) (default : Nat) {greatest : Nat} (some : 1 ≤ greatest) :
    1 ≤ limitOr limit default greatest := by
  unfold limitOr clamp
  omega

theorem limitOr_le (limit : Option Nat) (default greatest : Nat) :
    limitOr limit default greatest ≤ greatest := Nat.min_le_right _ _

/-- At least as many rows are looked at as can be shown. -/
theorem le_chainFilterScanLimit {limit : Nat} (admitted : limit ≤ 20000) (chainId : Option UInt64) :
    limit ≤ chainFilterScanLimit limit chainId := by
  unfold chainFilterScanLimit clamp
  split
  · omega
  · exact Nat.le_refl _

/-- The limits of the handlers are at least one, and so are their scan limits. -/
theorem max_scan_one (limit : Option Nat) (default : Nat) {greatest : Nat} (some : 1 ≤ greatest)
    (admitted : greatest ≤ 20000) (chainId : Option UInt64) :
    max (chainFilterScanLimit (limitOr limit default greatest) chainId) 1 =
      chainFilterScanLimit (limitOr limit default greatest) chainId := by
  have low := limitOr_pos limit default some
  have high := (limitOr_le limit default greatest).trans admitted
  exact Nat.max_eq_left (low.trans (le_chainFilterScanLimit high chainId))

theorem max_limitOr_one (limit : Option Nat) (default : Nat) {greatest : Nat} (some : 1 ≤ greatest) :
    max (limitOr limit default greatest) 1 = limitOr limit default greatest :=
  Nat.max_eq_left (limitOr_pos limit default some)

end Limits

section Complete

variable (storage : InMemoryStorage) (replayStride : Nat) (iteration : MapIteration)
  (downsampleLimit : Nat) (query : TransactionsQuery) (snapshot : DashboardSnapshotQuery)

/-- The full rows give a transaction the chain of its last one. -/
theorem join_chainIdByHash (hash : TxHash) :
    ((storage.txFull.rows.foldl (fun byHash row => byHash.insert row.hash row.chainId)
      (∅ : ExtTreeMap TxHash (Option UInt64)))[hash]?).join = fullChain storage hash := by
  have read : ∀ rows : List TxFullRecord,
      (rows.foldl (fun byHash row => byHash.insert row.hash row.chainId)
        (∅ : ExtTreeMap TxHash (Option UInt64)))[hash]? =
          (latest (·.hash) hash rows).map (·.chainId) := by
    intro rows
    induction rows using List.reverseRecOn with
    | nil => simp
    | append_singleton rows row ih =>
        rw [List.foldl_append, List.foldl_cons, List.foldl_nil, getElem?_insert_eq, ih, latest_concat]
        split <;> rfl
  rw [read, fullChain]
  cases latest (·.hash) hash storage.txFull.rows <;> rfl

/-- A new provider reads the views of its storage. -/
theorem views_new : ((InMemoryVizProvider.new storage replayStride).dashboardCacheSnapshot
    iteration).views = buildViews iteration storage (max replayStride 1) := by
  rw [InMemoryVizProvider.dashboardCacheSnapshot, if_pos (by simp [InMemoryVizProvider.new])]
  rfl

theorem featuresRecent_eq :
    Handlers.featuresRecent (.new storage replayStride) iteration query =
      (((buildFeatureDetails storage).take
        (chainFilterScanLimit (limitOr query.limit 100 5000) query.chainId)).filter fun row =>
          chainMatchesFilter row.chainId query.chainId).take (limitOr query.limit 100 5000) := by
  rw [Handlers.featuresRecent, InMemoryVizProvider.featureDetails, views_new,
    max_scan_one query.limit 100 (by decide) (by decide)]
  rfl

/-- The status and the chain are filters of one list. -/
theorem filteredOpportunities_eq :
    Handlers.filteredOpportunities (.new storage replayStride) iteration query =
      ((((buildOpportunities storage).filter fun row => query.minScore.getD 0 ≤ row.score).take
        (chainFilterScanLimit (limitOr query.limit 100 5000) query.chainId)).filter
          (wantedOpportunity query)).take (limitOr query.limit 100 5000) := by
  rw [Handlers.filteredOpportunities, InMemoryVizProvider.opportunities, views_new]
  change filterByChain _ _ _ _ = List.take _ (List.filter (wantedOpportunity query)
    (List.take _ (List.filter _ (buildOpportunities storage))))
  rw [filterByChain]
  congr 1
  unfold wantedOpportunity
  cases Handlers.statusFilter query with
  | none => rfl
  | some status =>
      dsimp only
      rw [List.filter_filter]
      exact List.filter_congr fun row _ => Bool.and_comm _ _

theorem transactionDetails_take {limit : Nat} (positive : max limit 1 = limit) :
    transactionDetails storage limit =
      (transactionDetails storage storage.txSeen.rows.length).take limit := by
  have short := (firstOfEach_sublist TxSeenRecord.hash storage.txSeen.rows.reverse).length_le
  rw [List.length_reverse, ← List.length_map (tableDetail storage)] at short
  rw [transactionDetails_eq, transactionDetails_eq, positive]
  congr 1
  exact (List.take_of_length_le (short.trans (Nat.le_max_left _ _))).symm

theorem transactionsAll_eq :
    Handlers.transactionsAll (.new storage replayStride) query =
      (((transactionDetails storage storage.txSeen.rows.length).take
        (chainFilterScanLimit (limitOr query.limit 1000 5000) query.chainId)).filter fun row =>
          chainMatchesFilter row.chainId query.chainId).take (limitOr query.limit 1000 5000) := by
  rw [Handlers.transactionsAll, InMemoryVizProvider.new, transactionDetails_take storage
    (max_scan_one query.limit 1000 (by decide) (by decide) query.chainId)]
  rfl

/-- There is room for the rows the handlers look at. -/
theorem recentTransactions_of_le {limit : Nat} (positive : max limit 1 = limit)
    (admitted : limit ≤ 20000) :
    storage.recentTransactions limit = .returned (storage.collectRecent limit) := by
  refine recentTransactions_eq_returned_iff.mpr ?_
  rw [positive]
  exact ⟨admitted.trans (by decide), rfl⟩

/-- No more rows are looked at than the bound of a scan. -/
theorem chainFilterScanLimit_le {limit : Nat} (admitted : limit ≤ 20000) (chainId : Option UInt64) :
    chainFilterScanLimit limit chainId ≤ 20000 := by
  unfold chainFilterScanLimit clamp
  split
  · omega
  · exact admitted

/-- The snapshot is returned, with its lists. -/
theorem dashboardSnapshotV2_lists :
    ∃ view, Handlers.dashboardSnapshotV2 (.new storage replayStride) downsampleLimit snapshot =
        .returned view ∧
      view.featureDetails =
        (((buildFeatureDetails storage).take (chainFilterScanLimit
          (limitOr snapshot.featureLimit 600 2000) snapshot.chainId)).filter fun row =>
            chainMatchesFilter row.chainId snapshot.chainId).take
              (limitOr snapshot.featureLimit 600 2000) ∧
      view.opportunities =
        ((((buildOpportunities storage).filter fun row => snapshot.minScore.getD 0 ≤ row.score).take
          (chainFilterScanLimit (limitOr snapshot.oppLimit 600 2000) snapshot.chainId)).filter
            fun row => chainMatchesFilter row.chainId snapshot.chainId).take
              (limitOr snapshot.oppLimit 600 2000) ∧
      view.transactions =
        (((storage.collectRecent (chainFilterScanLimit (limitOr snapshot.txLimit 250 500)
          snapshot.chainId)).filter fun row => chainMatchesFilter (fullChain storage row.hash)
            snapshot.chainId).take (limitOr snapshot.txLimit 250 500)).map transactionSummary := by
  have admitted := (limitOr_le snapshot.txLimit 250 500).trans (by decide : 500 ≤ 20000)
  have found := recentTransactions_of_le storage
    (max_scan_one snapshot.txLimit 250 (by decide : 1 ≤ 500) (by decide) snapshot.chainId)
    (chainFilterScanLimit_le admitted _)
  unfold Handlers.dashboardSnapshotV2 InMemoryVizProvider.dashboardSnapshotV2
  simp only [max_limitOr_one _ _ (by decide : 1 ≤ 2000), max_limitOr_one _ _ (by decide : 1 ≤ 500),
    InMemoryVizProvider.new, join_chainIdByHash, found]
  exact ⟨_, rfl, rfl, rfl, rfl⟩

end Complete

/-- A feature row of one chain, and newer ones of four transactions of another. -/
def crowdedFeatures : List StorageMutation :=
  [10, 11, 12, 13, 14].map fun hash =>
    .upsertTxFeatures
      { sampleFeatures with hash := hash, chainId := some (if hash = 10 then 8453 else 1) }

end Mempulse.Dashboard
