import Mempulse.Dashboard.Listings

/-!
# Transactions of a chain

The transactions of a chain are listed by `/transactions` and in the snapshot of the dashboard. Both
take the recent transactions and look up the chain of each, the first in the transaction's detail,
which needs a row of having been seen, the second in the full rows alone. Their limits are also cut
off at different numbers.
-/

set_option autoImplicit false

namespace Mempulse.Dashboard

open Std EventLog Library Scheduler Storage

/-- `/transactions` and the snapshot are returned and list the same transactions of a chain under the
same limit. -/
def TransactionViewsAgree (storage : InMemoryStorage) (replayStride downsampleLimit : Nat)
    (query : TransactionsQuery) (snapshot : DashboardSnapshotQuery) (limit : Nat)
    (chainId : UInt64) : Prop :=
  ∃ view, Handlers.dashboardSnapshotV2 (.new storage replayStride) downsampleLimit
      { snapshot with txLimit := some limit, chainId := some chainId } = .returned view ∧
    Handlers.transactions (.new storage replayStride)
      { query with limit := some limit, chainId := some chainId } = .returned view.transactions

/-- The recent transactions the snapshot looks at, for which it looks up the chain. -/
def snapshotScan (storage : InMemoryStorage) (limit : Nat) : List RecentTransactionRecord :=
  (newestRecent storage).take (4 * clamp limit 1 500)

/-- Whether a recent row's stored transaction is of the chain. -/
def ofChain (storage : InMemoryStorage) (chainId : UInt64) (row : RecentTransactionRecord) : Bool :=
  fullChain storage row.hash = some chainId

/-- A transaction of the chain that is among the first, as many as the limit, of those looked at has
a row of having been seen; and a limit above 200 lets the snapshot show and look at no more
transactions of the chain than `/transactions` does. -/
structure TransactionsCovered (storage : InMemoryStorage) (limit : Nat) (chainId : UInt64) : Prop where
  seen : ∀ row ∈ snapshotScan storage limit, ofChain storage chainId row = true →
    ((snapshotScan storage limit).countP fun other =>
      ofChain storage chainId other && (cmpRecent other row).isLT) < clamp limit 1 500 →
    row.hash ∈ storage.txSeen.rows.map (·.hash)
  within : limit ≤ 200 ∨ (snapshotScan storage limit).countP (ofChain storage chainId) ≤ 200 ∧
    ∀ row ∈ (snapshotScan storage limit).drop 800, ofChain storage chainId row = false

section Agree

variable {storage : InMemoryStorage} {limit : Nat} {chainId : UInt64}

theorem chainFilterScanLimit_some (positive : 1 ≤ limit) (admitted : limit ≤ 5000) :
    chainFilterScanLimit limit (some chainId) = 4 * limit := by
  rw [chainFilterScanLimit, Option.isSome_some, if_pos rfl, clamp, saturatingMul, usizeMax]
  omega

/-- What `/transactions` learns of a transaction: its chain, if it was seen. -/
theorem map_chainId_detailOfHash (hash : TxHash) :
    (detailOfHash storage hash).map (·.chainId) =
      if hash ∈ storage.txSeen.rows.map (·.hash) then some (fullChain storage hash) else none := by
  rw [detailOfHash_eq, Option.map_map]
  cases known : latest (·.hash) hash storage.txSeen.rows with
  | none => rw [if_neg ((latest_eq_none_iff _ _).mp known), Option.map_none]
  | some seen =>
      obtain ⟨member, rfl⟩ := mem_of_latest _ _ known
      rw [if_pos (List.mem_map_of_mem member), Option.map_some, Function.comp_apply]
      split_ifs <;> rfl

/-- A formatted hash tells the recent transactions apart. -/
theorem map_transactionSummary_inj
    (indexes : HashIndexed.Indexes (·.hash) storage.recentTx.rows storage.recentTx)
    {rows others : List RecentTransactionRecord} (recent : ∀ row ∈ rows, row ∈ newestRecent storage)
    (alsoRecent : ∀ row ∈ others, row ∈ newestRecent storage)
    (same : rows.map transactionSummary = others.map transactionSummary) : rows = others := by
  have injective : ∀ row ∈ newestRecent storage, ∀ other ∈ newestRecent storage,
      transactionSummary row = transactionSummary other → row = other := by
    intro row member other alsoMember alike
    have hashes := formatBytes_injective (congrArg TransactionSummary.hash alike)
    rw [newestRecent_eq indexes] at member alsoMember
    exact List.inj_on_of_nodup_map (firstOfEach_nodup_keys _ _) member alsoMember hashes
  induction rows generalizing others with
  | nil => exact (List.map_eq_nil_iff.mp same.symm).symm
  | cons row rest ih =>
      cases others with
      | nil => cases same
      | cons other remaining =>
          obtain ⟨head, tail⟩ := List.cons.inj same
          rw [injective row (recent row (.head _)) other (alsoRecent other (.head _)) head,
            ih (fun row member => recent row (.tail _ member))
              (fun row member => alsoRecent row (.tail _ member)) tail]

/-- The rows of a list of recent transactions are newest rows. -/
theorem mem_newestRecent_of_mem {row : RecentTransactionRecord} {scan : Nat}
    (member : row ∈ storage.collectRecent scan) : row ∈ newestRecent storage :=
  List.mem_of_mem_take ((collectRecent_perm storage scan).mem_iff.mp member)

/-- The recent transactions of the chain that a list looks at. -/
def chainRows (storage : InMemoryStorage) (scan : Nat) (chainId : UInt64) :
    List RecentTransactionRecord :=
  (storage.collectRecent scan).filter (ofChain storage chainId)

/-- A transaction that still has a row of having been seen. -/
def wasSeen (storage : InMemoryStorage) (row : RecentTransactionRecord) : Bool :=
  row.hash ∈ storage.txSeen.rows.map (·.hash)

theorem chainRows_perm {scan : Nat} (positive : 1 ≤ scan) :
    (chainRows storage scan chainId).Perm
      (((newestRecent storage).take scan).filter (ofChain storage chainId)) := by
  have found := collectRecent_perm storage scan
  rw [Nat.max_eq_left positive] at found
  exact found.filter _

/-- The chain of a transaction is asked for by its formatted hash, so nothing panics. -/
theorem matchesChain_transactionSummary (row : RecentTransactionRecord) :
    (transactionDetailByHash storage (transactionSummary row).hash).map
        (fun detail => detail.any fun detail => chainMatchesFilter detail.chainId (some chainId)) =
      .returned (wasSeen storage row && ofChain storage chainId row) := by
  have learned := @map_chainId_detailOfHash storage row.hash
  rw [transactionSummary, transactionDetailByHash_formatBytes, Outcome.map]
  unfold wasSeen ofChain
  cases detail : detailOfHash storage row.hash with
  | none =>
      rw [detail, Option.map_none] at learned
      split_ifs at learned with known
      rw [decide_eq_false known, Bool.false_and, Option.any_none]
  | some found =>
      rw [detail, Option.map_some] at learned
      split_ifs at learned with known
      rw [decide_eq_true known, Bool.true_and, ← Option.some.inj learned]
      rfl

/-- `/transactions` shows the transactions of the chain that were seen. -/
theorem transactions_eq (replayStride : Nat) (query : TransactionsQuery) :
    Handlers.transactions (.new storage replayStride)
        { query with limit := some limit, chainId := some chainId } =
      .returned ((((chainRows storage (4 * clamp limit 1 200) chainId).filter
        (wasSeen storage)).take (clamp limit 1 200)).map transactionSummary) := by
  have scan : chainFilterScanLimit (clamp limit 1 200) (some chainId) = 4 * clamp limit 1 200 :=
    chainFilterScanLimit_some (by unfold clamp; omega) (by unfold clamp; omega)
  have found : storage.recentTransactions (4 * clamp limit 1 200) = _ :=
    recentTransactions_of_le storage (by unfold clamp; omega) (by unfold clamp; omega)
  rw [Handlers.transactions]
  change Outcome.bind (Outcome.map _ (storage.recentTransactions
    (chainFilterScanLimit (clamp limit 1 200) (some chainId)))) (fun values =>
      filterTransactionSummariesByChain (transactionDetailByHash storage) values (some chainId)
        (clamp limit 1 200)) = _
  rw [scan, found, Outcome.map, Outcome.bind, filterTransactionSummariesByChain,
    Outcome.takeWhere_map]
  simp only [Option.isNone_some, Bool.false_eq_true, if_false, matchesChain_transactionSummary]
  rw [Outcome.takeWhere_eq fun _ _ => rfl, Outcome.map, chainRows, List.filter_filter]

/-- The snapshot shows all transactions of the chain. -/
theorem snapshotTransactions_eq (replayStride downsampleLimit : Nat)
    (snapshot : DashboardSnapshotQuery) :
    ∃ view, Handlers.dashboardSnapshotV2 (.new storage replayStride) downsampleLimit
        { snapshot with txLimit := some limit, chainId := some chainId } = .returned view ∧
      view.transactions =
        ((chainRows storage (4 * clamp limit 1 500) chainId).take (clamp limit 1 500)).map
          transactionSummary := by
  have scan : chainFilterScanLimit (clamp limit 1 500) (some chainId) = 4 * clamp limit 1 500 :=
    chainFilterScanLimit_some (by unfold clamp; omega) (by unfold clamp; omega)
  obtain ⟨view, shown, -, -, lists⟩ := dashboardSnapshotV2_lists storage replayStride downsampleLimit
    { snapshot with txLimit := some limit, chainId := some chainId }
  refine ⟨view, shown, ?_⟩
  rw [lists]
  change ((List.filter _ (storage.collectRecent (chainFilterScanLimit (clamp limit 1 500)
    (some chainId)))).take (clamp limit 1 500)).map transactionSummary = _
  rw [scan]
  rfl

/-- The transactions of the chain are in one order. -/
theorem chainRows_pairwise_lt
    (indexes : HashIndexed.Indexes (·.hash) storage.recentTx.rows storage.recentTx) (scan : Nat) :
    (chainRows storage scan chainId).Pairwise fun left right => cmpRecent left right = .lt :=
  (collectRecent_pairwise_lt indexes scan).filter _

/-- The first of them are those with few before them. -/
theorem mem_take_chainRows_iff
    (indexes : HashIndexed.Indexes (·.hash) storage.recentTx.rows storage.recentTx) {scan : Nat}
    (positive : 1 ≤ scan) {row : RecentTransactionRecord} :
    row ∈ (chainRows storage scan chainId).take limit ↔
      (row ∈ (newestRecent storage).take scan ∧ ofChain storage chainId row = true) ∧
        (((newestRecent storage).take scan).countP fun other =>
          ofChain storage chainId other && (cmpRecent other row).isLT) < limit := by
  have rows := @chainRows_perm storage chainId scan positive
  rw [mem_take_iff_countP_lt (chainRows_pairwise_lt indexes scan), rows.mem_iff, List.mem_filter,
    rows.countP_eq, List.countP_filter]
  simp only [Bool.and_comm]

/-- Looking further finds no more where there are none. -/
theorem chainRows_eq_of_none_beyond
    (indexes : HashIndexed.Indexes (·.hash) storage.recentTx.rows storage.recentTx) {short long : Nat}
    (positive : 1 ≤ short) (within : short ≤ long)
    (none : ∀ row ∈ ((newestRecent storage).take long).drop short,
      ofChain storage chainId row = false) :
    chainRows storage short chainId = chainRows storage long chainId := by
  have rows : ((newestRecent storage).take long).filter (ofChain storage chainId) =
      ((newestRecent storage).take short).filter (ofChain storage chainId) := by
    have beyond : (((newestRecent storage).take long).drop short).filter (ofChain storage chainId) =
        [] := List.filter_eq_nil_iff.mpr fun row member => Bool.eq_false_iff.mp (none row member)
    conv_lhs => rw [← List.take_append_drop short ((newestRecent storage).take long)]
    rw [List.filter_append, beyond, List.append_nil, List.take_take, Nat.min_eq_left within]
  have found := @chainRows_perm storage chainId long (positive.trans within)
  rw [rows] at found
  refine List.Perm.eq_of_pairwise ?_ (chainRows_pairwise_lt indexes short)
    (chainRows_pairwise_lt indexes long) ((chainRows_perm positive).trans found.symm)
  intro left right _ _ before after
  rw [swap_eq cmpRecent, after] at before
  cases before

/-- What the snapshot shows is no more than `/transactions` may show and look at. -/
theorem within_of_lists_eq
    (indexes : HashIndexed.Indexes (·.hash) storage.recentTx.rows storage.recentTx)
    (above : 200 < limit)
    (same : ((chainRows storage 800 chainId).filter (wasSeen storage)).take 200 =
      (chainRows storage (4 * clamp limit 1 500) chainId).take (clamp limit 1 500)) :
    (snapshotScan storage limit).countP (ofChain storage chainId) ≤ 200 ∧
      ∀ row ∈ (snapshotScan storage limit).drop 800, ofChain storage chainId row = false := by
  have more : 200 < clamp limit 1 500 := by
    unfold clamp
    omega
  have rows := @chainRows_perm storage chainId (4 * clamp limit 1 500) (by omega)
  have count : (snapshotScan storage limit).countP (ofChain storage chainId) =
      (chainRows storage (4 * clamp limit 1 500) chainId).length := by
    rw [rows.length_eq, List.countP_eq_length_filter, snapshotScan]
  have few : (chainRows storage (4 * clamp limit 1 500) chainId).length ≤ 200 := by
    have lengths := congrArg List.length same
    have cut := List.length_take_le 200 ((chainRows storage 800 chainId).filter (wasSeen storage))
    rw [lengths, List.length_take] at cut
    omega
  rw [List.take_of_length_le (few.trans more.le)] at same
  refine ⟨count ▸ few, fun row member => ?_⟩
  by_contra own
  rw [Bool.not_eq_false] at own
  have scanned : row ∈ snapshotScan storage limit := List.mem_of_mem_drop member
  -- A transaction of the chain that is shown is among the first 800, so not beyond them.
  have shown : row ∈ chainRows storage (4 * clamp limit 1 500) chainId :=
    rows.mem_iff.mpr (List.mem_filter.mpr ⟨scanned, own⟩)
  rw [← same] at shown
  have early := (List.mem_filter.mp ((chainRows_perm (by decide)).mem_iff.mp
    (List.mem_filter.mp (List.mem_of_mem_take shown)).1)).1
  have distinct : (snapshotScan storage limit).Nodup := by
    rw [snapshotScan, newestRecent_eq indexes]
    exact (List.Nodup.of_map _ (firstOfEach_nodup_keys _ _)).sublist (List.take_sublist _ _)
  have front : row ∈ (snapshotScan storage limit).take 800 := by
    rw [snapshotScan, List.take_take, Nat.min_eq_left (by omega)]
    exact early
  exact List.disjoint_take_drop distinct (Nat.le_refl 800) front member

/-- The rows both views show are the same exactly when the transactions are covered. -/
theorem lists_eq_iff
    (indexes : HashIndexed.Indexes (·.hash) storage.recentTx.rows storage.recentTx) :
    ((chainRows storage (4 * clamp limit 1 200) chainId).filter (wasSeen storage)).take
        (clamp limit 1 200) =
      (chainRows storage (4 * clamp limit 1 500) chainId).take (clamp limit 1 500) ↔
    TransactionsCovered storage limit chainId := by
  have positive : 1 ≤ 4 * clamp limit 1 500 := by
    unfold clamp
    omega
  constructor
  · intro same
    constructor
    · intro row scanned own early
      have shown := (mem_take_chainRows_iff indexes positive).mpr ⟨⟨scanned, own⟩, early⟩
      rw [← same] at shown
      exact of_decide_eq_true (List.mem_filter.mp (List.mem_of_mem_take shown)).2
    · by_cases small : limit ≤ 200
      · exact .inl small
      · have cut : clamp limit 1 200 = 200 := by
          unfold clamp
          omega
        rw [cut] at same
        exact .inr (within_of_lists_eq indexes (Nat.lt_of_not_le small) same)
  · rintro ⟨seen, within⟩
    have every : ∀ row ∈ (chainRows storage (4 * clamp limit 1 500) chainId).take
        (clamp limit 1 500), wasSeen storage row = true := by
      intro row member
      obtain ⟨⟨scanned, own⟩, early⟩ := (mem_take_chainRows_iff indexes positive).mp member
      exact decide_eq_true (seen row scanned own early)
    by_cases small : limit ≤ 200
    · have same : clamp limit 1 200 = clamp limit 1 500 := by
        unfold clamp
        omega
      rw [same]
      exact take_filter_eq_take_iff.mpr every
    · obtain ⟨few, none⟩ := within.resolve_left small
      have cut : clamp limit 1 200 = 200 := by
        unfold clamp
        omega
      have more : 200 < clamp limit 1 500 := by
        unfold clamp
        omega
      have rows := @chainRows_perm storage chainId (4 * clamp limit 1 500) positive
      have short : (chainRows storage (4 * clamp limit 1 500) chainId).length ≤ 200 := by
        rw [rows.length_eq, ← List.countP_eq_length_filter]
        exact few
      rw [List.take_of_length_le (short.trans more.le)] at every ⊢
      rw [cut, chainRows_eq_of_none_beyond indexes (by decide) (by omega) none,
        List.filter_eq_self.mpr every, List.take_of_length_le short]

end Agree

/-- **The two views of a chain's transactions agree exactly when the transactions are covered**, in
every storage the mutators reach. -/
theorem transactionViewsAgree_iff (config : StorageConfig) (mutations : List StorageMutation)
    (replayStride downsampleLimit : Nat) (query : TransactionsQuery)
    (snapshot : DashboardSnapshotQuery) (limit : Nat) (chainId : UInt64) :
    let storage := (InMemoryStorage.withConfig config).mutateAll mutations
    TransactionViewsAgree storage replayStride downsampleLimit query snapshot limit chainId ↔
      TransactionsCovered storage limit chainId := by
  intro storage
  have indexes := (TablesConsistent.run config mutations).recentTx.indexes
  obtain ⟨view, shown, lists⟩ :=
    @snapshotTransactions_eq storage limit chainId replayStride downsampleLimit snapshot
  rw [TransactionViewsAgree, shown, transactions_eq, ← lists_eq_iff indexes]
  simp only [Outcome.returned.injEq, exists_eq_left', lists]
  refine ⟨fun same => ?_, congrArg _⟩
  refine map_transactionSummary_inj indexes (fun row member => ?_) (fun row member => ?_) same
  · have listed := (List.mem_filter.mp (List.mem_of_mem_take member)).1
    exact mem_newestRecent_of_mem (List.mem_filter.mp listed).1
  · exact mem_newestRecent_of_mem (List.mem_filter.mp (List.mem_of_mem_take member)).1

/-- A transaction is seen, fetched and decoded, and a second one that is seen drives out the row of
its having been seen. -/
def seenRowEvicted : List StorageMutation :=
  [.upsertTxSeen
      { hash := 10, peer := "peer", firstSeenUnixMs := 1, firstSeenMonoNs := 1, seenCount := 1 },
    .upsertTxFull
      { hash := 10, txType := 2, sender := 1, nonce := 7, toAddress := none, chainId := some 1
        valueWei := none, gasLimit := none, gasPriceWei := none, maxFeePerGasWei := none
        maxPriorityFeePerGasWei := none, maxFeePerBlobGasWei := none, calldataLen := none
        rawTx := [] },
    .appendEvent (sampleEnvelope 1 (.txDecoded (sampleValidatedTx 10 1 7 100).decoded)),
    .upsertTxSeen
      { hash := 11, peer := "peer", firstSeenUnixMs := 2, firstSeenMonoNs := 2, seenCount := 1 }]

/-- The snapshot still lists the transaction, `/transactions` no longer does. -/
theorem seenRowEvicted_not_transactionViewsAgree :
    ¬ TransactionViewsAgree
      ((InMemoryStorage.withConfig { tableCapacity := 1 }).mutateAll seenRowEvicted) 1 100 {} {} 10
        1 := by
  rintro ⟨view, shown, same⟩
  have apart : Handlers.transactions
      (.new ((InMemoryStorage.withConfig { tableCapacity := 1 }).mutateAll seenRowEvicted) 1)
        { limit := some 10, chainId := some 1 } ≠
      (Handlers.dashboardSnapshotV2
        (.new ((InMemoryStorage.withConfig { tableCapacity := 1 }).mutateAll seenRowEvicted) 1) 100
          { txLimit := some 10, chainId := some 1 }).map (·.transactions) := by
    decide +kernel
  exact apart (by rw [same, shown]; rfl)

end Mempulse.Dashboard
