import Mempulse.Storage.EventIndex
import Mempulse.Storage.HashIndex

/-!
# Runs of storage mutations

Everything that changes the in-memory storage: an appended event and the upserts of its tables.
Each of the five hash-indexed tables takes the rows some of the mutations write to it, so after
any run it tabulates those rows (`hashIndexedTables_consistent`).
-/

set_option autoImplicit false

namespace Mempulse.Storage

open Std EventLog Library Scheduler HashIndexed

/-- The public mutators of the storage. -/
inductive StorageMutation where
  | appendEvent (event : EventEnvelope)
  | upsertTxSeen (record : TxSeenRecord)
  | upsertTxFull (record : TxFullRecord)
  | upsertTxFeatures (record : TxFeaturesRecord)
  | upsertOpportunity (record : OpportunityRecord)
  | upsertBuilderLifecycle (record : BuilderLifecycleRecord)
  | upsertTxLifecycle (record : TxLifecycleRecord)
  | upsertPeerStats (record : PeerStatsRecord)
  | writeSchedulerSnapshot (snapshot : PersistedSchedulerSnapshot)
  deriving DecidableEq

namespace InMemoryStorage

/-- The storage after a mutation. -/
def mutate (storage : InMemoryStorage) : StorageMutation → InMemoryStorage
  | .appendEvent event => storage.appendEvent event
  | .upsertTxSeen record => storage.upsertTxSeen record
  | .upsertTxFull record => storage.upsertTxFull record
  | .upsertTxFeatures record => storage.upsertTxFeatures record
  | .upsertOpportunity record => storage.upsertOpportunity record
  | .upsertBuilderLifecycle record => storage.upsertBuilderLifecycle record
  | .upsertTxLifecycle record => storage.upsertTxLifecycle record
  | .upsertPeerStats record => storage.upsertPeerStats record
  | .writeSchedulerSnapshot snapshot => storage.writeSchedulerSnapshot snapshot

/-- The storage after a list of mutations. -/
def mutateAll (storage : InMemoryStorage) (mutations : List StorageMutation) : InMemoryStorage :=
  mutations.foldl mutate storage

theorem mutateAll_concat (storage : InMemoryStorage) (mutations : List StorageMutation)
    (mutation : StorageMutation) :
    storage.mutateAll (mutations ++ [mutation]) = (storage.mutateAll mutations).mutate mutation := by
  rw [mutateAll, List.foldl_append]
  rfl

end InMemoryStorage

/-! ## The rows a mutation writes -/

/-- The recent-transaction row an event writes. -/
def recentTransaction (event : EventEnvelope) : Option RecentTransactionRecord :=
  match event.payload with
  | .txDecoded decoded =>
    some
      { hash := decoded.hash, sender := decoded.sender, nonce := decoded.nonce
        txType := decoded.txType, seenUnixMs := event.ingestTsUnixMs, sourceId := event.sourceId }
  | _ => none

namespace StorageMutation

/-- The observation a mutation stores. -/
def txSeenRow : StorageMutation → Option TxSeenRecord
  | .upsertTxSeen record => some record
  | _ => none

/-- The transaction a mutation stores. -/
def txFullRow : StorageMutation → Option TxFullRecord
  | .upsertTxFull record => some record
  | _ => none

/-- The feature row a mutation stores. -/
def txFeaturesRow : StorageMutation → Option TxFeaturesRecord
  | .upsertTxFeatures record => some record
  | _ => none

/-- The lifecycle row a mutation stores. -/
def txLifecycleRow : StorageMutation → Option TxLifecycleRecord
  | .upsertTxLifecycle record => some record
  | .appendEvent event => InMemoryStorage.lifecycleUpdate event
  | _ => none

/-- The recent transaction a mutation stores. -/
def recentRow : StorageMutation → Option RecentTransactionRecord
  | .appendEvent event => recentTransaction event
  | _ => none

end StorageMutation

/-! ## One mutation -/

/-- A table after one of its rows may have been written. -/
def pushRow {Row : Type} (table : HashIndexed Row) (capacity : Nat) (hashOf : Row → TxHash) :
    Option Row → HashIndexed Row
  | none => table
  | some row => pushBoundedHashIndexed table row capacity hashOf

theorem HashIndexed.Tabulates.pushRow {Row : Type} {capacity : Nat} {hashOf : Row → TxHash}
    {written : List Row} {table : HashIndexed Row}
    (tabulates : Tabulates capacity hashOf written table) (row : Option Row) :
    Tabulates capacity hashOf (written ++ row.toList) (pushRow table capacity hashOf row) := by
  cases row with
  | none => rwa [Option.toList_none, List.append_nil]
  | some row => exact tabulates.push row

/-- What a mutation does to the tables that share the common helper. -/
theorem tables_mutate (storage : InMemoryStorage) (mutation : StorageMutation) :
    (storage.mutate mutation).config = storage.config ∧
      (storage.mutate mutation).txSeen =
        pushRow storage.txSeen storage.config.tableCapacity (·.hash) mutation.txSeenRow ∧
      (storage.mutate mutation).txFull =
        pushRow storage.txFull storage.config.tableCapacity (·.hash) mutation.txFullRow ∧
      (storage.mutate mutation).txLifecycle =
        pushRow storage.txLifecycle storage.config.tableCapacity (·.hash) mutation.txLifecycleRow ∧
      (storage.mutate mutation).recentTx =
        pushRow storage.recentTx storage.config.recentTxCapacity (·.hash) mutation.recentRow := by
  cases mutation with
  | appendEvent event =>
      rcases event with ⟨seqId, ingestTsUnixMs, ingestTsMonoNs, sourceId, payload⟩
      cases payload <;> exact ⟨rfl, rfl, rfl, rfl, rfl⟩
  | upsertTxSeen | upsertTxFull | upsertTxFeatures | upsertOpportunity | upsertBuilderLifecycle
  | upsertTxLifecycle | upsertPeerStats | writeSchedulerSnapshot =>
      exact ⟨rfl, rfl, rfl, rfl, rfl⟩

/-- Only an upsert of a feature row touches the feature table and its summary. -/
theorem features_mutate (storage : InMemoryStorage) (mutation : StorageMutation) :
    match mutation.txFeaturesRow with
    | some record => storage.mutate mutation = storage.upsertTxFeatures record
    | none => (storage.mutate mutation).txFeatures = storage.txFeatures ∧
        (storage.mutate mutation).featureSummaryCounts = storage.featureSummaryCounts := by
  cases mutation with
  | appendEvent event =>
      rcases event with ⟨seqId, ingestTsUnixMs, ingestTsMonoNs, sourceId, payload⟩
      cases payload <;> exact ⟨rfl, rfl⟩
  | upsertTxFeatures => rfl
  | upsertTxSeen | upsertTxFull | upsertOpportunity | upsertBuilderLifecycle | upsertTxLifecycle
  | upsertPeerStats | writeSchedulerSnapshot => exact ⟨rfl, rfl⟩

/-! ## Runs -/

/-- The five hash-indexed tables of a storage after a list of mutations. -/
structure TablesConsistent (config : StorageConfig) (mutations : List StorageMutation)
    (storage : InMemoryStorage) : Prop where
  configured : storage.config = (InMemoryStorage.withConfig config).config
  txSeen : Tabulates (max config.tableCapacity 1) (·.hash) (mutations.filterMap (·.txSeenRow))
    storage.txSeen
  txFull : Tabulates (max config.tableCapacity 1) (·.hash) (mutations.filterMap (·.txFullRow))
    storage.txFull
  txFeatures : Tabulates (max config.tableCapacity 1) (·.hash)
    (mutations.filterMap (·.txFeaturesRow)) storage.txFeatures
  summary : Summarises storage.featureSummaryCounts storage.txFeatures.lookup
  txLifecycle : Tabulates (max config.tableCapacity 1) (·.hash)
    (mutations.filterMap (·.txLifecycleRow)) storage.txLifecycle
  recentTx : Tabulates (max config.recentTxCapacity 1) (·.hash)
    (mutations.filterMap (·.recentRow)) storage.recentTx

theorem TablesConsistent.start (config : StorageConfig) :
    TablesConsistent config [] (InMemoryStorage.withConfig config) where
  configured := rfl
  txSeen := .empty
  txFull := .empty
  txFeatures := .empty
  summary := fun bucket => by simp [InMemoryStorage.withConfig, bucketSize]
  txLifecycle := .empty
  recentTx := .empty

theorem filterMap_concat {α β : Type} (f : α → Option β) (elements : List α) (element : α) :
    (elements ++ [element]).filterMap f = elements.filterMap f ++ (f element).toList := by
  rw [List.filterMap_append]
  cases read : f element <;> simp [read]

/-- **What one mutation preserves.** -/
theorem TablesConsistent.step {config : StorageConfig} {mutations : List StorageMutation}
    {storage : InMemoryStorage} (consistent : TablesConsistent config mutations storage)
    (mutation : StorageMutation) :
    TablesConsistent config (mutations ++ [mutation]) (storage.mutate mutation) := by
  obtain ⟨sameConfig, txSeen, txFull, txLifecycle, recentTx⟩ := tables_mutate storage mutation
  have tableCapacity : storage.config.tableCapacity = max config.tableCapacity 1 := by
    rw [consistent.configured]
    rfl
  have recentCapacity : storage.config.recentTxCapacity = max config.recentTxCapacity 1 := by
    rw [consistent.configured]
    rfl
  have features : Tabulates (max config.tableCapacity 1) (·.hash)
        ((mutations ++ [mutation]).filterMap (·.txFeaturesRow)) (storage.mutate mutation).txFeatures ∧
      Summarises (storage.mutate mutation).featureSummaryCounts
        (storage.mutate mutation).txFeatures.lookup := by
    have frame := features_mutate storage mutation
    rw [filterMap_concat]
    cases written : mutation.txFeaturesRow with
    | none =>
        rw [written] at frame
        rw [frame.1, frame.2, Option.toList_none, List.append_nil]
        exact ⟨consistent.txFeatures, consistent.summary⟩
    | some record =>
        rw [written] at frame
        dsimp only at frame
        rw [frame, ← tableCapacity]
        exact upsertTxFeatures_spec (tableCapacity ▸ consistent.txFeatures) consistent.summary record
  refine ⟨sameConfig.trans consistent.configured, ?_, ?_, features.1, features.2, ?_, ?_⟩
  · rw [txSeen, filterMap_concat, tableCapacity]
    exact consistent.txSeen.pushRow _
  · rw [txFull, filterMap_concat, tableCapacity]
    exact consistent.txFull.pushRow _
  · rw [txLifecycle, filterMap_concat, tableCapacity]
    exact consistent.txLifecycle.pushRow _
  · rw [recentTx, filterMap_concat, recentCapacity]
    exact consistent.recentTx.pushRow _

theorem TablesConsistent.run (config : StorageConfig) (mutations : List StorageMutation) :
    TablesConsistent config mutations
      ((InMemoryStorage.withConfig config).mutateAll mutations) := by
  induction mutations using List.reverseRecOn with
  | nil => exact .start config
  | append_singleton mutations mutation ih =>
      rw [InMemoryStorage.mutateAll_concat]
      exact ih.step mutation

/-- **Hash-indexed tables stay consistent.** After every run of mutations each bounded table keeps
the last rows written to it, counts them by hash, and looks up the row written last for exactly
the hashes it keeps; and each bucket of the feature summary counts the distinct hashes whose
latest retained row is in it, without empty buckets. -/
theorem hashIndexedTables_consistent (config : StorageConfig) (mutations : List StorageMutation) :
    let storage := (InMemoryStorage.withConfig config).mutateAll mutations
    let capacity := max config.tableCapacity 1
    Tabulates capacity (·.hash) (mutations.filterMap (·.txSeenRow)) storage.txSeen ∧
      Tabulates capacity (·.hash) (mutations.filterMap (·.txFullRow)) storage.txFull ∧
      Tabulates capacity (·.hash) (mutations.filterMap (·.txFeaturesRow)) storage.txFeatures ∧
      Tabulates capacity (·.hash) (mutations.filterMap (·.txLifecycleRow)) storage.txLifecycle ∧
      Tabulates (max config.recentTxCapacity 1) (·.hash) (mutations.filterMap (·.recentRow))
        storage.recentTx ∧
      ∀ bucket, storage.featureSummaryCounts[bucket]? =
        countEntry (hashesInBucket storage.txFeatures.rows bucket) := by
  intro storage capacity
  have consistent := TablesConsistent.run config mutations
  refine ⟨consistent.txSeen, consistent.txFull, consistent.txFeatures, consistent.txLifecycle,
    consistent.recentTx, fun bucket => ?_⟩
  rw [← bucketSize_eq_hashesInBucket consistent.txFeatures.indexes]
  exact consistent.summary bucket

end Mempulse.Storage
