import Mempulse.Dashboard.Dispatch
import Mempulse.HexParsers
import Mempulse.Library.DistinctRows
import Mempulse.Storage.LifecycleProjection
import Mempulse.Storage.RecentTransactions

/-!
# Details of transactions

A transaction is shown in a list of details and by its hash. Both join the tables by hash, the list
with maps and the lookup with scans from the newest row. Only the lookup replays the events of a
transaction whose lifecycle row has left its table, so the two agree exactly where the replay of such
a transaction knows no status either.
-/

set_option autoImplicit false

namespace Mempulse.Dashboard

open Std EventLog Library Scheduler Storage Replay

/-! ## The details -/

/-- Full per-transaction detail row. The stream reads part of it, which is its `TransactionDetail`. -/
structure FullTransactionDetail where
  hash : String
  peer : PeerId
  firstSeenUnixMs : Int64
  seenCount : UInt32
  txType : Option UInt8
  sender : Option String
  /-- The source names this field `to`. -/
  toAddress : Option String
  chainId : Option UInt64
  nonce : Option UInt64
  valueWei : Option U128
  gasLimit : Option UInt64
  gasPriceWei : Option U128
  maxFeePerGasWei : Option U128
  maxPriorityFeePerGasWei : Option U128
  maxFeePerBlobGasWei : Option U128
  calldataLen : Option UInt32
  rawTxLen : Option Nat
  lifecycleStatus : Option String
  lifecycleReason : Option String
  lifecycleUpdatedUnixMs : Option Int64
  protocol : Option String
  category : Option String
  mevScore : Option UInt16
  urgencyScore : Option UInt16
  featureEngineVersion : Option String
  deriving DecidableEq

/-- What the stream reads of a detail. -/
def FullTransactionDetail.streamFields (detail : FullTransactionDetail) : TransactionDetail where
  chainId := detail.chainId
  protocol := detail.protocol
  category := detail.category
  mevScore := detail.mevScore
  urgencyScore := detail.urgencyScore
  featureEngineVersion := detail.featureEngineVersion

/-- The detail both views make of the rows of one hash. They differ in where the lifecycle comes
from. -/
def joinDetail (seen : TxSeenRecord) (full : Option TxFullRecord) (feature : Option TxFeaturesRecord)
    (lifecycleStatus lifecycleReason : Option String) (lifecycleUpdatedUnixMs : Option Int64) :
    FullTransactionDetail where
  hash := formatBytes seen.hash
  peer := seen.peer
  firstSeenUnixMs := seen.firstSeenUnixMs
  seenCount := seen.seenCount
  txType := full.map (·.txType)
  sender := full.map fun row => formatBytes row.sender
  toAddress := full.bind fun row => row.toAddress.map formatBytes
  chainId := full.bind (·.chainId)
  nonce := full.map (·.nonce)
  valueWei := full.bind (·.valueWei)
  gasLimit := full.bind (·.gasLimit)
  gasPriceWei := full.bind (·.gasPriceWei)
  maxFeePerGasWei := full.bind (·.maxFeePerGasWei)
  maxPriorityFeePerGasWei := full.bind (·.maxPriorityFeePerGasWei)
  maxFeePerBlobGasWei := full.bind (·.maxFeePerBlobGasWei)
  calldataLen := full.bind (·.calldataLen)
  rawTxLen := full.map (·.rawTx.length)
  lifecycleStatus := lifecycleStatus
  lifecycleReason := lifecycleReason
  lifecycleUpdatedUnixMs := lifecycleUpdatedUnixMs
  protocol := feature.map (·.protocol)
  category := feature.map (·.category)
  mevScore := feature.map (·.mevScore)
  urgencyScore := feature.map (·.urgencyScore)
  featureEngineVersion := feature.map (·.featureEngineVersion)

/-- The map of some rows by hash, filled in their order. -/
def mapByHash {Row : Type} (hashOf : Row → TxHash) (rows : List Row) : ExtTreeMap TxHash Row :=
  rows.foldl (fun byHash row => byHash.insert (hashOf row) row) ∅

/-- The newest row of a hash. -/
def newestRow {Row : Type} (hashOf : Row → TxHash) (rows : List Row) (hash : TxHash) : Option Row :=
  rows.reverse.find? fun row => hashOf row = hash

/-- The list of details, newest first. It pushes a row before it compares with the limit. -/
def transactionDetails (storage : InMemoryStorage) (limit : Nat) : List FullTransactionDetail :=
  let fullByHash := mapByHash (·.hash) storage.txFull.rows
  let featureByHash := mapByHash (·.hash) storage.txFeatures.rows
  let lifecycleByHash := mapByHash (·.hash) storage.txLifecycle.rows
  collectFirst (·.hash) ExtTreeSet.contains ExtTreeSet.insert
    (fun seen : TxSeenRecord =>
      let lifecycle := lifecycleByHash[seen.hash]?
      some (joinDetail seen fullByHash[seen.hash]? featureByHash[seen.hash]?
        (lifecycle.map (·.status)) (lifecycle.bind (·.reason)) (lifecycle.map (·.updatedUnixMs))))
    limit (∅ : ExtTreeSet TxHash) [] storage.txSeen.rows.reverse

/-- The lifecycle of a transaction without a row, from its events. -/
def fallbackLifecycle (storage : InMemoryStorage) (hash : TxHash) : Option String × Option String :=
  match (currentLifecycle storage.listEvents hash).map mapLifecycleStatus with
  | some (status, reason) => (some status, reason)
  | none => (none, none)

/-- The detail of the transaction of a hash, from the tables and, where the lifecycle row has gone, from
its events. -/
def detailOfHash (storage : InMemoryStorage) (hash : TxHash) : Option FullTransactionDetail := do
  let seen ← newestRow (·.hash) storage.txSeen.rows hash
  let full := newestRow (·.hash) storage.txFull.rows hash
  let feature := newestRow (·.hash) storage.txFeatures.rows hash
  let lifecycle := newestRow (·.hash) storage.txLifecycle.rows hash
  let (lifecycleStatus, lifecycleReason) :=
    match lifecycle with
    | some row => (some row.status, row.reason)
    | none => fallbackLifecycle storage hash
  return joinDetail seen full feature lifecycleStatus lifecycleReason
    (lifecycle.map (·.updatedUnixMs))

/-- The detail of the transaction whose hash a text spells. A text that is no hash has none, and one
on which the parser panics ends the lookup. -/
def transactionDetailByHash (storage : InMemoryStorage) (hash : String) :
    Outcome (Option FullTransactionDetail) :=
  (LiveRpc.Slicing.parseFixedHex 32 hash).map fun parsed =>
    parsed.bind fun bytes => detailOfHash storage (LiveRpc.hashOfBytes bytes)

/-! ## Agreement -/

/-- Each listed detail is the detail of its hash, and the hashes that have one are those a long
enough list has. -/
structure DetailViewsAgree (storage : InMemoryStorage) : Prop where
  listed : ∀ limit, ∀ detail ∈ transactionDetails storage limit,
    transactionDetailByHash storage detail.hash = .returned (some detail)
  exact : ∀ hash : TxHash,
    (∃ detail, transactionDetailByHash storage (formatBytes hash) = .returned (some detail)) ↔
    ∃ enough, ∀ limit, enough ≤ limit →
      ∃ detail ∈ transactionDetails storage limit, detail.hash = formatBytes hash

/-! ## Hashes in texts -/

theorem formatBytes_injective {hash other : TxHash} (same : formatBytes hash = formatBytes other) :
    hash = other :=
  LiveRpc.hexText_injective same

/-! ## Both views take the latest rows -/

section Views

variable {storage : InMemoryStorage}

theorem getElem?_mapByHash {Row : Type} (hashOf : Row → TxHash) (rows : List Row) (hash : TxHash) :
    (mapByHash hashOf rows)[hash]? = latest hashOf hash rows := by
  induction rows using List.reverseRecOn with
  | nil => simp [mapByHash]
  | append_singleton rows row ih =>
      rw [mapByHash, List.foldl_append, latest_concat, ← ih]
      exact getElem?_insert_eq _ _ _ _

theorem newestRow_eq {Row : Type} (hashOf : Row → TxHash) (rows : List Row) (hash : TxHash) :
    newestRow hashOf rows hash = latest hashOf hash rows :=
  find?_reverse_eq_latest hashOf rows hash

/-- The detail of a hash that is taken from the tables alone. -/
def tableDetail (storage : InMemoryStorage) (seen : TxSeenRecord) : FullTransactionDetail :=
  let lifecycle := latest (·.hash) seen.hash storage.txLifecycle.rows
  joinDetail seen (latest (·.hash) seen.hash storage.txFull.rows)
    (latest (·.hash) seen.hash storage.txFeatures.rows)
    (lifecycle.map (·.status)) (lifecycle.bind (·.reason)) (lifecycle.map (·.updatedUnixMs))

@[simp] theorem hash_tableDetail (storage : InMemoryStorage) (seen : TxSeenRecord) :
    (tableDetail storage seen).hash = formatBytes seen.hash := rfl

theorem transactionDetails_eq (storage : InMemoryStorage) (limit : Nat) :
    transactionDetails storage limit =
      ((firstOfEach (·.hash) storage.txSeen.rows.reverse).map (tableDetail storage)).take
        (max limit 1) := by
  rw [transactionDetails, collectFirst_eq _ contains_insert_hash, List.nil_append, List.length_nil, Nat.sub_zero,
    List.filter_eq_self.mpr (by simp)]
  simp only [getElem?_mapByHash]
  exact congrArg (List.take _) (congrFun List.filterMap_eq_map' _)

/-- A list that is long enough has every detail. -/
theorem mem_transactionDetails {limit : Nat}
    (long : (firstOfEach (·.hash) storage.txSeen.rows.reverse).length ≤ limit)
    {detail : FullTransactionDetail} : detail ∈ transactionDetails storage limit ↔
      ∃ seen ∈ firstOfEach (·.hash) storage.txSeen.rows.reverse, tableDetail storage seen = detail := by
  rw [transactionDetails_eq, List.take_of_length_le (by rw [List.length_map]; omega), List.mem_map]

/-- A formatted hash is looked up. -/
theorem transactionDetailByHash_formatBytes (storage : InMemoryStorage) (hash : TxHash) :
    transactionDetailByHash storage (formatBytes hash) = .returned (detailOfHash storage hash) := by
  rw [transactionDetailByHash, formatBytes, LiveRpc.parseFixedHex_hexText, Outcome.map,
    Option.bind_some, LiveRpc.hashOfBytes_hashBytes]

/-- The lookup differs from the tables where a transaction has no lifecycle row. -/
theorem detailOfHash_eq (storage : InMemoryStorage) (hash : TxHash) :
    detailOfHash storage hash =
      (latest (·.hash) hash storage.txSeen.rows).map fun seen =>
        if hash ∈ storage.txLifecycle.rows.map (·.hash) then tableDetail storage seen
        else
          { tableDetail storage seen with
            lifecycleStatus := (fallbackLifecycle storage hash).1
            lifecycleReason := (fallbackLifecycle storage hash).2 } := by
  rw [detailOfHash]
  simp only [newestRow_eq, Option.bind_eq_bind, Option.pure_def]
  cases known : latest (·.hash) hash storage.txSeen.rows with
  | none => rfl
  | some seen =>
      obtain rfl : seen.hash = hash := (mem_of_latest _ _ known).2
      rw [Option.bind_some, Option.map_some]
      split_ifs with present
      · cases row : latest (·.hash) seen.hash storage.txLifecycle.rows with
        | none => exact absurd present ((latest_eq_none_iff _ _).mp row)
        | some row => simp [tableDetail, row]
      · rw [(latest_eq_none_iff _ _).mpr present]
        simp [tableDetail, (latest_eq_none_iff _ _).mpr present, joinDetail]

theorem isSome_detailOfHash (storage : InMemoryStorage) (hash : TxHash) :
    (detailOfHash storage hash).isSome ↔ hash ∈ storage.txSeen.rows.map (·.hash) := by
  rw [detailOfHash_eq, Option.isSome_map, Option.isSome_iff_ne_none, ne_eq,
    latest_eq_none_iff, not_not]

/-- The hashes of the list, when nothing is cut off. -/
theorem exists_listed_iff (storage : InMemoryStorage) (hash : TxHash) :
    (∃ enough, ∀ limit, enough ≤ limit →
      ∃ detail ∈ transactionDetails storage limit, detail.hash = formatBytes hash) ↔
        hash ∈ storage.txSeen.rows.map (·.hash) := by
  rw [← List.mem_reverse, ← List.map_reverse, ← mem_map_firstOfEach]
  constructor
  · rintro ⟨enough, listed⟩
    obtain ⟨detail, member, same⟩ := listed enough (Nat.le_refl _)
    rw [transactionDetails_eq] at member
    obtain ⟨seen, first, rfl⟩ := List.mem_map.mp (List.mem_of_mem_take member)
    rw [hash_tableDetail] at same
    exact List.mem_map.mpr ⟨seen, first, formatBytes_injective same⟩
  · intro member
    obtain ⟨seen, first, rfl⟩ := List.mem_map.mp member
    exact ⟨(firstOfEach (·.hash) storage.txSeen.rows.reverse).length, fun limit long =>
      ⟨tableDetail storage seen, (mem_transactionDetails long).mpr ⟨seen, first, rfl⟩, rfl⟩⟩

theorem fallbackLifecycle_eq_none_iff (storage : InMemoryStorage) (hash : TxHash) :
    fallbackLifecycle storage hash = (none, none) ↔
      currentLifecycle storage.listEvents hash = none := by
  unfold fallbackLifecycle
  cases currentLifecycle storage.listEvents hash with
  | none => simp
  | some status => simp

/-- The lookup has the detail of the tables when the lifecycle row is there, or nothing would be
replayed. -/
theorem detailOfHash_eq_tableDetail_iff {seen : TxSeenRecord}
    (known : latest (·.hash) seen.hash storage.txSeen.rows = some seen) :
    detailOfHash storage seen.hash = some (tableDetail storage seen) ↔
      seen.hash ∈ storage.txLifecycle.rows.map (·.hash) ∨
        currentLifecycle storage.listEvents seen.hash = none := by
  rw [detailOfHash_eq, known, Option.map_some, Option.some.injEq]
  by_cases present : seen.hash ∈ storage.txLifecycle.rows.map (·.hash)
  · rw [if_pos present]
    exact iff_of_true rfl (.inl present)
  · have absent := (latest_eq_none_iff TxLifecycleRecord.hash seen.hash).mpr present
    rw [if_neg present, or_iff_right present, ← fallbackLifecycle_eq_none_iff]
    constructor
    · intro same
      have status := congrArg FullTransactionDetail.lifecycleStatus same
      have reason := congrArg FullTransactionDetail.lifecycleReason same
      apply Prod.ext
      · simpa [tableDetail, joinDetail, absent] using status
      · simpa [tableDetail, joinDetail, absent] using reason
    · intro nothing
      rw [nothing]
      simp [tableDetail, joinDetail, absent]

/-- **The list and the lookup agree exactly when no listed transaction is without its lifecycle row
while the replay of the retained events knows its status.** -/
theorem detailViewsAgree_iff (storage : InMemoryStorage) :
    DetailViewsAgree storage ↔ ∀ hash ∈ storage.txSeen.rows.map (·.hash),
      hash ∈ storage.txLifecycle.rows.map (·.hash) ∨
        currentLifecycle storage.listEvents hash = none := by
  constructor
  · rintro ⟨listed, -⟩ hash member
    rw [← List.mem_reverse, ← List.map_reverse, ← mem_map_firstOfEach] at member
    obtain ⟨seen, first, rfl⟩ := List.mem_map.mp member
    have known := (mem_firstOfEach_reverse_iff TxSeenRecord.hash).mp first
    have shown := listed _ (tableDetail storage seen)
      ((mem_transactionDetails (Nat.le_refl _)).mpr ⟨seen, first, rfl⟩)
    rw [hash_tableDetail, transactionDetailByHash_formatBytes] at shown
    exact (detailOfHash_eq_tableDetail_iff known).mp (Outcome.returned.inj shown)
  · intro covered
    refine ⟨fun limit detail member => ?_, fun hash => ?_⟩
    · rw [transactionDetails_eq] at member
      obtain ⟨seen, first, rfl⟩ := List.mem_map.mp (List.mem_of_mem_take member)
      have known := (mem_firstOfEach_reverse_iff TxSeenRecord.hash).mp first
      have retained := List.mem_map_of_mem (f := (·.hash)) (mem_of_latest _ _ known).1
      rw [hash_tableDetail, transactionDetailByHash_formatBytes]
      exact congrArg _ ((detailOfHash_eq_tableDetail_iff known).mpr (covered _ retained))
    · simp only [transactionDetailByHash_formatBytes, Outcome.returned.injEq]
      rw [← Option.isSome_iff_exists, isSome_detailOfHash, exists_listed_iff]

end Views

/-- A transaction is decoded and seen, and the lifecycle row of a second one drives out its own. -/
def lifecycleRowEvicted : List StorageMutation :=
  [.appendEvent (sampleEnvelope 1 (.txDecoded (sampleValidatedTx 10 1 7 100).decoded)),
    .appendEvent (sampleEnvelope 2 (.txDecoded (sampleValidatedTx 11 2 7 100).decoded)),
    .upsertTxSeen
      { hash := 10, peer := "peer", firstSeenUnixMs := 1, firstSeenMonoNs := 1, seenCount := 1 }]

/-- The lookup still reports the transaction as pending, the list no longer does. -/
theorem lifecycleRowEvicted_not_detailViewsAgree :
    ¬ DetailViewsAgree
      ((InMemoryStorage.withConfig { tableCapacity := 1 }).mutateAll lifecycleRowEvicted) := by
  intro agree
  have listed := agree.listed 1
  revert listed
  decide +kernel

end Mempulse.Dashboard
