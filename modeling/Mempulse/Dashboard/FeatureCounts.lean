import Mempulse.Dashboard.ReadCache
import Mempulse.Library.DistinctRows

/-!
# Counts of features

Three views count the feature rows by protocol and category. The storage keeps counters of distinct
hashes, and the details show one row of each hash, so these two agree. The summary of the dashboard
counts every retained row, also several of one hash, so it agrees with them only while no hash is
retained twice.
-/

set_option autoImplicit false

namespace Mempulse.Dashboard

open Std EventLog Library Scheduler Storage

/-! ## The counters of the storage -/

/-- Aggregated feature count of the storage. -/
structure FeatureSummaryBucket where
  protocol : String
  category : String
  count : Nat
  deriving DecidableEq

/-- Largest count first, then by name, as the summary of the dashboard. -/
def cmpFeatureSummaryBucket (left right : FeatureSummaryBucket) : Ordering :=
  (compare right.count left.count).then
    ((compare left.protocol right.protocol).then (compare left.category right.category))

/-- The largest counters of the storage, one at least. The source iterates over a hash map; the
buckets of one map differ, so the order they are sorted from does not matter. -/
def dashboardFeatureSummary (storage : InMemoryStorage) (limit : Nat) : List FeatureSummaryBucket :=
  (stableSort cmpFeatureSummaryBucket <| storage.featureSummaryCounts.toList.map fun entry =>
    { protocol := entry.1.1, category := entry.1.2, count := entry.2 }).take (max limit 1)

/-! ## Agreement -/

/-- A bucket as the listing shows it. -/
def FeatureSummaryBucket.toSummary (bucket : FeatureSummaryBucket) : FeatureSummary where
  protocol := bucket.protocol
  category := bucket.category
  count := bucket.count

/-- The count a summary has of a protocol and a category; one that is not listed has no rows. -/
def summaryCount (summary : List FeatureSummary) (protocol category : String) : Nat :=
  ((summary.find? fun row => row.protocol = protocol ∧ row.category = category).map
    (·.count)).getD 0

/-- The summary of the dashboard is that of the storage's counters, when all of them are asked for,
and both count the rows of the details. -/
structure FeatureViewsAgree (storage : InMemoryStorage) : Prop where
  summaries : ∀ limit, storage.featureSummaryCounts.size ≤ limit →
    buildFeatureSummary storage =
      (dashboardFeatureSummary storage limit).map FeatureSummaryBucket.toSummary
  details : ∀ protocol category,
    summaryCount (buildFeatureSummary storage) protocol category =
      (buildFeatureDetails storage).countP fun row =>
        row.protocol = protocol ∧ row.category = category

/-! ## Counters and summaries -/

/-- The summary of some counters. -/
def summaryOf (counts : FeatureSummaryCounts) : List FeatureSummary :=
  stableSort cmpFeatureSummary <| counts.toList.map fun entry =>
    { protocol := entry.1.1, category := entry.1.2, count := entry.2 }

section Summaries

variable {counts others : FeatureSummaryCounts}

theorem dashboardFeatureSummary_eq {storage : InMemoryStorage} {limit : Nat}
    (every : storage.featureSummaryCounts.size ≤ limit) :
    (dashboardFeatureSummary storage limit).map FeatureSummaryBucket.toSummary =
      summaryOf storage.featureSummaryCounts := by
  have short : (stableSort cmpFeatureSummaryBucket <| storage.featureSummaryCounts.toList.map
      fun entry => ({ protocol := entry.1.1, category := entry.1.2, count := entry.2 } :
        FeatureSummaryBucket)).length ≤ max limit 1 := by
    rw [(stableSort_perm _ _).length_eq, List.length_map, ExtTreeMap.length_toList]
    omega
  have sorted : ∀ buckets : List FeatureSummaryBucket,
      (stableSort cmpFeatureSummaryBucket buckets).map FeatureSummaryBucket.toSummary =
        stableSort cmpFeatureSummary (buckets.map FeatureSummaryBucket.toSummary) :=
    fun buckets => List.map_insertionSort _ _ _ _ fun _ _ _ _ => Iff.rfl
  rw [dashboardFeatureSummary, List.take_of_length_le short, sorted, List.map_map]
  rfl

theorem mem_summaryOf {row : FeatureSummary} :
    row ∈ summaryOf counts ↔ counts[(row.protocol, row.category)]? = some row.count := by
  rw [summaryOf, (stableSort_perm _ _).mem_iff, List.mem_map]
  constructor
  · rintro ⟨entry, member, rfl⟩
    exact ExtTreeMap.mem_toList_iff_getElem?_eq_some.mp member
  · intro counted
    exact ⟨((row.protocol, row.category), row.count),
      ExtTreeMap.mem_toList_iff_getElem?_eq_some.mpr counted, rfl⟩

/-- The summary has the counters. -/
theorem summaryCount_summaryOf (protocol category : String) :
    summaryCount (summaryOf counts) protocol category = (counts[(protocol, category)]?).getD 0 := by
  rw [summaryCount]
  cases found : (summaryOf counts).find? fun row =>
      row.protocol = protocol ∧ row.category = category with
  | some row =>
      have own := List.find?_some found
      obtain ⟨rfl, rfl⟩ := of_decide_eq_true own
      rw [mem_summaryOf.mp (List.mem_of_find?_eq_some found)]
      rfl
  | none =>
      cases counted : counts[(protocol, category)]? with
      | none => rfl
      | some count =>
          have absent := List.find?_eq_none.mp found ⟨protocol, category, count⟩
            (mem_summaryOf.mpr counted)
          exact absurd (decide_eq_true ⟨rfl, rfl⟩) absent

end Summaries

/-! ## The three counts -/

/-- The counters of `build_feature_summary`. -/
def rowCounts (rows : List TxFeaturesRecord) : FeatureSummaryCounts :=
  rows.foldl (fun counts feature =>
    InMemoryStorage.incrementFeatureSummaryCount counts feature.protocol feature.category) ∅

theorem getElem?_rowCounts (rows : List TxFeaturesRecord) (bucket : String × String) :
    (rowCounts rows)[bucket]? = countEntry (rows.countP fun row => row.bucket = bucket) := by
  induction rows using List.reverseRecOn with
  | nil => simp [rowCounts]
  | append_singleton rows row ih =>
      rw [rowCounts, List.foldl_append]
      change (InMemoryStorage.incrementFeatureSummaryCount (rowCounts rows) row.protocol
        row.category)[bucket]? = _
      rw [getElem?_incrementFeatureSummaryCount, ih, getD_countEntry, List.countP_append,
        List.countP_singleton]
      by_cases own : row.bucket = bucket
      · rw [if_pos own, if_pos (decide_eq_true own), countEntry_succ]
      · rw [if_neg own, if_neg (by simpa using own), Nat.add_zero]

/-- The details show the first row of each hash. -/
theorem buildFeatureDetailsLoop_eq (emitted : ExtTreeSet TxHash) (rows : List TxFeaturesRecord) :
    buildFeatureDetailsLoop emitted rows =
      ((firstOfEach (·.hash) rows).filter fun row => !emitted.contains row.hash).map
        featureDetail := by
  induction rows generalizing emitted with
  | nil => rfl
  | cons row rest ih =>
      rw [buildFeatureDetailsLoop]
      split
      case isTrue known =>
        have unmet : (!emitted.contains row.hash) = false := by rw [known, Bool.not_true]
        have shown := filter_firstOfEach_cons_of_met TxFeaturesRecord.hash
          (fun hash => !emitted.contains hash) unmet rest
        rw [ih, shown]
      case isFalse unknown =>
        have unmet : (!emitted.contains row.hash) = true := by
          rw [Bool.eq_false_iff.mpr unknown, Bool.not_false]
        have remains : ∀ hash, (!(emitted.insert row.hash).contains hash) =
            (decide (hash ≠ row.hash) && !emitted.contains hash) := by
          intro hash
          have same : (compare row.hash hash == .eq) = decide (hash = row.hash) := by
            rw [Bool.eq_iff_iff, beq_iff_eq, Std.compare_eq_iff_eq, decide_eq_true_eq, eq_comm]
          rw [ExtTreeSet.contains_insert, Bool.not_or, same, decide_not]
        have shown := filter_firstOfEach_cons_of_unmet TxFeaturesRecord.hash
          (fun hash => !emitted.contains hash) unmet remains rest
        rw [ih, shown, List.map_cons]

theorem buildFeatureDetails_eq (storage : InMemoryStorage) :
    buildFeatureDetails storage =
      (firstOfEach (·.hash) storage.txFeatures.rows.reverse).map featureDetail := by
  rw [buildFeatureDetails, buildFeatureDetailsLoop_eq, List.filter_eq_self.mpr]
  simp

theorem countP_buildFeatureDetails (storage : InMemoryStorage) (protocol category : String) :
    ((buildFeatureDetails storage).countP fun row =>
        row.protocol = protocol ∧ row.category = category) =
      (firstOfEach (·.hash) storage.txFeatures.rows.reverse).countP fun row =>
        row.bucket = (protocol, category) := by
  rw [buildFeatureDetails_eq, List.countP_map]
  apply List.countP_congr
  intro row _
  change decide (row.protocol = protocol ∧ row.category = category) = true ↔ _
  rw [decide_eq_true_iff, decide_eq_true_iff, Prod.mk.injEq]

/-- The rows of the details are the latest rows of the distinct hashes. -/
theorem countP_firstOfEach_eq_hashesInBucket (rows : List TxFeaturesRecord)
    (bucket : String × String) :
    ((firstOfEach (·.hash) rows.reverse).countP fun row => row.bucket = bucket) =
      hashesInBucket rows bucket := by
  have hashes : ((firstOfEach (·.hash) rows.reverse).map (·.hash)).Perm
      (rows.map (·.hash)).dedup := by
    rw [List.perm_ext_iff_of_nodup (firstOfEach_nodup_keys _ _) (List.nodup_dedup _)]
    intro hash
    rw [mem_map_firstOfEach, List.mem_dedup, List.map_reverse, List.mem_reverse]
  rw [hashesInBucket, ← hashes.countP_eq, List.countP_map]
  apply List.countP_congr
  intro row member
  have last := (mem_firstOfEach_reverse_iff TxFeaturesRecord.hash).mp member
  simp [last]

/-- Counting rows and counting distinct hashes agree when no hash has two rows. -/
theorem countP_eq_hashesInBucket_iff (rows : List TxFeaturesRecord) :
    (∀ bucket : String × String, (rows.countP fun row => row.bucket = bucket) =
      hashesInBucket rows bucket) ↔ (rows.map (·.hash)).Nodup := by
  have distinct : firstOfEach (·.hash) rows.reverse = rows.reverse ↔ (rows.map (·.hash)).Nodup := by
    rw [firstOfEach_eq_self_iff, List.map_reverse, List.nodup_reverse]
  rw [← distinct]
  constructor
  · intro same
    refine eq_of_sublist_of_countP_eq TxFeaturesRecord.bucket (firstOfEach_sublist _ _)
      fun bucket => ?_
    rw [countP_firstOfEach_eq_hashesInBucket, ← same, List.countP_reverse]
  · intro whole bucket
    rw [← countP_firstOfEach_eq_hashesInBucket, whole, List.countP_reverse]

/-- **The feature views agree exactly when no hash is retained twice**: after any mutations, when the
last feature rows written, as many as the capacity, have different hashes. -/
theorem featureViewsAgree_iff (config : StorageConfig) (mutations : List StorageMutation) :
    FeatureViewsAgree ((InMemoryStorage.withConfig config).mutateAll mutations) ↔
      (window (max config.tableCapacity 1)
        ((mutations.filterMap (·.txFeaturesRow)).map (·.hash))).Nodup := by
  have consistent := TablesConsistent.run config mutations
  generalize (InMemoryStorage.withConfig config).mutateAll mutations = storage at consistent
  have rows : window (max config.tableCapacity 1)
      ((mutations.filterMap (·.txFeaturesRow)).map (·.hash)) =
        storage.txFeatures.rows.map (·.hash) := by
    rw [consistent.txFeatures.rows, window, window, List.map_drop, List.length_map]
  have counters : ∀ bucket : String × String, storage.featureSummaryCounts[bucket]? =
      countEntry (hashesInBucket storage.txFeatures.rows bucket) := by
    intro bucket
    rw [← bucketSize_eq_hashesInBucket consistent.txFeatures.indexes]
    exact consistent.summary bucket
  have summary : buildFeatureSummary storage = summaryOf (rowCounts storage.txFeatures.rows) := rfl
  have details : ∀ protocol category, summaryCount (buildFeatureSummary storage) protocol category =
      storage.txFeatures.rows.countP fun row => row.bucket = (protocol, category) := by
    intro protocol category
    rw [summary, summaryCount_summaryOf, getElem?_rowCounts, getD_countEntry]
  rw [rows, ← countP_eq_hashesInBucket_iff]
  constructor
  · rintro ⟨-, agree⟩ ⟨protocol, category⟩
    have same := agree protocol category
    rwa [details, countP_buildFeatureDetails, countP_firstOfEach_eq_hashesInBucket] at same
  · intro same
    have counts : rowCounts storage.txFeatures.rows = storage.featureSummaryCounts := by
      apply ExtTreeMap.ext_getElem?
      intro bucket
      rw [getElem?_rowCounts, counters, same]
    refine ⟨fun limit every => ?_, fun protocol category => ?_⟩
    · rw [dashboardFeatureSummary_eq every, summary, counts]
    · rw [details, countP_buildFeatureDetails, countP_firstOfEach_eq_hashesInBucket, same]

/-- One hash analysed twice. -/
def analysedTwice : List StorageMutation :=
  [.upsertTxFeatures sampleFeatures,
    .upsertTxFeatures { sampleFeatures with category := "transfer" }]

/-- The summary counts both rows of a hash, of which the details show the last. -/
theorem analysedTwice_not_featureViewsAgree :
    ¬ FeatureViewsAgree ((InMemoryStorage.withConfig {}).mutateAll analysedTwice) := by
  intro agree
  have counted := agree.details sampleFeatures.protocol sampleFeatures.category
  revert counted
  decide +kernel

end Mempulse.Dashboard
