import Mempulse.Library.TreeMaps
import Mempulse.Library.Window
import Mempulse.Storage.InMemory

/-!
# Hash-indexed tables

A hash-indexed table counts the rows of each hash and knows the last one, and forgets a hash with
its last row. Both are kept up as rows come and go, never recomputed; they are those of the rows
retained all the same (`HashIndexed.Indexes`), and the rows retained are the last of all that were
written (`HashIndexed.Tabulates`). The feature table keeps a third count beside these, by protocol
and category, of the rows its lookup holds (`Summarises`).
-/

set_option autoImplicit false

namespace Mempulse.Storage

open Std EventLog Library Scheduler

/-- A count as the tables hold it: a hash or a bucket without rows has no count. -/
def countEntry (count : Nat) : Option Nat := if count = 0 then none else some count

@[simp] theorem countEntry_zero : countEntry 0 = none := rfl

@[simp] theorem countEntry_succ (count : Nat) : countEntry (count + 1) = some (count + 1) := rfl

theorem getD_countEntry (count : Nat) : (countEntry count).getD 0 = count := by
  cases count <;> rfl

namespace HashIndexed

variable {Row : Type} {hashOf : Row → TxHash}

/-- The table with one more row, before any leaves. -/
def pushed (table : HashIndexed Row) (value : Row) (hashOf : Row → TxHash) : HashIndexed Row where
  rows := table.rows ++ [value]
  counts := table.counts.insert (hashOf value) ((table.counts[hashOf value]?).getD 0 + 1)
  lookup := table.lookup.insert (hashOf value) value

/-- The counts and the lookup are those of a list of rows. -/
structure Indexes (hashOf : Row → TxHash) (rows : List Row) (table : HashIndexed Row) : Prop where
  counts : ∀ hash, table.counts[hash]? = countEntry (occurrences hashOf hash rows)
  lookup : ∀ hash, table.lookup[hash]? = latest hashOf hash rows

theorem Indexes.empty : Indexes hashOf [] {} := ⟨fun _ => by simp, fun _ => by simp⟩

theorem Indexes.pushed {rows : List Row} {table : HashIndexed Row} (indexes : Indexes hashOf rows table)
    (value : Row) : Indexes hashOf (rows ++ [value]) (table.pushed value hashOf) where
  counts := by
    intro hash
    rw [HashIndexed.pushed, getElem?_insert_eq, indexes.counts, indexes.counts, getD_countEntry,
      occurrences_concat]
    split
    case isTrue same => rw [same, countEntry_succ]
    case isFalse => rw [Nat.add_zero]
  lookup := by
    intro hash
    rw [HashIndexed.pushed, getElem?_insert_eq, indexes.lookup, latest_concat]

/-- The first row leaves: its hash goes with it when it has no other. -/
theorem Indexes.release {row : Row} {rest : List Row} {table : HashIndexed Row}
    (indexes : Indexes hashOf (row :: rest) table) :
    Indexes hashOf rest (table.release (hashOf row)) := by
  have counted : table.counts[hashOf row]? = some (occurrences hashOf (hashOf row) rest + 1) := by
    rw [indexes.counts, occurrences_cons, if_pos rfl, countEntry_succ]
  have others : ∀ hash, hashOf row ≠ hash → table.counts[hash]? = countEntry (occurrences hashOf hash rest) ∧
      table.lookup[hash]? = latest hashOf hash rest := by
    intro hash differs
    rw [indexes.counts, indexes.lookup, occurrences_cons, if_neg differs, Nat.add_zero,
      latest_cons_of_ne _ _ _ differs]
    exact ⟨rfl, rfl⟩
  unfold HashIndexed.release
  rw [counted]
  dsimp only
  rw [Nat.add_sub_cancel]
  split
  case isTrue last =>
    refine ⟨fun hash => ?_, fun hash => ?_⟩
    · rw [getElem?_erase_eq]
      split
      case isTrue same => rw [← same, last, countEntry_zero]
      case isFalse differs => exact (others hash differs).1
    · rw [getElem?_erase_eq]
      split
      case isTrue same =>
        rw [← same, eq_comm, latest_eq_none_iff, ← occurrences_eq_zero_iff, last]
      case isFalse differs => exact (others hash differs).2
  case isFalse more =>
    have present : hashOf row ∈ rest.map hashOf :=
      not_not.mp fun absent => more ((occurrences_eq_zero_iff _ _).mpr absent)
    refine ⟨fun hash => ?_, fun hash => ?_⟩
    · rw [getElem?_insert_eq]
      split
      case isTrue same => rw [← same, countEntry, if_neg more]
      case isFalse differs => exact (others hash differs).1
    · by_cases same : hashOf row = hash
      · rw [← same, indexes.lookup, ← latest_append_of_mem hashOf _ [row] present]
        rfl
      · exact (others hash same).2

/-- What is left when rows have left from the front. -/
theorem Indexes.evict (capacity : Nat) {rows : List Row} {table : HashIndexed Row}
    (indexes : Indexes hashOf rows table) :
    Indexes hashOf (window capacity rows) (table.evict hashOf capacity rows) ∧
      (table.evict hashOf capacity rows).rows = window capacity rows := by
  induction rows generalizing table with
  | nil =>
      rw [window_nil]
      exact ⟨⟨indexes.counts, indexes.lookup⟩, rfl⟩
  | cons row rest ih =>
      rw [HashIndexed.evict]
      split
      case isTrue full =>
        rw [window_cons_of_lt full]
        exact ih indexes.release
      case isFalse fits =>
        rw [window_of_le (Nat.le_of_not_lt fits)]
        exact ⟨⟨indexes.counts, indexes.lookup⟩, rfl⟩

/-- A table of everything that was written: it keeps the last rows, counts them by hash, and looks
up the row written last among those of a hash it keeps. -/
structure Tabulates (capacity : Nat) (hashOf : Row → TxHash) (written : List Row)
    (table : HashIndexed Row) : Prop where
  rows : table.rows = window capacity written
  counts : ∀ hash, table.counts[hash]? = countEntry (occurrences hashOf hash table.rows)
  lookup : ∀ hash, table.lookup[hash]? =
    if hash ∈ table.rows.map hashOf then latest hashOf hash written else none

theorem Tabulates.empty {capacity : Nat} : Tabulates capacity hashOf [] {} :=
  ⟨(window_nil capacity).symm, fun _ => by simp, fun _ => by simp⟩

theorem Tabulates.indexes {capacity : Nat} {written : List Row} {table : HashIndexed Row}
    (tabulates : Tabulates capacity hashOf written table) : Indexes hashOf table.rows table where
  counts := tabulates.counts
  lookup := by
    intro hash
    rw [tabulates.lookup]
    split
    case isTrue present =>
      rw [tabulates.rows] at present ⊢
      exact (latest_window _ _ present).symm
    case isFalse absent => exact ((latest_eq_none_iff _ _).mpr absent).symm

theorem Indexes.tabulates {capacity : Nat} {written : List Row} {table : HashIndexed Row}
    (indexes : Indexes hashOf table.rows table) (rows : table.rows = window capacity written) :
    Tabulates capacity hashOf written table where
  rows := rows
  counts := indexes.counts
  lookup := by
    intro hash
    rw [indexes.lookup]
    split
    case isTrue present =>
      rw [rows] at present ⊢
      exact latest_window _ _ present
    case isFalse absent => exact (latest_eq_none_iff _ _).mpr absent

/-- The rows a push leaves. -/
theorem Tabulates.rows_pushed {capacity : Nat} {written : List Row} {table : HashIndexed Row}
    (tabulates : Tabulates capacity hashOf written table) (value : Row) :
    window capacity (table.pushed value hashOf).rows = window capacity (written ++ [value]) := by
  rw [HashIndexed.pushed, tabulates.rows, window_window_append]

/-- **One push.** -/
theorem Tabulates.push {capacity : Nat} {written : List Row} {table : HashIndexed Row}
    (tabulates : Tabulates capacity hashOf written table) (value : Row) :
    Tabulates capacity hashOf (written ++ [value])
      (pushBoundedHashIndexed table value capacity hashOf) := by
  have left := (tabulates.indexes.pushed value).evict capacity
  refine Indexes.tabulates ?_ ?_
  · have rows := left.2
    rw [← rows] at left
    exact left.1
  · exact left.2.trans (tabulates.rows_pushed value)

end HashIndexed

/-! ## The feature summary -/

/-- The bucket of a feature row. -/
abbrev TxFeaturesRecord.bucket (record : TxFeaturesRecord) : String × String :=
  (record.protocol, record.category)

/-- How much a row weighs in a bucket. -/
def bucketWeight (bucket : String × String) (record : TxFeaturesRecord) : Nat :=
  if record.bucket = bucket then 1 else 0

/-- The number of hashes a lookup holds in a bucket. -/
def bucketSize (bucket : String × String) (lookup : ExtTreeMap TxHash TxFeaturesRecord) : Nat :=
  weightOf (fun _ record => bucketWeight bucket record) lookup

/-- Every bucket counts the hashes whose looked-up row is in it. -/
def Summarises (summary : FeatureSummaryCounts) (lookup : ExtTreeMap TxHash TxFeaturesRecord) :
    Prop :=
  ∀ bucket, summary[bucket]? = countEntry (bucketSize bucket lookup)

section Summary

open InMemoryStorage

instance lawfulEqCmp_summaryKey : LawfulEqCmp (compareLex (compareOn Prod.fst) (compareOn Prod.snd) :
    String × String → String × String → Ordering) where
  eq_of_compare := by
    rintro ⟨first, second⟩ ⟨other, another⟩ same
    obtain ⟨sameFirst, sameSecond⟩ := Ordering.then_eq_eq.mp same
    exact Prod.ext (Std.compare_eq_iff_eq.mp sameFirst) (Std.compare_eq_iff_eq.mp sameSecond)

theorem getElem?_incrementFeatureSummaryCount (summary : FeatureSummaryCounts)
    (protocol category : String) (bucket : String × String) :
    (incrementFeatureSummaryCount summary protocol category)[bucket]? =
      if (protocol, category) = bucket then some ((summary[bucket]?).getD 0 + 1)
      else summary[bucket]? := by
  rw [incrementFeatureSummaryCount, ExtTreeMap.getElem?_insert]
  simp only [LawfulEqCmp.compare_eq_iff_eq]
  split
  case isTrue same => rw [same]
  case isFalse => rfl

theorem getElem?_decrementFeatureSummaryCount (summary : FeatureSummaryCounts)
    (protocol category : String) (bucket : String × String) :
    (decrementFeatureSummaryCount summary protocol category)[bucket]? =
      if (protocol, category) = bucket then (summary[bucket]?).bind fun count => countEntry (count - 1)
      else summary[bucket]? := by
  unfold decrementFeatureSummaryCount
  split
  case h_1 missing =>
    split
    case isTrue same => rw [← same, missing, Option.bind_none]
    case isFalse => rfl
  case h_2 count held =>
    split
    case isTrue last =>
      rw [ExtTreeMap.getElem?_erase]
      simp only [LawfulEqCmp.compare_eq_iff_eq]
      split
      case isTrue same => rw [← same, held, Option.bind_some, last, countEntry_zero]
      case isFalse => rfl
    case isFalse more =>
      rw [ExtTreeMap.getElem?_insert]
      simp only [LawfulEqCmp.compare_eq_iff_eq]
      split
      case isTrue same => rw [← same, held, Option.bind_some, countEntry, if_neg more]
      case isFalse => rfl

variable {summary : FeatureSummaryCounts} {lookup : ExtTreeMap TxHash TxFeaturesRecord}

/-- A bucket weighs what it weighs off a hash, and the row of the hash. -/
theorem bucketSize_exchange (bucket : String × String)
    (earlier later : ExtTreeMap TxHash TxFeaturesRecord) {hash : TxHash}
    (agree : ∀ other, other ≠ hash → later[other]? = earlier[other]?) :
    bucketSize bucket later + optionWeight (bucketWeight bucket) earlier[hash]? =
      bucketSize bucket earlier + optionWeight (bucketWeight bucket) later[hash]? :=
  weightOf_exchange _ agree

theorem Summarises.erase (summarises : Summarises summary lookup) {hash : TxHash}
    {record : TxFeaturesRecord} (held : lookup[hash]? = some record) :
    Summarises (decrementFeatureSummaryCount summary record.protocol record.category)
      (lookup.erase hash) := by
  intro bucket
  have others : ∀ other, other ≠ hash → (lookup.erase hash)[other]? = lookup[other]? := by
    intro other differs
    rw [getElem?_erase_eq, if_neg (Ne.symm differs)]
  have exchange := bucketSize_exchange bucket lookup (lookup.erase hash) others
  rw [held, getElem?_erase_eq, if_pos rfl] at exchange
  simp only [optionWeight, Option.map_some, Option.map_none, Option.getD_some, Option.getD_none,
    bucketWeight] at exchange
  rw [getElem?_decrementFeatureSummaryCount, summarises]
  by_cases own : record.bucket = bucket
  · rw [if_pos own] at exchange
    rw [if_pos own, ← Nat.add_zero (bucketSize bucket lookup), ← exchange, countEntry_succ,
      Option.bind_some, Nat.add_sub_cancel]
  · rw [if_neg own] at exchange
    rw [if_neg own, ← Nat.add_zero (bucketSize bucket lookup), ← exchange, Nat.add_zero]

theorem Summarises.insert (summarises : Summarises summary lookup) {hash : TxHash}
    (fresh : lookup[hash]? = none) (record : TxFeaturesRecord) :
    Summarises (incrementFeatureSummaryCount summary record.protocol record.category)
      (lookup.insert hash record) := by
  intro bucket
  have others : ∀ other, other ≠ hash → (lookup.insert hash record)[other]? = lookup[other]? := by
    intro other differs
    rw [getElem?_insert_eq, if_neg (Ne.symm differs)]
  have exchange := bucketSize_exchange bucket lookup (lookup.insert hash record) others
  rw [fresh, getElem?_insert_eq, if_pos rfl] at exchange
  simp only [optionWeight, Option.map_some, Option.map_none, Option.getD_some, Option.getD_none,
    bucketWeight, Nat.add_zero] at exchange
  rw [getElem?_incrementFeatureSummaryCount, summarises, exchange, getD_countEntry]
  by_cases own : record.bucket = bucket
  · rw [if_pos own, if_pos own, countEntry_succ]
  · rw [if_neg own, if_neg own, Nat.add_zero]

/-- The row of a hash is replaced: its old bucket loses one, its new one gains one. -/
theorem Summarises.replace (summarises : Summarises summary lookup) (record : TxFeaturesRecord) :
    Summarises
      (incrementFeatureSummaryCount
        (match lookup[record.hash]? with
        | some previous => decrementFeatureSummaryCount summary previous.protocol previous.category
        | none => summary)
        record.protocol record.category)
      (lookup.insert record.hash record) := by
  cases held : lookup[record.hash]? with
  | none => exact summarises.insert held record
  | some previous =>
      have replaced : (lookup.erase record.hash).insert record.hash record =
          lookup.insert record.hash record := by
        apply ExtTreeMap.ext_getElem?
        intro hash
        rw [getElem?_insert_eq, getElem?_insert_eq, getElem?_erase_eq]
        split <;> rfl
      have gone : (lookup.erase record.hash)[record.hash]? = none := by
        rw [getElem?_erase_eq, if_pos rfl]
      have inserted := (summarises.erase held).insert gone record
      rwa [replaced] at inserted

/-- The first row leaves the table: with the last row of its hash its bucket loses one. -/
theorem Summarises.release {table : HashIndexed TxFeaturesRecord} {row : TxFeaturesRecord}
    {rest : List TxFeaturesRecord} (summarises : Summarises summary table.lookup)
    (indexes : HashIndexed.Indexes (·.hash) (row :: rest) table) :
    Summarises
      (match table.counts[row.hash]?, table.lookup[row.hash]? with
      | some count, some latest =>
        if count - 1 = 0 then decrementFeatureSummaryCount summary latest.protocol latest.category
        else summary
      | _, _ => summary)
      (table.release row.hash).lookup := by
  have counted : table.counts[row.hash]? = some (occurrences (·.hash) row.hash rest + 1) := by
    rw [indexes.counts, occurrences_cons, if_pos rfl, countEntry_succ]
  unfold HashIndexed.release
  cases held : table.lookup[row.hash]? with
  | none =>
      have absent := (latest_eq_none_iff _ _).mp ((indexes.lookup row.hash).symm.trans held)
      exact absurd (List.mem_map.mpr ⟨row, List.mem_cons_self, rfl⟩) absent
  | some latest =>
      rw [counted]
      dsimp only
      split
      case isTrue last => exact summarises.erase held
      case isFalse more => exact summarises

/-- Evicting feature rows evicts from the table and keeps the summary. -/
theorem evictTxFeatures_spec (capacity : Nat) {table : HashIndexed TxFeaturesRecord}
    {rows : List TxFeaturesRecord} (indexes : HashIndexed.Indexes (·.hash) rows table)
    (summarises : Summarises summary table.lookup) :
    (evictTxFeatures capacity table summary rows).1 = table.evict (·.hash) capacity rows ∧
      Summarises (evictTxFeatures capacity table summary rows).2
        (evictTxFeatures capacity table summary rows).1.lookup := by
  induction rows generalizing table summary with
  | nil => exact ⟨rfl, summarises⟩
  | cons row rest ih =>
      rw [evictTxFeatures, HashIndexed.evict]
      split
      case isTrue => exact ih indexes.release (summarises.release indexes)
      case isFalse => exact ⟨rfl, summarises⟩

/-- **One upsert of a feature row.** -/
theorem upsertTxFeatures_spec {storage : InMemoryStorage} {written : List TxFeaturesRecord}
    (tabulates : HashIndexed.Tabulates storage.config.tableCapacity (·.hash) written
      storage.txFeatures)
    (summarises : Summarises storage.featureSummaryCounts storage.txFeatures.lookup)
    (record : TxFeaturesRecord) :
    HashIndexed.Tabulates storage.config.tableCapacity (·.hash) (written ++ [record])
        (storage.upsertTxFeatures record).txFeatures ∧
      Summarises (storage.upsertTxFeatures record).featureSummaryCounts
        (storage.upsertTxFeatures record).txFeatures.lookup := by
  have spec := evictTxFeatures_spec storage.config.tableCapacity
    (tabulates.indexes.pushed record) (summarises.replace record)
  have pushes : (storage.upsertTxFeatures record).txFeatures =
      pushBoundedHashIndexed storage.txFeatures record storage.config.tableCapacity (·.hash) :=
    spec.1
  refine ⟨?_, spec.2⟩
  rw [pushes]
  exact tabulates.push record

end Summary

/-- The number of distinct hashes of a list whose latest row is in a bucket. -/
def hashesInBucket (rows : List TxFeaturesRecord) (bucket : String × String) : Nat :=
  (rows.map (·.hash)).dedup.countP fun hash =>
    (latest (·.hash) hash rows).any fun record => record.bucket = bucket

theorem bucketSize_eq_hashesInBucket {table : HashIndexed TxFeaturesRecord}
    {rows : List TxFeaturesRecord} (indexes : HashIndexed.Indexes (·.hash) rows table)
    (bucket : String × String) : bucketSize bucket table.lookup = hashesInBucket rows bucket := by
  have keys : table.lookup.keys.Perm (rows.map (·.hash)).dedup := by
    rw [List.perm_ext_iff_of_nodup (keys_nodup _) (List.nodup_dedup _)]
    intro hash
    have absent : latest (·.hash) hash rows = none ↔ hash ∉ rows.map (·.hash) :=
      latest_eq_none_iff _ _
    rw [← indexes.lookup, Option.eq_none_iff_forall_ne_some] at absent
    rw [mem_keys_iff_exists, List.mem_dedup, ← not_iff_not, ← absent, not_exists]
  rw [bucketSize, weightOf_eq_sum_keys, (keys.map _).sum_eq, hashesInBucket]
  apply sum_map_eq_countP
  intro hash
  rw [indexes.lookup]
  cases latest (·.hash) hash rows with
  | none => rfl
  | some record => simp [optionWeight, bucketWeight]

end Mempulse.Storage
