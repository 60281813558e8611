import Mempulse.Library.DistinctRows
import Mempulse.Library.Outcome
import Mempulse.Storage.Mutations

/-!
# Recent transactions

The storage lists its recent transactions in two steps: it walks back over their hashes for the
newest row of each, as many as asked for, and sorts what it found by time. So the rows of a short
list are not always those that come first in a longer one. Before it walks it makes room for as many
rows as it was asked for, however few there are.
-/

set_option autoImplicit false

namespace Mempulse.Storage

open Std EventLog Library

/-- Latest first, then by hash. -/
def cmpRecent (left right : RecentTransactionRecord) : Ordering :=
  (compare right.seenUnixMs left.seenUnixMs).then (compare left.hash right.hash)

/-- The bytes of a row: a hash, an address, two numbers, the type and a text's three words, aligned to
words. -/
def recentTransactionSize : Nat := 96

/-- The rows that are found when there is room for them, in order. -/
def InMemoryStorage.collectRecent (storage : InMemoryStorage) (target : Nat) :
    List RecentTransactionRecord :=
  stableSort cmpRecent <|
    collectFirst id ExtTreeSet.contains ExtTreeSet.insert (fun hash => storage.recentTx.lookup[hash]?)
      target (∅ : ExtTreeSet TxHash) [] (storage.recentTx.rows.map (·.hash)).reverse

/-- The list under a limit. Room is made for the limit. -/
def InMemoryStorage.recentTransactions (storage : InMemoryStorage) (limit : Nat) :
    Outcome (List RecentTransactionRecord) :=
  let target := max limit 1
  (withCapacity recentTransactionSize target).map fun _ => storage.collectRecent target

/-- The most rows there can be room for. -/
def recentRoom : Nat := isizeMax / recentTransactionSize

/-- The newest row of each recent hash, in the order in which the storage finds them. -/
def newestRecent (storage : InMemoryStorage) : List RecentTransactionRecord :=
  (firstOfEach id (storage.recentTx.rows.map (·.hash)).reverse).filterMap fun hash =>
    storage.recentTx.lookup[hash]?

/-- A set has met what was put into it. -/
theorem contains_insert_hash (met : ExtTreeSet TxHash) (hash other : TxHash) :
    (met.insert hash).contains other = (decide (other = hash) || met.contains other) := by
  have same : (compare hash other == .eq) = decide (other = hash) := by
    rw [Bool.eq_iff_iff, beq_iff_eq, Std.compare_eq_iff_eq, decide_eq_true_eq, eq_comm]
  rw [ExtTreeSet.contains_insert, same]

theorem collectRecent_eq (storage : InMemoryStorage) (target : Nat) :
    storage.collectRecent target = stableSort cmpRecent ((newestRecent storage).take (max target 1)) := by
  rw [InMemoryStorage.collectRecent, collectFirst_eq _ contains_insert_hash, List.nil_append,
    List.filter_eq_self.mpr (by simp), List.length_nil, Nat.sub_zero]
  rfl

theorem collectRecent_perm (storage : InMemoryStorage) (target : Nat) :
    (storage.collectRecent target).Perm ((newestRecent storage).take (max target 1)) := by
  rw [collectRecent_eq]
  exact stableSort_perm _ _

/-- A limit with room has its rows, and any other panics. -/
theorem recentTransactions_eq_returned_iff {storage : InMemoryStorage} {limit : Nat}
    {rows : List RecentTransactionRecord} :
    storage.recentTransactions limit = .returned rows ↔
      max limit 1 ≤ recentRoom ∧ storage.collectRecent (max limit 1) = rows := by
  have room := @withCapacity_eq_returned_iff recentTransactionSize (max limit 1) (by decide)
  rw [InMemoryStorage.recentTransactions, Outcome.map_eq_returned_iff, exists_and_right, recentRoom,
    ← room]
  exact and_congr_left fun _ => ⟨fun ⟨_, granted⟩ => granted, fun granted => ⟨(), granted⟩⟩

/-! ## Order -/

instance : TransCmp cmpRecent :=
  inferInstanceAs (TransCmp (compareLex
    (fun left right : RecentTransactionRecord => compareOn (·.seenUnixMs) right left)
    (compareOn (·.hash))))

theorem cmpRecent_eq_eq {left right : RecentTransactionRecord} (same : cmpRecent left right = .eq) :
    left.hash = right.hash := by
  simp only [cmpRecent, Ordering.then_eq_eq, Std.compare_eq_iff_eq] at same
  exact same.2

section Order

variable {storage : InMemoryStorage}
  (indexes : HashIndexed.Indexes (·.hash) storage.recentTx.rows storage.recentTx)

include indexes

/-- A table that looks up its own rows finds the newest of them. -/
theorem newestRecent_eq :
    newestRecent storage = firstOfEach (·.hash) storage.recentTx.rows.reverse := by
  rw [newestRecent, ← List.map_reverse, firstOfEach_map, List.filterMap_map]
  refine (List.filterMap_congr fun row member => ?_).trans List.filterMap_some
  rw [Function.comp_apply, indexes.lookup]
  exact (mem_firstOfEach_reverse_iff _).mp member

/-- The recent transactions have different hashes, so one order. -/
theorem collectRecent_pairwise_ne (target : Nat) :
    (storage.collectRecent target).Pairwise fun left right => left.hash ≠ right.hash := by
  have apart := (firstOfEach_pairwise RecentTransactionRecord.hash
    storage.recentTx.rows.reverse).sublist (List.take_sublist (max target 1) _)
  rw [← newestRecent_eq indexes] at apart
  exact apart.perm (collectRecent_perm storage target).symm Ne.symm

theorem collectRecent_pairwise_lt (target : Nat) :
    (storage.collectRecent target).Pairwise fun left right => cmpRecent left right = .lt := by
  have ordered : Ordered cmpRecent (storage.collectRecent target) := by
    rw [collectRecent_eq]
    exact ordered_stableSort _
  refine (ordered.and (collectRecent_pairwise_ne indexes target)).imp fun ⟨below, differ⟩ => ?_
  cases order : cmpRecent _ _ with
  | lt => rfl
  | eq => exact absurd (cmpRecent_eq_eq order) differ
  | gt =>
      rw [order] at below
      cases below

end Order

/-! ## The most recent ones -/

/-- The retained transactions, each once, in order. -/
structure ListsRecent (storage : InMemoryStorage) (rows : List RecentTransactionRecord) : Prop where
  inOrder : rows.Pairwise fun earlier later => cmpRecent earlier later = .lt
  exact : ∀ row, row ∈ rows ↔ storage.recentTx.lookup[row.hash]? = some row

/-- The list under a limit has the first of the retained transactions in order. -/
def ShowsMostRecent (storage : InMemoryStorage) (limit : Nat) : Prop :=
  ∃ rows, ListsRecent storage rows ∧
    storage.recentTransactions limit = .returned (rows.take (max limit 1))

/-- The list under a limit is a prefix of the list under another. -/
def ShowsPrefix (storage : InMemoryStorage) (short long : Nat) : Prop :=
  ∃ rows others, storage.recentTransactions short = .returned rows ∧
    storage.recentTransactions long = .returned others ∧ rows <+: others

/-- The retained transactions, the one that arrived last first. -/
def lastArrivals (storage : InMemoryStorage) : List RecentTransactionRecord :=
  firstOfEach (·.hash) storage.recentTx.rows.reverse

section MostRecent

variable {storage : InMemoryStorage}

theorem lastArrivals_nodup : ((lastArrivals storage).map (·.hash)).Nodup := firstOfEach_nodup_keys _ _

/-- The first of different transactions, sorted, are the first of the sorted ones exactly when they
come before the others. -/
theorem stableSort_take_eq_iff_lt {arrivals : List RecentTransactionRecord}
    (distinct : (arrivals.map (·.hash)).Nodup) (count : Nat) :
    stableSort cmpRecent (arrivals.take count) = (stableSort cmpRecent arrivals).take count ↔
      ∀ row ∈ arrivals.take count, ∀ other ∈ arrivals.drop count, cmpRecent row other = .lt := by
  have same : ∀ left ∈ arrivals, ∀ right ∈ arrivals, cmpRecent left right = .eq → left = right :=
    fun left member right alsoMember alike =>
      List.inj_on_of_nodup_map distinct member alsoMember (cmpRecent_eq_eq alike)
  rw [stableSort_take_eq_iff same]
  refine forall₂_congr fun row early => forall₂_congr fun other late => ?_
  cases order : cmpRecent row other with
  | lt => exact iff_of_true rfl rfl
  | eq =>
      have equal := same row (List.mem_of_mem_take early) other (List.mem_of_mem_drop late) order
      exact absurd (equal ▸ late) (List.disjoint_take_drop (.of_map _ distinct) (Nat.le_refl _) early)
  | gt => exact iff_of_false Bool.false_ne_true fun less => by cases less

variable (indexes : HashIndexed.Indexes (·.hash) storage.recentTx.rows storage.recentTx)

include indexes

theorem mem_lastArrivals_iff {row : RecentTransactionRecord} :
    row ∈ lastArrivals storage ↔ storage.recentTx.lookup[row.hash]? = some row := by
  rw [indexes.lookup]
  exact mem_firstOfEach_reverse_iff _

theorem recentTransactions_eq_stableSort_iff {limit : Nat} {rows : List RecentTransactionRecord} :
    storage.recentTransactions limit = .returned rows ↔
      max limit 1 ≤ recentRoom ∧
        stableSort cmpRecent ((lastArrivals storage).take (max limit 1)) = rows := by
  rw [recentTransactions_eq_returned_iff, collectRecent_eq, newestRecent_eq indexes, lastArrivals,
    Nat.max_eq_left (Nat.le_max_right _ _)]

/-- There is one list of all retained transactions in order. -/
theorem listsRecent_iff {rows : List RecentTransactionRecord} :
    ListsRecent storage rows ↔ rows = stableSort cmpRecent (lastArrivals storage) := by
  have sorted := stableSort_perm cmpRecent (lastArrivals storage)
  have inOrder : (stableSort cmpRecent (lastArrivals storage)).Pairwise
      fun earlier later => cmpRecent earlier later = .lt := by
    have whole := collectRecent_pairwise_lt indexes (lastArrivals storage).length
    rwa [collectRecent_eq, newestRecent_eq indexes, ← lastArrivals,
      List.take_of_length_le (Nat.le_max_left _ _)] at whole
  constructor
  · intro lists
    have asymmetric : Std.Asymm fun left right => cmpRecent left right = .lt :=
      ⟨fun left right below above => by rw [swap_eq cmpRecent, above] at below; cases below⟩
    exact lists.inOrder.eq_of_mem_iff inOrder fun row => (lists.exact row).trans <|
      (mem_lastArrivals_iff indexes).symm.trans sorted.mem_iff.symm
  · rintro rfl
    exact ⟨inOrder, fun row => sorted.mem_iff.trans (mem_lastArrivals_iff indexes)⟩

/-- A list shows the most recent transactions exactly when there is room for it and those that arrived
last are the latest. -/
theorem showsMostRecent_iff (limit : Nat) :
    ShowsMostRecent storage limit ↔
      max limit 1 ≤ recentRoom ∧ ∀ row ∈ (lastArrivals storage).take (max limit 1),
        ∀ other ∈ (lastArrivals storage).drop (max limit 1), cmpRecent row other = .lt := by
  rw [← stableSort_take_eq_iff_lt lastArrivals_nodup, ShowsMostRecent]
  simp only [listsRecent_iff indexes, exists_eq_left]
  exact recentTransactions_eq_stableSort_iff indexes

/-- Under every limit with room, that is when they arrived in order. -/
theorem showsMostRecent_forall_iff :
    (∀ limit ≤ recentRoom, ShowsMostRecent storage limit) ↔
      ((lastArrivals storage).take recentRoom).Pairwise
          (fun later earlier => cmpRecent later earlier = .lt) ∧
        ∀ row ∈ (lastArrivals storage).take recentRoom,
          ∀ other ∈ (lastArrivals storage).drop recentRoom, cmpRecent row other = .lt := by
  rw [← forall_front_iff_pairwise]
  constructor
  · intro shown count positive within
    have front := (showsMostRecent_iff indexes count).mp (shown count within)
    rw [Nat.max_eq_left positive] at front
    exact front.2
  · intro fronts limit within
    have fits : max limit 1 ≤ recentRoom := Nat.max_le.mpr ⟨within, by decide⟩
    exact (showsMostRecent_iff indexes limit).mpr
      ⟨fits, fronts (max limit 1) (Nat.lt_of_lt_of_le Nat.one_pos (Nat.le_max_right _ _)) fits⟩

/-- A smaller limit always gives a prefix of a larger one exactly when the transactions of the longest
list arrived in order. -/
theorem showsPrefix_forall_iff :
    (∀ short long, short ≤ long → long ≤ recentRoom → ShowsPrefix storage short long) ↔
      ((lastArrivals storage).take recentRoom).Pairwise
        fun later earlier => cmpRecent later earlier = .lt := by
  have distinct : (((lastArrivals storage).take recentRoom).map (·.hash)).Nodup :=
    lastArrivals_nodup.sublist ((List.take_sublist _ _).map _)
  rw [← forall_front_iff_pairwise_of_length_le (List.length_take_le recentRoom _)]
  have cut : ∀ count ≤ recentRoom, (lastArrivals storage).take count =
      ((lastArrivals storage).take recentRoom).take count := fun count within => by
    rw [List.take_take, Nat.min_eq_left within]
  constructor
  · intro nested count positive within
    obtain ⟨rows, others, first, second, inside⟩ := nested count recentRoom within (Nat.le_refl _)
    obtain ⟨-, rfl⟩ := (recentTransactions_eq_stableSort_iff indexes).mp first
    obtain ⟨-, rfl⟩ := (recentTransactions_eq_stableSort_iff indexes).mp second
    rw [Nat.max_eq_left positive, Nat.max_eq_left (by decide : 1 ≤ recentRoom), cut count within,
      List.prefix_iff_eq_take, (stableSort_perm _ _).length_eq, List.length_take] at inside
    refine (stableSort_take_eq_iff_lt distinct count).mp (inside.trans ?_)
    rw [List.take_eq_take_iff, (stableSort_perm _ _).length_eq]
    omega
  · intro inOrder short long below within
    have sorted : ∀ limit ≤ recentRoom,
        storage.recentTransactions limit = .returned
          ((stableSort cmpRecent ((lastArrivals storage).take recentRoom)).take (max limit 1)) := by
      intro limit small
      have fits : max limit 1 ≤ recentRoom := Nat.max_le.mpr ⟨small, by decide⟩
      have front := inOrder (max limit 1)
        (Nat.lt_of_lt_of_le Nat.one_pos (Nat.le_max_right _ _)) fits
      refine (recentTransactions_eq_stableSort_iff indexes).mpr ⟨fits, ?_⟩
      rw [cut _ fits]
      exact (stableSort_take_eq_iff_lt distinct _).mpr front
    exact ⟨_, _, sorted short (below.trans within), sorted long within,
      List.take_prefix_take_left (by omega)⟩

end MostRecent

/-- **The list under a limit shows the most recent transactions exactly when there is room for it and
the retained ones that arrived last are later than the others**; every limit with room does exactly
when all of them arrived in order, and a smaller limit always gives a prefix of a larger one with room
exactly when those of the longest list did. -/
theorem recentTransactions_mostRecent_iff (config : StorageConfig)
    (mutations : List StorageMutation) :
    let storage := (InMemoryStorage.withConfig config).mutateAll mutations
    (∀ limit, ShowsMostRecent storage limit ↔
      max limit 1 ≤ recentRoom ∧ ∀ row ∈ (lastArrivals storage).take (max limit 1),
        ∀ other ∈ (lastArrivals storage).drop (max limit 1), cmpRecent row other = .lt) ∧
      ((∀ limit ≤ recentRoom, ShowsMostRecent storage limit) ↔
        ((lastArrivals storage).take recentRoom).Pairwise
            (fun later earlier => cmpRecent later earlier = .lt) ∧
          ∀ row ∈ (lastArrivals storage).take recentRoom,
            ∀ other ∈ (lastArrivals storage).drop recentRoom, cmpRecent row other = .lt) ∧
      ((∀ short long, short ≤ long → long ≤ recentRoom → ShowsPrefix storage short long) ↔
        ((lastArrivals storage).take recentRoom).Pairwise
          fun later earlier => cmpRecent later earlier = .lt) := by
  intro storage
  have indexes : HashIndexed.Indexes (·.hash) storage.recentTx.rows storage.recentTx :=
    (TablesConsistent.run config mutations).recentTx.indexes
  exact ⟨showsMostRecent_iff indexes, showsMostRecent_forall_iff indexes,
    showsPrefix_forall_iff indexes⟩

/-- A transaction of a slow source arrives after a later one. -/
def slowArrival : List StorageMutation :=
  let decoded := fun hash => EventPayload.txDecoded (Scheduler.sampleValidatedTx hash 1 0 100).decoded
  [.appendEvent { sampleEnvelope 1 (decoded 10) with ingestTsUnixMs := 1700000000500 },
    .appendEvent (sampleEnvelope 2 (decoded 11))]

/-- The list of one transaction shows the one that arrived last, not the latest. -/
theorem slowArrival_shown_first :
    ¬ ∀ (config : StorageConfig) (mutations : List StorageMutation) (limit : Nat),
      ShowsMostRecent ((InMemoryStorage.withConfig config).mutateAll mutations) limit := by
  intro shown
  obtain ⟨rows, lists, first⟩ := shown {} slowArrival 1
  have listed : ((InMemoryStorage.withConfig {}).mutateAll slowArrival).recentTransactions 1 =
      .returned [⟨11, 1, 0, 2, 1700000000000, "test"⟩] := by decide +kernel
  have latest : (⟨10, 1, 0, 2, 1700000000500, "test"⟩ : RecentTransactionRecord) ∈ rows :=
    (lists.exact _).mpr (by decide +kernel)
  rw [listed] at first
  cases rows with
  | nil => cases latest
  | cons row rest =>
      obtain ⟨rfl, -⟩ := List.cons.inj (Outcome.returned.inj first)
      have below := (List.pairwise_cons.mp lists.inOrder).1 _
        ((List.mem_cons.mp latest).resolve_left (by decide))
      revert below
      decide

end Mempulse.Storage
