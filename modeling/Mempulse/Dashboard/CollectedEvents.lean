import Mempulse.Dashboard.EventPages

/-!
# Events up to a sequence id

The replay routes collect the events up to a sequence id in pages. A page ends the collection as soon as
it reaches the id; otherwise the cursor moves to its last event. When the sequence ids differ and the
events are within the scan limit, nothing is missed and nothing comes twice.
-/

set_option autoImplicit false

namespace Mempulse.Dashboard

open EventLog Storage InMemoryStorage Library

/-! ## The loop -/

/-- `PAGE_SIZE`. -/
def collectPageSize : Nat := 2000

/-- `MAX_SCAN_EVENTS`. -/
def maxScanEvents : Nat := 200000

/-- How a page ends: with the events to return, or with the cursor, the events so far, and whether the
cursor has moved. -/
inductive PageScan where
  | returned (out : List EventEnvelope)
  | passed (afterSeqId : UInt64) (out : List EventEnvelope) (progressed : Bool)
  deriving DecidableEq

/-- The loop over the events of a page. -/
def scanPage (toSeqId : UInt64) :
    UInt64 → List EventEnvelope → Bool → List EventEnvelope → PageScan
  | afterSeqId, out, progressed, [] => .passed afterSeqId out progressed
  | afterSeqId, out, progressed, event :: rest =>
    if event.seqId ≤ afterSeqId then scanPage toSeqId afterSeqId out progressed rest
    else
      let out := if event.seqId ≤ toSeqId then out ++ [event] else out
      if toSeqId ≤ event.seqId then .returned out
      else scanPage toSeqId event.seqId out true rest

/-- The loop over the pages; nothing when it may not take that many passes. -/
def collectPages (provider : VizDataProvider) (toSeqId : UInt64) :
    Nat → UInt64 → List EventEnvelope → Option (List EventEnvelope)
  | 0, _, _ => none
  | passes + 1, afterSeqId, out =>
    if out.length < maxScanEvents then
      let page := provider.events afterSeqId collectPageSize
      if page.isEmpty then some out
      else
        match scanPage toSeqId afterSeqId out false page with
        | .returned out => some out
        | .passed afterSeqId out progressed =>
          if progressed then collectPages provider toSeqId passes afterSeqId out else some out
    else some out

/-- Every event up to a sequence id, collected page by page within a number of passes. -/
def collectEventsUpToSeq (provider : VizDataProvider) (toSeqId : UInt64) (passes : Nat) :
    Option (List EventEnvelope) :=
  collectPages provider toSeqId passes 0 []

/-- The retained events up to a sequence id, each once and in order. -/
structure CollectsUpTo (storage : InMemoryStorage) (toSeqId : UInt64)
    (collected : List EventEnvelope) : Prop where
  inOrder : collected.Pairwise fun earlier later => earlier.seqId < later.seqId
  exact : ∀ event, event ∈ collected ↔
    event ∈ storage.events ∧ 1 ≤ event.seqId ∧ event.seqId ≤ toSeqId

/-! ## A page -/

section Page

variable {toSeqId afterSeqId : UInt64} {out page : List EventEnvelope}

/-- The cursor after a page. -/
def pageCursor (afterSeqId : UInt64) (page : List EventEnvelope) : UInt64 :=
  (page.getLast?.map (·.seqId)).getD afterSeqId

/-- Behind an event that reaches the target, nothing is up to the target. -/
theorem filter_eq_nil_of_reached {event : EventEnvelope} {rest : List EventEnvelope}
    (later : ∀ other ∈ rest, event.seqId.toNat < other.seqId.toNat)
    (reached : toSeqId ≤ event.seqId) :
    rest.filter (fun other => other.seqId ≤ toSeqId) = [] := by
  refine List.filter_eq_nil_iff.mpr fun other member within => ?_
  have further := later other member
  have low := UInt64.le_iff_toNat_le.mp reached
  have high := UInt64.le_iff_toNat_le.mp (of_decide_eq_true within)
  omega

/-- What a page of later events does: it returns what is up to the target, or passes with all of its
events. -/
theorem scanPage_eq
    (increasing : page.Pairwise fun left right => left.seqId.toNat < right.seqId.toNat)
    (above : ∀ event ∈ page, afterSeqId < event.seqId) (progressed : Bool) :
    scanPage toSeqId afterSeqId out progressed page =
      if ∃ event ∈ page, toSeqId ≤ event.seqId then
        .returned (out ++ page.filter fun event => event.seqId ≤ toSeqId)
      else .passed (pageCursor afterSeqId page) (out ++ page) (progressed || !page.isEmpty) := by
  induction page generalizing afterSeqId out progressed with
  | nil => simp [scanPage, pageCursor]
  | cons event rest ih =>
      obtain ⟨later, ordered⟩ := List.pairwise_cons.mp increasing
      have beyond : ¬ event.seqId ≤ afterSeqId :=
        UInt64.not_le.mpr (above event List.mem_cons_self)
      rw [scanPage, if_neg beyond]
      dsimp only
      by_cases reached : toSeqId ≤ event.seqId
      · have nothing := filter_eq_nil_of_reached later reached
        have some : ∃ other ∈ event :: rest, toSeqId ≤ other.seqId :=
          ⟨event, List.mem_cons_self, reached⟩
        rw [if_pos reached, if_pos some, List.filter_cons, nothing]
        by_cases target : event.seqId ≤ toSeqId <;> simp [target]
      · have within : event.seqId ≤ toSeqId := UInt64.le_of_lt (UInt64.not_le.mp reached)
        rw [if_neg reached, if_pos within, ih ordered fun other member =>
          UInt64.lt_iff_toNat_lt.mpr (later other member)]
        have cursor : pageCursor event.seqId rest = pageCursor afterSeqId (event :: rest) := by
          unfold pageCursor
          rw [List.getLast?_cons]
          cases rest.getLast? <;> rfl
        simp only [List.mem_cons, exists_eq_or_imp, or_iff_right reached, cursor, List.filter_cons,
          decide_eq_true within, if_true, List.append_assoc, List.singleton_append, Bool.true_or,
          List.isEmpty_cons, Bool.not_false, Bool.or_true]

variable {rows : List EventEnvelope} {count : Nat}

/-- A page that reaches the target has everything up to it. -/
theorem filter_of_reached
    (ordered : rows.Pairwise fun left right => left.seqId.toNat < right.seqId.toNat)
    (reached : ∃ event ∈ rows.take count, toSeqId ≤ event.seqId) :
    rows.filter (fun event => event.seqId ≤ toSeqId) =
      (rows.take count).filter fun event => event.seqId ≤ toSeqId := by
  obtain ⟨last, member, high⟩ := reached
  rw [← List.take_append_drop count rows] at ordered
  have beyond := filter_eq_nil_of_reached
    (fun event behind => (List.pairwise_append.mp ordered).2.2 last member event behind) high
  conv_lhs => rw [← List.take_append_drop count rows, List.filter_append, beyond, List.append_nil]

/-- A page that does not reach the target is collected whole. -/
theorem filter_of_not_reached (short : ¬ ∃ event ∈ rows.take count, toSeqId ≤ event.seqId) :
    rows.filter (fun event => event.seqId ≤ toSeqId) =
      rows.take count ++ (rows.drop count).filter fun event => event.seqId ≤ toSeqId := by
  have all : (rows.take count).filter (fun event => event.seqId ≤ toSeqId) = rows.take count := by
    refine List.filter_eq_self.mpr fun event member => decide_eq_true ?_
    exact UInt64.le_of_lt (UInt64.not_le.mp fun high => short ⟨event, member, high⟩)
  conv_lhs => rw [← List.take_append_drop count rows, List.filter_append, all]

end Page

/-! ## The pages -/

section Pages

variable {storage : InMemoryStorage}

theorem provider_events_eq (indexed : Indexed storage.eventIndex storage.events) (lookups : Lookups)
    (afterSeqId : UInt64) :
    (storageProvider storage lookups).events afterSeqId collectPageSize =
      (rowsAfter UInt64.toNat (·.seqId) storage.eventIndex afterSeqId).take collectPageSize := by
  have every : passesTypes [] = fun _ => true := rfl
  have scan : min collectPageSize (eventScanLimit collectPageSize) = collectPageSize := by decide
  rw [storageProvider_events, events_eq indexed _ _ (by decide), filteredPage, every, List.filter_true,
    List.take_take, scan]

/-- The next page starts behind the last event of this one. -/
theorem rowsAfter_pageCursor
    (increasing : storage.eventIndex.Pairwise fun left right =>
      left.seqId.toNat < right.seqId.toNat)
    {afterSeqId : UInt64} {rows : List EventEnvelope} {count : Nat}
    (left : rowsAfter UInt64.toNat (·.seqId) storage.eventIndex afterSeqId = rows)
    (some : rows.take count ≠ []) :
    rowsAfter UInt64.toNat (·.seqId) storage.eventIndex (pageCursor afterSeqId (rows.take count)) =
      rows.drop count := by
  obtain ⟨front, last, shape⟩ := (List.eq_nil_or_concat' (rows.take count)).resolve_left some
  have split : rows = front ++ last :: rows.drop count := by
    rw [List.append_cons, ← shape, List.take_append_drop]
  have cursor : pageCursor afterSeqId (rows.take count) = last.seqId := by
    rw [pageCursor, shape, List.getLast?_concat]
    rfl
  rw [cursor]
  exact rowsAfter_of_split increasing (left.trans split)

/-- **What is left is collected**, page after page. -/
theorem collectPages_eq (indexed : Indexed storage.eventIndex storage.events)
    (increasing : storage.eventIndex.Pairwise fun left right =>
      left.seqId.toNat < right.seqId.toNat)
    (lookups : Lookups) (toSeqId : UInt64) {passes : Nat} {afterSeqId : UInt64}
    {out : List EventEnvelope}
    (enough : (rowsAfter UInt64.toNat (·.seqId) storage.eventIndex afterSeqId).length < passes)
    (within : out.length +
      (rowsAfter UInt64.toNat (·.seqId) storage.eventIndex afterSeqId).length ≤ maxScanEvents) :
    collectPages (storageProvider storage lookups) toSeqId passes afterSeqId out =
      some (out ++ (rowsAfter UInt64.toNat (·.seqId) storage.eventIndex afterSeqId).filter
        fun event => event.seqId ≤ toSeqId) := by
  induction passes generalizing afterSeqId out with
  | zero => exact absurd enough (Nat.not_lt_zero _)
  | succ passes ih =>
      generalize left : rowsAfter UInt64.toNat (·.seqId) storage.eventIndex afterSeqId = rows
        at enough within
      have ordered : rows.Pairwise fun left right => left.seqId.toNat < right.seqId.toNat := by
        rw [← left]
        exact increasing.filter _
      have above : ∀ event ∈ rows, afterSeqId < event.seqId := by
        intro event member
        rw [← left] at member
        exact UInt64.lt_iff_toNat_lt.mpr (of_decide_eq_true (List.mem_filter.mp member).2)
      rw [collectPages, provider_events_eq indexed, left]
      by_cases nothing : rows = []
      · subst nothing
        simp
      have some : rows.take collectPageSize ≠ [] := by
        rw [ne_eq, List.take_eq_nil_iff]
        exact fun empty => empty.elim (by decide) nothing
      have room : out.length < maxScanEvents := by
        have := List.length_pos_of_ne_nil nothing
        omega
      rw [if_pos room]
      dsimp only
      rw [if_neg (mt List.isEmpty_iff.mp some), scanPage_eq
        (ordered.sublist (List.take_sublist _ _))
        fun event member => above event (List.mem_of_mem_take member)]
      by_cases reached : ∃ event ∈ rows.take collectPageSize, toSeqId ≤ event.seqId
      · rw [if_pos reached, filter_of_reached ordered reached]
      · have onward := rowsAfter_pageCursor increasing left some
        have count := congrArg List.length (List.take_append_drop collectPageSize rows)
        rw [List.length_append] at count
        have taken := List.length_pos_of_ne_nil some
        rw [if_neg reached]
        dsimp only
        rw [Bool.false_or, if_pos (by simpa using some), ih (by rw [onward]; omega)
          (by rw [onward, List.length_append]; omega), onward, filter_of_not_reached reached,
          List.append_assoc]

end Pages

/-- **The events up to a sequence id are collected exactly**, in every storage of at most
`MAX_SCAN_EVENTS` events with different sequence ids. -/
theorem collectEventsUpToSeq_exact (config : StorageConfig) (mutations : List StorageMutation)
    (lookups : Lookups)
    (distinct : (((InMemoryStorage.withConfig config).mutateAll mutations).events.map
      (·.seqId)).Nodup)
    (within : ((InMemoryStorage.withConfig config).mutateAll mutations).events.length ≤
      maxScanEvents) (toSeqId : UInt64) :
    let storage := (InMemoryStorage.withConfig config).mutateAll mutations
    ∃ collected, (∀ passes, storage.events.length < passes →
      collectEventsUpToSeq (storageProvider storage lookups) toSeqId passes = some collected) ∧
        CollectsUpTo storage toSeqId collected := by
  intro storage
  have indexed : Indexed storage.eventIndex storage.events :=
    InMemoryStorage.indexed_mutateAll config mutations
  have increasing := increasing_of_distinct indexed distinct
  have fewer : (rowsAfter UInt64.toNat (·.seqId) storage.eventIndex 0).length ≤
      storage.events.length := by
    rw [← indexed.perm.length_eq]
    exact List.length_filter_le _ _
  refine ⟨(rowsAfter UInt64.toNat (·.seqId) storage.eventIndex 0).filter
    fun event => event.seqId ≤ toSeqId, fun passes enough => ?_, ?_, fun event => ?_⟩
  · rw [collectEventsUpToSeq, collectPages_eq indexed increasing lookups toSeqId (by omega)
      (by rw [List.length_nil, Nat.zero_add]; exact Nat.le_trans fewer within), List.nil_append]
  · exact ((increasing.filter _).filter _).imp fun below => UInt64.lt_iff_toNat_lt.mpr below
  · rw [List.mem_filter, rowsAfter, List.mem_filter, indexed.perm.mem_iff, decide_eq_true_eq,
      decide_eq_true_eq, UInt64.le_iff_toNat_le, and_assoc]
    exact Iff.rfl

/-- The first two of the three events are collected. -/
theorem collectEventsUpToSeq_two :
    ∃ collected, (∀ passes, 3 < passes →
      collectEventsUpToSeq (storageProvider ((InMemoryStorage.withConfig {}).mutateAll seenThenReady)
        ⟨fun _ => none, ⟨0, 0, 0, 0, 0, 0⟩⟩) 2 passes = some collected) ∧
        CollectsUpTo ((InMemoryStorage.withConfig {}).mutateAll seenThenReady) 2 collected :=
  collectEventsUpToSeq_exact {} seenThenReady ⟨fun _ => none, ⟨0, 0, 0, 0, 0, 0⟩⟩ (by decide +kernel)
    (by decide +kernel) 2

end Mempulse.Dashboard
