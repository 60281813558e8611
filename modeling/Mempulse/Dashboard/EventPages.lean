import Mempulse.Dashboard.Producer
import Mempulse.Library.Paging
import Mempulse.Storage.Backfill

/-!
# Pages of typed events

The events of some types are read page by page. A page looks at twice its limit of the events after
the cursor and filters them afterwards, so events of other types can leave a page empty that is not
the last one.
-/

set_option autoImplicit false

namespace Mempulse.Dashboard

open EventLog Storage InMemoryStorage Library

/-! ## Types -/

/-- The name of a payload's variant. -/
def eventPayloadType : EventPayload → String
  | .txSeen _ => "TxSeen"
  | .txFetched _ => "TxFetched"
  | .txDecoded _ => "TxDecoded"
  | .txReady _ => "TxReady"
  | .txBlocked _ => "TxBlocked"
  | .candidateQueued _ => "CandidateQueued"
  | .simDispatched _ => "SimDispatched"
  | .oppDetected _ => "OppDetected"
  | .simCompleted _ => "SimCompleted"
  | .assemblyDecisionApplied _ => "AssemblyDecisionApplied"
  | .bundleSubmitted _ => "BundleSubmitted"
  | .txReplaced _ => "TxReplaced"
  | .txDropped _ => "TxDropped"
  | .txConfirmedProvisional _ => "TxConfirmedProvisional"
  | .txConfirmedFinal _ => "TxConfirmedFinal"
  | .txReorged _ => "TxReorged"

/-- Equality of two texts up to the case of ASCII letters. -/
def eqIgnoreAsciiCase (left right : String) : Bool :=
  left.toList.map Char.toLower = right.toList.map Char.toLower

/-- The filter of `events`: no types let every event pass. -/
def passesTypes (eventTypes : List String) (event : EventEnvelope) : Bool :=
  eventTypes.isEmpty ||
    eventTypes.any fun kind => eqIgnoreAsciiCase (eventPayloadType event.payload) kind

/-! ## Pages -/

/-- How many events a page looks at. -/
def eventScanLimit (limit : Nat) : Nat := max (saturatingMul usizeMax limit 2) limit

/-- A page of events after a cursor, those of the asked types. -/
def events (storage : InMemoryStorage) (afterSeqId : UInt64) (eventTypes : List String)
    (limit : Nat) : List EventEnvelope :=
  ((storage.scanEvents afterSeqId (eventScanLimit limit)).filter (passesTypes eventTypes)).take limit

/-- The stream reads the events without a filter. -/
theorem storageProvider_events (storage : InMemoryStorage) (lookups : Lookups)
    (afterSeqId : UInt64) (limit : Nat) :
    (storageProvider storage lookups).events afterSeqId limit =
      events storage afterSeqId [] limit := by
  have every : passesTypes [] = fun _ => true := rfl
  rw [events, every, List.filter_true]
  rfl

/-- What a client has received that asks for the events after the last one, from the start, until a
page is empty; nothing when it may not make that many calls. -/
def receivedEvents (storage : InMemoryStorage) (eventTypes : List String) (limit calls : Nat) :
    Option (List EventEnvelope) :=
  pageThrough (fun afterSeqId => events storage afterSeqId eventTypes limit) (·.seqId) calls 0 []

/-- The retained events of the types, each once and in order. -/
structure ReceivesAll (storage : InMemoryStorage) (eventTypes : List String)
    (received : List EventEnvelope) : Prop where
  inOrder : received.Pairwise fun earlier later => earlier.seqId < later.seqId
  exact : ∀ event, event ∈ received ↔
    event ∈ storage.events ∧ passesTypes eventTypes event = true ∧ 1 ≤ event.seqId

/-- A client that may call as often as there are events, and once more, receives them all. -/
def PagesCompletely (storage : InMemoryStorage) (eventTypes : List String) (limit : Nat) : Prop :=
  ∃ received, (∀ calls, storage.events.length < calls →
    receivedEvents storage eventTypes limit calls = some received) ∧
      ReceivesAll storage eventTypes received

section Pages

variable {storage : InMemoryStorage}

/-- Events of different sequence ids are in strict order. -/
theorem increasing_of_distinct (indexed : Indexed storage.eventIndex storage.events)
    (distinct : (storage.events.map (·.seqId)).Nodup) :
    storage.eventIndex.Pairwise fun left right => left.seqId.toNat < right.seqId.toNat := by
  have apart : storage.eventIndex.Pairwise fun left right => left.seqId ≠ right.seqId :=
    (List.pairwise_map.mp distinct).perm indexed.perm.symm Ne.symm
  refine (indexed.ordered.and apart).imp fun ⟨below, differ⟩ => ?_
  exact Nat.lt_of_le_of_ne (seqId_le_of_isLE below) fun same => differ (UInt64.toNat_inj.mp same)

theorem events_eq (indexed : Indexed storage.eventIndex storage.events) (afterSeqId : UInt64)
    (eventTypes : List String) {limit : Nat} (positive : 0 < limit) :
    events storage afterSeqId eventTypes limit =
      filteredPage (passesTypes eventTypes) (eventScanLimit limit) limit
        (rowsAfter UInt64.toNat (·.seqId) storage.eventIndex afterSeqId) := by
  have scanned : max (eventScanLimit limit) 1 = eventScanLimit limit :=
    Nat.max_eq_left (Nat.le_trans positive (Nat.le_max_right _ _))
  have above : (storage.eventIndex.filter fun event => afterSeqId < event.seqId) =
      rowsAfter UInt64.toNat (·.seqId) storage.eventIndex afterSeqId :=
    List.filter_congr fun event _ => decide_eq_decide.mpr UInt64.lt_iff_toNat_lt
  rw [events, InMemoryStorage.scanEvents_of_ordered indexed.ordered, scanned, above, filteredPage]

/-- There is one list of all events of the types in order. -/
theorem receivesAll_iff (indexed : Indexed storage.eventIndex storage.events)
    (increasing : storage.eventIndex.Pairwise fun left right =>
      left.seqId.toNat < right.seqId.toNat)
    {eventTypes : List String} {received : List EventEnvelope} :
    ReceivesAll storage eventTypes received ↔ received =
      (storage.eventIndex.filter fun event => 1 ≤ event.seqId).filter (passesTypes eventTypes) := by
  have exact : ∀ event, event ∈ (storage.eventIndex.filter fun event => 1 ≤ event.seqId).filter
      (passesTypes eventTypes) ↔
        event ∈ storage.events ∧ passesTypes eventTypes event = true ∧ 1 ≤ event.seqId := by
    intro event
    rw [List.mem_filter, List.mem_filter, indexed.perm.mem_iff, decide_eq_true_eq]
    tauto
  have inOrder : ((storage.eventIndex.filter fun event => 1 ≤ event.seqId).filter
      (passesTypes eventTypes)).Pairwise fun earlier later => earlier.seqId < later.seqId :=
    ((increasing.filter _).filter _).imp fun below => UInt64.lt_iff_toNat_lt.mpr below
  constructor
  · intro all
    have asymmetric : Std.Asymm fun left right : EventEnvelope => left.seqId < right.seqId :=
      ⟨fun _ _ below above => UInt64.lt_asymm below above⟩
    exact all.inOrder.eq_of_mem_iff inOrder fun event =>
      (all.exact event).trans (exact event).symm
  · rintro rfl
    exact ⟨inOrder, exact⟩

end Pages

/-- **Pages of typed events are complete exactly when no event of the types comes directly after twice
the limit of events of other types**, in every storage whose events have different sequence ids. -/
theorem pagesCompletely_iff (config : StorageConfig) (mutations : List StorageMutation)
    (distinct : (((InMemoryStorage.withConfig config).mutateAll mutations).events.map
      (·.seqId)).Nodup) (eventTypes : List String) (limit : Nat) (positive : 1 ≤ limit) :
    let storage := (InMemoryStorage.withConfig config).mutateAll mutations
    PagesCompletely storage eventTypes limit ↔
      GapsBelow (passesTypes eventTypes) (eventScanLimit limit)
        (storage.eventIndex.filter fun event => 1 ≤ event.seqId) := by
  intro storage
  have indexed : Indexed storage.eventIndex storage.events :=
    InMemoryStorage.indexed_mutateAll config mutations
  have increasing := increasing_of_distinct indexed distinct
  have start : rowsAfter UInt64.toNat (·.seqId) storage.eventIndex 0 =
      storage.eventIndex.filter fun event => 1 ≤ event.seqId :=
    List.filter_congr fun event _ => decide_eq_decide.mpr (by
      rw [UInt64.le_iff_toNat_le]
      exact Iff.rfl)
  obtain ⟨got, served, complete⟩ := @pageThrough_complete_iff EventEnvelope UInt64 UInt64.toNat
    (·.seqId) (passesTypes eventTypes) (eventScanLimit limit) limit storage.eventIndex positive
    increasing 0
  rw [start] at served complete
  have received : ∀ calls, storage.events.length < calls →
      receivedEvents storage eventTypes limit calls = some got := by
    intro calls enough
    have pages : (fun afterSeqId => events storage afterSeqId eventTypes limit) =
        fun afterSeqId => filteredPage (passesTypes eventTypes) (eventScanLimit limit) limit
          (rowsAfter UInt64.toNat (·.seqId) storage.eventIndex afterSeqId) :=
      funext fun afterSeqId => events_eq indexed afterSeqId eventTypes positive
    have fewer := List.length_filter_le (fun event => 1 ≤ event.seqId) storage.eventIndex
    rw [indexed.perm.length_eq] at fewer
    rw [receivedEvents, pages, served calls (by omega), List.nil_append]
  rw [← complete]
  constructor
  · rintro ⟨others, every, all⟩
    have same := (every _ (Nat.lt_succ_self _)).symm.trans (received _ (Nat.lt_succ_self _))
    rw [Option.some.inj same] at all
    exact (receivesAll_iff indexed increasing).mp all
  · intro same
    exact ⟨got, received, (receivesAll_iff indexed increasing).mpr same⟩

/-- Two transactions are seen, and a third one is ready. -/
def seenThenReady : List StorageMutation :=
  [.appendEvent (sampleEnvelope 1 (.txSeen
      { hash := 10, peerId := "peer", seenAtUnixMs := 0, seenAtMonoNs := 0 })),
    .appendEvent (sampleEnvelope 2 (.txSeen
      { hash := 11, peerId := "peer", seenAtUnixMs := 0, seenAtMonoNs := 0 })),
    .appendEvent (sampleEnvelope 3 (.txReady { hash := 12, sender := 1, nonce := 0 }))]

/-- A page of two events looks at all of them. -/
theorem pagesCompletely_of_limit_two :
    PagesCompletely ((InMemoryStorage.withConfig {}).mutateAll seenThenReady) ["txready"] 2 := by
  refine (pagesCompletely_iff {} seenThenReady (by decide +kernel) _ 2 (by decide)).mpr ?_
  intro earlier gap row later shape _ _
  have length := congrArg List.length shape
  have three : (((InMemoryStorage.withConfig {}).mutateAll seenThenReady).eventIndex.filter
      fun event => 1 ≤ event.seqId).length = 3 := by decide +kernel
  rw [three, List.length_append, List.length_append, List.length_cons] at length
  have scan : eventScanLimit 2 = 4 := by decide
  omega

/-- A page of one event looks at two events of another type, is empty and ends the client. -/
theorem emptyPage_not_pagesCompletely :
    ¬ PagesCompletely ((InMemoryStorage.withConfig {}).mutateAll seenThenReady) ["TxReady"] 1 := by
  rintro ⟨received, every, all⟩
  have stopped : receivedEvents ((InMemoryStorage.withConfig {}).mutateAll seenThenReady) ["TxReady"]
      1 4 = some [] := by decide +kernel
  have nothing := (every 4 (by decide +kernel)).symm.trans stopped
  cases nothing
  have missed := (all.exact (sampleEnvelope 3 (.txReady { hash := 12, sender := 1, nonce := 0 }))).mpr
    (by decide +kernel)
  cases missed

end Mempulse.Dashboard
