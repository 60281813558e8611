import Mempulse.Storage.InMemory

/-!
# The event index under eviction

The storage keeps the last events it was given in a ring, in the order of their appends, and the
same events in an index, in deterministic order. An event that leaves the ring is searched in the
index, where other events can share its key.
-/

set_option autoImplicit false

namespace Mempulse.Storage.InMemoryStorage

open EventLog Library Std

/-! ## The entries with one key -/

section WalkBack

variable {index : List EventEnvelope} {target : EventEnvelope}

theorem walkBack_le (index : List EventEnvelope) (target : EventEnvelope) (found : Nat) :
    walkBack index target found ≤ found := by
  induction found with
  | zero => exact Nat.le_refl _
  | succ found ih =>
      rw [walkBack]
      split
      · exact Nat.le_succ_of_le ih
      · exact Nat.le_refl _

/-- What was walked over has the target's key. -/
theorem cmp_of_walkBack {found position : Nat} {existing : EventEnvelope}
    (walked : walkBack index target found ≤ position) (before : position < found)
    (here : index[position]? = some existing) : cmpDeterministic existing target = .eq := by
  induction found with
  | zero => omega
  | succ found ih =>
      rw [walkBack] at walked
      split at walked
      case isTrue same =>
        rcases Nat.lt_succ_iff_lt_or_eq.mp before with earlier | rfl
        · exact ih walked earlier
        · rw [here] at same
          exact Option.some.inj same
      case isFalse => omega

/-- The walk ends at the front or after an entry with another key. -/
theorem cmp_of_walkBack_succ {found position : Nat} {existing : EventEnvelope}
    (stopped : walkBack index target found = position + 1)
    (here : index[position]? = some existing) : cmpDeterministic existing target ≠ .eq := by
  induction found with
  | zero => cases stopped
  | succ found ih =>
      rw [walkBack] at stopped
      split at stopped
      case isTrue => exact ih stopped
      case isFalse other =>
        cases stopped
        rw [here] at other
        exact fun same => other (congrArg some same)

/-- Everything from the end of the walk on is at or above the target. -/
theorem isLE_of_mem_drop_walkBack {found : Nat} {reached existing : EventEnvelope}
    (ordered : Ordered cmpDeterministic index) (here : index[found]? = some reached)
    (same : cmpDeterministic reached target = .eq)
    (member : existing ∈ index.drop (walkBack index target found)) :
    (cmpDeterministic target existing).isLE = true := by
  obtain ⟨offset, bound, rfl⟩ := List.mem_iff_getElem.mp member
  rw [List.length_drop] at bound
  rw [List.getElem_drop]
  by_cases before : walkBack index target found + offset < found
  · have equal := cmp_of_walkBack (Nat.le_add_right _ offset) before
      (List.getElem?_eq_getElem (l := index) (by omega))
    rw [swap_eq cmpDeterministic, equal]
    rfl
  · obtain ⟨foundBound, rfl⟩ := List.getElem?_eq_some_iff.mp here
    have least : (cmpDeterministic target index[found]).isLE = true := by
      rw [swap_eq cmpDeterministic, same]
      rfl
    rcases Nat.lt_or_eq_of_le (Nat.le_of_not_lt before) with after | equal
    · have above := List.pairwise_iff_getElem.mp ordered found _ foundBound (by omega) after
      exact TransCmp.isLE_trans least above
    · simpa only [← equal] using least

/-- The target is not among the entries before the end of the walk. -/
theorem not_mem_take_walkBack {found : Nat} {reached : EventEnvelope}
    (ordered : Ordered cmpDeterministic index) (here : index[found]? = some reached)
    (same : cmpDeterministic reached target = .eq) :
    target ∉ index.take (walkBack index target found) := by
  intro member
  obtain ⟨position, bound, equal⟩ := List.mem_iff_getElem.mp member
  rw [List.length_take] at bound
  rw [List.getElem_take] at equal
  obtain ⟨foundBound, rfl⟩ := List.getElem?_eq_some_iff.mp here
  have within := walkBack_le index target found
  cases stopped : walkBack index target found with
  | zero => omega
  | succ last =>
      have lastBound : last < index.length := by omega
      have other := cmp_of_walkBack_succ stopped (List.getElem?_eq_getElem lastBound)
      -- The last entry before the walk's end lies between the target and the one that was found.
      have above : (cmpDeterministic target index[last]).isLE = true := by
        rw [← equal]
        rcases Nat.lt_or_eq_of_le (show position ≤ last by omega) with strict | rfl
        · exact List.pairwise_iff_getElem.mp ordered _ _ _ lastBound strict
        · have self : cmpDeterministic index[position] index[position] = .eq :=
            ReflCmp.compare_self
          rw [self]
          rfl
      have below : (cmpDeterministic index[last] target).isLE = true := by
        have step := List.pairwise_iff_getElem.mp ordered last found lastBound foundBound (by omega)
        exact TransCmp.isLE_trans step (by rw [same]; rfl)
      rw [swap_eq cmpDeterministic] at above
      revert other above below
      cases cmpDeterministic index[last] target <;> simp

end WalkBack

/-! ## Removal -/

section Removal

variable {index : List EventEnvelope} {target : EventEnvelope}

theorem removeFrom_sublist (target : EventEnvelope) (index : List EventEnvelope) :
    (removeFrom target index).Sublist index := by
  induction index with
  | nil => exact List.Sublist.refl _
  | cons existing rest ih =>
      rw [removeFrom]
      split
      · split
        · exact List.sublist_cons_self _ _
        · exact ih.cons_cons _
      · exact List.Sublist.refl _

/-- Among entries at or above the target the forward walk reaches it. -/
theorem removeFrom_perm (ordered : Ordered cmpDeterministic index)
    (above : ∀ existing ∈ index, (cmpDeterministic target existing).isLE = true)
    (member : target ∈ index) : index.Perm (target :: removeFrom target index) := by
  induction index with
  | nil => cases member
  | cons existing rest ih =>
      obtain ⟨least, tail⟩ := List.pairwise_cons.mp ordered
      have same : cmpDeterministic existing target = .eq := by
        rcases List.mem_cons.mp member with rfl | further
        · exact ReflCmp.compare_self
        · have bound := above existing (List.mem_cons_self ..)
          have below := least target further
          rw [swap_eq cmpDeterministic] at bound
          revert bound below
          cases cmpDeterministic existing target <;> simp
      rw [removeFrom, if_pos same]
      split
      case isTrue here => rw [here]
      case isFalse other =>
        have further : target ∈ rest :=
          (List.mem_cons.mp member).resolve_left fun equal => other equal.symm
        have left := ih tail (fun later inRest => above later (List.mem_cons_of_mem _ inRest)) further
        exact (left.cons existing).trans (List.Perm.swap target existing _)

theorem removeEventFromSortedIndex_sublist (index : List EventEnvelope) (target : EventEnvelope) :
    (removeEventFromSortedIndex index target).Sublist index := by
  unfold removeEventFromSortedIndex
  split
  case h_1 => exact List.Sublist.refl _
  case h_2 found _ =>
    have parts := (List.Sublist.refl (index.take (walkBack index target found))).append
      (removeFrom_sublist target (index.drop (walkBack index target found)))
    rwa [List.take_append_drop] at parts

/-- **The removal takes out one occurrence of the event**, whatever else shares its key. -/
theorem removeEventFromSortedIndex_perm (ordered : Ordered cmpDeterministic index)
    (member : target ∈ index) :
    index.Perm (target :: removeEventFromSortedIndex index target) := by
  obtain ⟨found, search⟩ := binarySearchBy_isSome (ordered.bisected target) member
    ReflCmp.compare_self
  obtain ⟨reached, here, same⟩ := order_of_binarySearchBy search
  have absent := not_mem_take_walkBack ordered here same
  have further : target ∈ index.drop (walkBack index target found) := by
    rw [← List.take_append_drop (walkBack index target found) index] at member
    exact (List.mem_append.mp member).resolve_left absent
  have removed := removeFrom_perm (ordered.sublist (List.drop_sublist _ _))
    (fun existing inDrop => isLE_of_mem_drop_walkBack ordered here same inDrop) further
  rw [removeEventFromSortedIndex, search]
  calc index
      _ = index.take (walkBack index target found) ++ index.drop (walkBack index target found) :=
        (List.take_append_drop _ _).symm
      _ |>.Perm (index.take (walkBack index target found) ++
            target :: removeFrom target (index.drop (walkBack index target found))) :=
        removed.append_left _
      _ |>.Perm (target :: (index.take (walkBack index target found) ++
            removeFrom target (index.drop (walkBack index target found)))) :=
        List.perm_middle

end Removal

/-! ## The index and the ring -/

section Index

variable {index ring : List EventEnvelope} {event : EventEnvelope}

/-- Where an event goes in the index. -/
theorem insertIntoIndex_cases (index : List EventEnvelope) (event : EventEnvelope) :
    (insertIntoIndex index event = index ++ [event] ∧
      ∀ last ∈ index.getLast?, (cmpDeterministic last event).isLE = true) ∨
    insertIntoIndex index event =
      index.takeWhile (fun existing => (cmpDeterministic existing event).isLT) ++
        event :: index.dropWhile fun existing => (cmpDeterministic existing event).isLT := by
  unfold insertIntoIndex
  cases final : index.getLast? with
  | none => exact .inl ⟨if_pos rfl, fun last member => by cases member⟩
  | some last =>
      cases order : cmpDeterministic last event with
      | gt =>
          right
          simp only [order, Ordering.isGT_gt, Bool.not_true, Bool.false_eq_true, if_false]
          rw [take_partitionPoint, drop_partitionPoint]
      | lt | eq =>
          left
          refine ⟨by simp [order], fun other member => ?_⟩
          cases Option.some.inj (Option.mem_def.mp member)
          rw [order]
          rfl

theorem insertIntoIndex_perm (index : List EventEnvelope) (event : EventEnvelope) :
    (insertIntoIndex index event).Perm (index ++ [event]) := by
  rcases insertIntoIndex_cases index event with ⟨tail, -⟩ | middle
  · rw [tail]
  · have whole := List.takeWhile_append_dropWhile (l := index)
      (p := fun existing => (cmpDeterministic existing event).isLT)
    rw [middle]
    refine List.perm_middle.trans ?_
    rw [whole]
    exact (List.perm_append_singleton event index).symm

theorem insertIntoIndex_ordered (ordered : Ordered cmpDeterministic index) (event : EventEnvelope) :
    Ordered cmpDeterministic (insertIntoIndex index event) := by
  rcases insertIntoIndex_cases index event with ⟨tail, last⟩ | middle
  · rw [tail]
    exact ordered_concat ordered last
  · rw [middle]
    exact ordered_insert ordered event

/-- The events the index lists are those in the ring. -/
structure Indexed (index ring : List EventEnvelope) : Prop where
  ordered : Ordered cmpDeterministic index
  perm : index.Perm ring

theorem Indexed.empty : Indexed [] [] where
  ordered := List.Pairwise.nil
  perm := List.Perm.refl _

theorem Indexed.insert (indexed : Indexed index ring) (event : EventEnvelope) :
    Indexed (insertIntoIndex index event) (ring ++ [event]) where
  ordered := insertIntoIndex_ordered indexed.ordered event
  perm := (insertIntoIndex_perm index event).trans (indexed.perm.append_right [event])

/-- The oldest event leaves. -/
theorem Indexed.remove (indexed : Indexed index (event :: ring)) :
    Indexed (removeEventFromSortedIndex index event) ring where
  ordered := indexed.ordered.sublist (removeEventFromSortedIndex_sublist index event)
  perm := by
    have member : event ∈ index := indexed.perm.mem_iff.mpr (List.mem_cons_self ..)
    have removed := removeEventFromSortedIndex_perm indexed.ordered member
    exact (removed.symm.trans indexed.perm).cons_inv

theorem evictEvents_spec (capacity : Nat) (indexed : Indexed index ring) :
    (evictEvents capacity index ring).1 = ring.drop (ring.length - capacity) ∧
      Indexed (evictEvents capacity index ring).2 (evictEvents capacity index ring).1 := by
  induction ring generalizing index with
  | nil => exact ⟨by simp [evictEvents], indexed⟩
  | cons oldEvent rest ih =>
      rw [evictEvents]
      split
      case isTrue excessive =>
        obtain ⟨kept, still⟩ := ih indexed.remove
        refine ⟨?_, still⟩
        have excess : (oldEvent :: rest).length - capacity = rest.length - capacity + 1 := by
          rw [List.length_cons]
          omega
        rw [kept, excess, List.drop_succ_cons]
      case isFalse fits =>
        have none : (oldEvent :: rest).length - capacity = 0 := by
          rw [List.length_cons]
          omega
        exact ⟨by rw [none, List.drop_zero], indexed⟩

end Index

/-! ## Appending -/

section Append

variable {storage : InMemoryStorage}

/-- The projections leave the events alone. -/
theorem projectEvent_frame (storage : InMemoryStorage) (event : EventEnvelope) :
    (storage.projectEvent event).config = storage.config ∧
      (storage.projectEvent event).events = storage.events ∧
      (storage.projectEvent event).eventIndex = storage.eventIndex := by
  rcases event with ⟨seqId, ingestTsUnixMs, ingestTsMonoNs, sourceId, payload⟩
  cases payload <;> exact ⟨rfl, rfl, rfl⟩

/-- The ring and the index after one more event. -/
theorem appendEvent_spec (indexed : Indexed storage.eventIndex storage.events)
    (event : EventEnvelope) :
    (storage.appendEvent event).config = storage.config ∧
      (storage.appendEvent event).events =
        (storage.events ++ [event]).drop (storage.events.length + 1 - storage.config.eventCapacity) ∧
      Indexed (storage.appendEvent event).eventIndex (storage.appendEvent event).events := by
  obtain ⟨config, events, eventIndex⟩ := projectEvent_frame storage event
  obtain ⟨kept, still⟩ := evictEvents_spec storage.config.eventCapacity (indexed.insert event)
  rw [List.length_append, List.length_singleton] at kept
  simp only [appendEvent, bumpReadModelRevision, config, events, eventIndex]
  exact ⟨trivial, kept, still⟩

/-- The ring holds the last events that were appended. -/
theorem appendEvents_spec (indexed : Indexed storage.eventIndex storage.events)
    (full : storage.events.length ≤ storage.config.eventCapacity) (appended : List EventEnvelope) :
    (storage.appendEvents appended).config = storage.config ∧
      (storage.appendEvents appended).events = (storage.events ++ appended).drop
        (storage.events.length + appended.length - storage.config.eventCapacity) ∧
      Indexed (storage.appendEvents appended).eventIndex (storage.appendEvents appended).events := by
  induction appended generalizing storage with
  | nil =>
      have none : storage.events.length + 0 - storage.config.eventCapacity = 0 := by omega
      refine ⟨rfl, ?_, indexed⟩
      rw [List.append_nil, List.length_nil, none, List.drop_zero]
      rfl
  | cons event rest ih =>
      obtain ⟨config, kept, still⟩ := appendEvent_spec indexed event
      have lengths := congrArg List.length kept
      rw [List.length_drop, List.length_append, List.length_singleton] at lengths
      obtain ⟨same, events, final⟩ := ih still (by rw [config]; omega)
      refine ⟨same.trans config, ?_, final⟩
      change ((storage.appendEvent event).appendEvents rest).events = _
      rw [events, config, kept, ← List.drop_append_of_le_length (by simp), List.drop_drop,
        List.append_assoc, List.singleton_append]
      congr 1
      rw [← kept, lengths, List.length_cons]
      omega

end Append

/-! ## Reading -/

section Reading

variable {storage : InMemoryStorage}

/-- A scan returns the events above its cursor. -/
theorem scanEvents_of_ordered (ordered : Ordered cmpDeterministic storage.eventIndex)
    (fromSeqId : UInt64) (limit : Nat) :
    storage.scanEvents fromSeqId limit =
      (storage.eventIndex.filter fun event => fromSeqId < event.seqId).take (max limit 1) := by
  have partitioned : storage.eventIndex.Pairwise fun earlier later =>
      decide (later.seqId ≤ fromSeqId) = true → decide (earlier.seqId ≤ fromSeqId) = true := by
    refine ordered.imp fun below bound => ?_
    have sequence := seqId_le_of_isLE below
    simp only [decide_eq_true_eq, UInt64.le_iff_toNat_le] at bound ⊢
    omega
  unfold scanEvents scanEventsCursorStart
  rw [drop_partitionPoint, dropWhile_eq_filter partitioned]
  congr 1
  refine List.filter_congr fun event _ => ?_
  rw [← decide_not, decide_eq_decide, UInt64.not_le]

/-- The greatest sequence id of events none of which is above the last one. -/
theorem greatest_concat_iff {front : List EventEnvelope} {last : EventEnvelope}
    (below : ∀ event ∈ front, event.seqId ≤ last.seqId) (seqId : UInt64) :
    ((∃ event ∈ front ++ [last], event.seqId = seqId) ∧
      ∀ event ∈ front ++ [last], event.seqId ≤ seqId) ↔ last.seqId = seqId := by
  have greatest : ∀ event ∈ front ++ [last], event.seqId ≤ last.seqId := by
    intro event member
    rcases List.mem_append.mp member with earlier | final
    · exact below event earlier
    · rw [List.mem_singleton.mp final]
      exact UInt64.le_refl _
  constructor
  · rintro ⟨⟨event, member, rfl⟩, bound⟩
    exact UInt64.le_antisymm (bound last (by simp)) (greatest event member)
  · rintro rfl
    exact ⟨⟨last, by simp, rfl⟩, greatest⟩

theorem latestSeqId_of_ordered (ordered : Ordered cmpDeterministic storage.eventIndex)
    (seqId : UInt64) :
    storage.latestSeqId = some seqId ↔
      (∃ event ∈ storage.eventIndex, event.seqId = seqId) ∧
        ∀ event ∈ storage.eventIndex, event.seqId ≤ seqId := by
  unfold latestSeqId
  rcases List.eq_nil_or_concat' storage.eventIndex with empty | ⟨front, last, shape⟩
  · simp [empty]
  · rw [shape] at ordered ⊢
    have below : ∀ event ∈ front, event.seqId ≤ last.seqId := fun event earlier =>
      UInt64.le_iff_toNat_le.mpr (seqId_le_of_isLE
        ((List.pairwise_append.mp ordered).2.2 event earlier last (by simp)))
    rw [List.getLast?_append_cons, List.getLast?_singleton, Option.map_some, Option.some_inj,
      greatest_concat_iff below]

/-- The ring keeps the end of what was appended, so the latest sequence id of events that were
appended in sequence order is the greatest one, whatever the capacity. -/
theorem latestSeqId_appendEvents (config : StorageConfig) {appended : List EventEnvelope}
    (sorted : appended.Pairwise fun earlier later => earlier.seqId ≤ later.seqId) (seqId : UInt64) :
    ((withConfig config).appendEvents appended).latestSeqId = some seqId ↔
      (∃ event ∈ appended, event.seqId = seqId) ∧ ∀ event ∈ appended, event.seqId ≤ seqId := by
  have fresh : Indexed (withConfig config).eventIndex (withConfig config).events := .empty
  obtain ⟨-, kept, indexed⟩ := appendEvents_spec fresh (Nat.zero_le _) appended
  rw [latestSeqId_of_ordered indexed.ordered]
  simp only [indexed.perm.mem_iff, kept]
  rcases List.eq_nil_or_concat' appended with rfl | ⟨front, last, rfl⟩
  · simp [withConfig]
  · have below : ∀ event ∈ front, event.seqId ≤ last.seqId := fun event earlier =>
      (List.pairwise_append.mp sorted).2.2 event earlier last (by simp)
    have fewer : 0 + (front ++ [last]).length - max config.eventCapacity 1 ≤ front.length := by
      rw [List.length_append, List.length_singleton]
      omega
    change ((∃ event ∈ (front ++ [last]).drop (0 + (front ++ [last]).length -
      max config.eventCapacity 1), _) ∧ _) ↔ _
    rw [greatest_concat_iff below]
    change ((∃ event ∈ (front ++ [last]).drop (0 + (front ++ [last]).length -
      max config.eventCapacity 1), _) ∧ ∀ event ∈ (front ++ [last]).drop (0 +
        (front ++ [last]).length - max config.eventCapacity 1), _) ↔ _
    rw [List.drop_append_of_le_length fewer]
    exact greatest_concat_iff (fun event member => below event (List.mem_of_mem_drop member)) seqId

end Reading

/-- **The event index is the retained ring in deterministic order**, for every capacity and every
sequence of appends; scans and the latest sequence id read the ring through it. -/
theorem eventIndex_appendEvents (config : StorageConfig) (appended : List EventEnvelope) :
    let storage := (withConfig config).appendEvents appended
    storage.events = appended.drop (appended.length - max config.eventCapacity 1) ∧
      Ordered cmpDeterministic storage.eventIndex ∧
      storage.eventIndex.Perm storage.events ∧
      (∀ fromSeqId limit, storage.scanEvents fromSeqId limit =
        (storage.eventIndex.filter fun event => fromSeqId < event.seqId).take (max limit 1)) ∧
      ∀ seqId, storage.latestSeqId = some seqId ↔
        (∃ event ∈ storage.events, event.seqId = seqId) ∧
          ∀ event ∈ storage.events, event.seqId ≤ seqId := by
  have fresh : Indexed (withConfig config).eventIndex (withConfig config).events := .empty
  obtain ⟨-, kept, indexed⟩ := appendEvents_spec fresh (Nat.zero_le _) appended
  refine ⟨?_, indexed.ordered, indexed.perm, scanEvents_of_ordered indexed.ordered, fun seqId => ?_⟩
  · rw [kept]
    change (appended).drop (0 + appended.length - max config.eventCapacity 1) = _
    rw [Nat.zero_add]
  · rw [latestSeqId_of_ordered indexed.ordered]
    simp only [indexed.perm.mem_iff]

end Mempulse.Storage.InMemoryStorage
