import Mempulse.WebUi.CircularBuffer
import Mempulse.WebUi.TxHistory

/-!
# The live store

The live store keeps the history of the dashboard from one snapshot of the stream to the next, with
an order of the hashes and a map of the rows. Each snapshot has the rows that a merge of the history
would have (`storeAgrees_iff`), unless the cap is no length of an array: the store allocates a
buffer of the cap, the merge does not.
-/

set_option autoImplicit false

namespace Mempulse.WebUi

open Library TxHistory

/-! ## The store -/

/-- The options of a snapshot. -/
structure SnapshotOptions extends MergeOptions where
  maxItems : JsValue := .undefined
  deriving DecidableEq

/-- A call of `snapshot`, with the time at which it reads the clock. -/
structure SnapshotCall (Row : Type) where
  incomingRows : Option (List (Option Row))
  options : SnapshotOptions := {}
  dateNow : ℚ := 0

/-- The rows of a snapshot, and whether they have changed. -/
structure SnapshotResult (Row : Type) where
  rows : List (Option Row)
  changed : Bool

/-- The rows by their hashes, the order of the hashes, and the list last shown. -/
structure TxLiveStore (Row : Type) where
  byHash : JsMap Row := .empty
  order : List JsValue := []
  rows : List (Option Row) := []

/-- What a snapshot builds. -/
structure SnapshotDraft (Row : Type) where
  seen : List JsValue := []
  nextOrderBuffer : CircularBuffer JsValue
  nextByHash : JsMap Row := .empty

/-- Index by index, by reference. -/
def rowsReferenceEqual {Row : Type} [DecidableEq Row] (left right : List (Option Row)) : Bool :=
  if left.length ≠ right.length then false
  else (List.range left.length).all fun index => left[index]? = right[index]?

namespace TxLiveStore

/-- The oldest moment that is still shown. -/
def resolveCutoffUnixMs (round : ℚ → JsNumber) (nowUnixMs maxAgeMs : JsValue) (dateNow : ℚ) :
    JsNumber :=
  let now := nowUnixMs.finite?.getD dateNow
  match maxAgeMs.finite? with
  | some maxAgeMs => round (now - floorFromZero maxAgeMs)
  | none => .negativeInfinity

section Snapshot

variable {Row : Type} (read : Row → TxSummary)

/-- The loop over the incoming rows. -/
def takeIncoming (cap : Nat) (cutoffUnixMs : JsNumber) (byHash : JsMap Row) :
    SnapshotDraft Row → List (Option Row) → SnapshotDraft Row
  | draft, [] => draft
  | draft, row :: rest =>
    let hash := hashOf read row
    if !hash.truthy || draft.seen.contains hash || !isWithinAgeWindow read row cutoffUnixMs then
      takeIncoming cap cutoffUnixMs byHash draft rest
    else
      let previous := byHash hash
      let nextRow :=
        if previous.isSome && txSummaryEquivalent read previous row then previous else row
      let draft : SnapshotDraft Row :=
        { seen := draft.seen ++ [hash]
          nextOrderBuffer := draft.nextOrderBuffer.push hash
          nextByHash := draft.nextByHash.set hash nextRow }
      if cap ≤ draft.nextOrderBuffer.size then draft
      else takeIncoming cap cutoffUnixMs byHash draft rest

/-- The loop over the order. -/
def takeExisting (cap : Nat) (cutoffUnixMs : JsNumber) (byHash : JsMap Row) :
    SnapshotDraft Row → List JsValue → SnapshotDraft Row
  | draft, [] => draft
  | draft, hash :: rest =>
    if draft.seen.contains hash then takeExisting cap cutoffUnixMs byHash draft rest
    else
      let existing := byHash hash
      if existing.isNone || !isWithinAgeWindow read existing cutoffUnixMs then
        takeExisting cap cutoffUnixMs byHash draft rest
      else
        let draft : SnapshotDraft Row :=
          { seen := draft.seen ++ [hash]
            nextOrderBuffer := draft.nextOrderBuffer.push hash
            nextByHash := draft.nextByHash.set hash existing }
        if cap ≤ draft.nextOrderBuffer.size then draft
        else takeExisting cap cutoffUnixMs byHash draft rest

variable [DecidableEq Row] (round : ℚ → JsNumber)

/-- A snapshot that throws leaves the store as it was. -/
def snapshot (store : TxLiveStore Row) (call : SnapshotCall Row) :
    Except RangeError (SnapshotResult Row × TxLiveStore Row) :=
  let cap := resolveCap call.options.maxItems
  if cap = 0 then .ok ({ rows := [], changed := store.rows.length ≠ 0 }, {})
  else do
    let cutoffUnixMs :=
      resolveCutoffUnixMs round call.options.nowUnixMs call.options.maxAgeMs call.dateNow
    let nextOrderBuffer ← createCircularBuffer JsValue (.number (.finite cap))
    let incoming := takeIncoming read cap cutoffUnixMs store.byHash
      { nextOrderBuffer := nextOrderBuffer } (call.incomingRows.getD [])
    let draft :=
      if incoming.nextOrderBuffer.size < cap then
        takeExisting read cap cutoffUnixMs store.byHash incoming store.order
      else incoming
    let nextOrder := draft.nextOrderBuffer.toArray
    let nextRows := nextOrder.map draft.nextByHash
    let changed := !rowsReferenceEqual store.rows nextRows
    let rows := if changed then nextRows else store.rows
    return ({ rows := rows, changed := changed },
      { byHash := draft.nextByHash, order := nextOrder, rows := rows })

/-- The empty store. -/
def reset (_store : TxLiveStore Row) : TxLiveStore Row := {}

end Snapshot

end TxLiveStore

/-! ## Runs -/

/-- The calls of the store's owner. -/
inductive StoreOp (Row : Type) where
  | snapshot (call : SnapshotCall Row)
  | reset

section Runs

variable {Row : Type} [DecidableEq Row] (read : Row → TxSummary) (round : ℚ → JsNumber)

/-- The rows of a plain merge. -/
def mergeCall (rows : List (Option Row)) (call : SnapshotCall Row) : List (Option Row) :=
  mergeTransactionHistory read round (some rows) call.incomingRows call.options.maxItems
    call.options.toMergeOptions call.dateNow

/-- What a snapshot returns, against the rows before and the rows of the merge. -/
structure SnapshotAgrees (before merged : List (Option Row)) (cap : Nat)
    (result : SnapshotResult Row) : Prop where
  rows : result.rows = merged
  distinct : (result.rows.map (hashOf read)).Nodup
  capped : result.rows.length ≤ cap
  changed : result.changed = false ↔ result.rows = before

/-- **The store equals the plain merge** over some operations: every snapshot returns, and what it
returns agrees with the merge. -/
def StoreAgrees : TxLiveStore Row → List (Option Row) → List (StoreOp Row) → Prop
  | _, _, [] => True
  | store, _, .reset :: rest => StoreAgrees store.reset [] rest
  | store, merged, .snapshot call :: rest =>
    ∃ result next, store.snapshot read round call = .ok (result, next) ∧
      SnapshotAgrees read store.rows (mergeCall read round merged call)
        (resolveCap call.options.maxItems) result ∧
      StoreAgrees next (mergeCall read round merged call) rest

/-- The snapshot a call takes. -/
def StoreOp.call? : StoreOp Row → Option (SnapshotCall Row)
  | .snapshot call => some call
  | .reset => none

end Runs

/-! ## The drafts beside each other -/

section Beside

variable {Row : Type} {read : Row → TxSummary}

/-- The draft of a snapshot beside the merge of the same rows. -/
structure Beside (read : Row → TxSummary) (cap : Nat) (draft : SnapshotDraft Row)
    (merge : Merge Row) : Prop where
  seen : draft.seen = merge.seen
  sound : draft.nextOrderBuffer.Sound
  capacity : draft.nextOrderBuffer.capacity = cap
  order : draft.nextOrderBuffer.toArray = merge.merged.map (hashOf read)
  found : ∀ row ∈ merge.merged, draft.nextByHash (hashOf read row) = row
  listed : ∀ row ∈ merge.merged, (hashOf read row).truthy = true
  distinct : (merge.merged.map (hashOf read)).Nodup
  within : ∀ row ∈ merge.merged, hashOf read row ∈ merge.seen
  only : ∀ hash, hash ∉ merge.merged.map (hashOf read) → draft.nextByHash hash = none

variable {cap : Nat} {draft : SnapshotDraft Row} {merge : Merge Row}

theorem Beside.size (beside : Beside read cap draft merge) :
    draft.nextOrderBuffer.size = merge.merged.length := by
  have lengths := congrArg List.length beside.order
  rwa [CircularBuffer.length_toArray, List.length_map] at lengths

theorem Beside.length_le (beside : Beside read cap draft merge) : merge.merged.length ≤ cap := by
  rw [← beside.size, ← beside.capacity]
  exact beside.sound.within

/-- Both take a row of a new hash. -/
theorem Beside.take (beside : Beside read cap draft merge) {row : Option Row} {hash : JsValue}
    (own : hashOf read row = hash) (truthy : hash.truthy = true) (fresh : hash ∉ merge.seen)
    (room : merge.merged.length < cap) :
    Beside read cap
      { seen := draft.seen ++ [hash]
        nextOrderBuffer := draft.nextOrderBuffer.push hash
        nextByHash := draft.nextByHash.set hash row }
      { merged := merge.merged ++ [row], seen := merge.seen ++ [hash] } := by
  have absent : hash ∉ merge.merged.map (hashOf read) := by
    intro member
    obtain ⟨other, taken, same⟩ := List.mem_map.mp member
    exact fresh (same ▸ beside.within other taken)
  have hasRoom : draft.nextOrderBuffer.length < draft.nextOrderBuffer.capacity := by
    rw [beside.capacity]
    exact beside.size.trans_lt room
  constructor
  · rw [beside.seen]
  · exact beside.sound.push hash
  · exact (CircularBuffer.capacity_push _ _).trans beside.capacity
  · rw [CircularBuffer.toArray_push_of_room beside.sound hash hasRoom, beside.order,
      List.map_append, List.map_singleton, own]
  · intro other member
    rcases List.mem_append.mp member with before | new
    · have differs : hashOf read other ≠ hash := fun same =>
        absent (same ▸ List.mem_map_of_mem before)
      exact (Function.update_of_ne differs _ _).trans (beside.found other before)
    · obtain rfl := List.mem_singleton.mp new
      rw [own]
      exact Function.update_self _ _ _
  · intro other member
    rcases List.mem_append.mp member with before | new
    · exact beside.listed other before
    · rw [List.mem_singleton.mp new, own]
      exact truthy
  · rw [List.map_append, List.map_singleton, own, List.nodup_append_comm, List.singleton_append,
      List.nodup_cons]
    exact ⟨absent, beside.distinct⟩
  · intro other member
    rcases List.mem_append.mp member with before | new
    · exact List.mem_append_left _ (beside.within other before)
    · rw [List.mem_singleton.mp new, own]
      exact List.mem_append_right _ List.mem_cons_self
  · intro other missing
    rw [List.map_append, List.map_singleton, own, List.mem_append, List.mem_singleton, not_or]
      at missing
    exact (Function.update_of_ne missing.2 _ _).trans (beside.only other missing.1)

/-- Rows that are equivalent have one hash. -/
theorem hashOf_eq_of_equivalent {left right : Option Row}
    (equivalent : txSummaryEquivalent read left right = true) :
    hashOf read left = hashOf read right := by
  simp only [txSummaryEquivalent, Bool.and_eq_true] at equivalent
  have hashes := equivalent.1.1.1.1.1.1
  rw [JsValue.strictEquals, Bool.and_eq_true] at hashes
  exact of_decide_eq_true hashes.1

theorem hashOf_resolveStableRow (existingByHash : JsMap Row) (row : Option Row) :
    hashOf read (resolveStableRow read existingByHash row) = hashOf read row := by
  unfold resolveStableRow
  dsimp only
  split
  · split
    case isTrue same =>
      rw [Bool.and_eq_true] at same
      exact hashOf_eq_of_equivalent same.2
    case isFalse => rfl
  · rfl

/-- The incoming rows are taken alike. -/
theorem Beside.takeIncoming (beside : Beside read cap draft merge)
    (room : merge.merged.length < cap) (cutoffUnixMs : JsNumber) (byHash : JsMap Row)
    (rows : List (Option Row)) :
    Beside read cap (TxLiveStore.takeIncoming read cap cutoffUnixMs byHash draft rows)
        (appendRows read cap cutoffUnixMs byHash merge rows).2 ∧
      ((appendRows read cap cutoffUnixMs byHash merge rows).1 = true ↔
        cap ≤ (appendRows read cap cutoffUnixMs byHash merge rows).2.merged.length) := by
  induction rows generalizing draft merge with
  | nil => exact ⟨beside, iff_of_false Bool.false_ne_true (Nat.not_le.mpr room)⟩
  | cons row rest ih =>
      have seen := beside.seen
      rw [TxLiveStore.takeIncoming, appendRows]
      dsimp only
      by_cases inWindow : isWithinAgeWindow read row cutoffUnixMs = true
      · by_cases new : (hashOf read row).truthy = true ∧ hashOf read row ∉ merge.seen
        · obtain ⟨truthy, fresh⟩ := new
          have nextRow : (if (byHash (hashOf read row)).isSome &&
              txSummaryEquivalent read (byHash (hashOf read row)) row
                then byHash (hashOf read row) else row) = resolveStableRow read byHash row := by
            rw [resolveStableRow, if_pos truthy]
          have taken :=
            beside.take (hashOf_resolveStableRow byHash row) truthy fresh room
          have size := taken.size
          rw [seen] at taken ⊢
          simp only [truthy, fresh, inWindow, nextRow, List.contains_eq_mem, decide_false,
            Bool.not_true, Bool.or_false, Bool.false_eq_true, if_false]
          dsimp only at size
          rw [size]
          split
          case isTrue full => exact ⟨taken, iff_of_true rfl full⟩
          case isFalse more => exact ih taken (Nat.not_le.mp more)
        · have skipped : (!(hashOf read row).truthy || merge.seen.contains (hashOf read row)) =
              true := by
            rw [Bool.or_eq_true, Bool.not_eq_true', List.contains_eq_mem, decide_eq_true_iff]
            by_contra both
            rw [not_or, Bool.not_eq_false] at both
            exact new both
          rw [seen, skipped]
          simpa [inWindow] using ih beside room
      · simpa [inWindow] using ih beside room

/-- A row with a hash is there. -/
theorem isSome_of_truthy {row : Option Row} (truthy : (hashOf read row).truthy = true) :
    row.isSome = true := by
  cases row with
  | none => cases truthy
  | some row => rfl

/-- The existing rows are taken alike. -/
theorem Beside.takeExisting (beside : Beside read cap draft merge)
    (room : merge.merged.length < cap) (cutoffUnixMs : JsNumber) {byHash : JsMap Row}
    {rows : List (Option Row)} (listed : ∀ row ∈ rows, (hashOf read row).truthy = true)
    (found : ∀ row ∈ rows, byHash (hashOf read row) = row) :
    Beside read cap
      (TxLiveStore.takeExisting read cap cutoffUnixMs byHash draft (rows.map (hashOf read)))
      (appendRows read cap cutoffUnixMs byHash merge rows).2 := by
  induction rows generalizing draft merge with
  | nil => exact beside
  | cons row rest ih =>
      have seen := beside.seen
      have truthy := listed row List.mem_cons_self
      have own := found row List.mem_cons_self
      have listedLater := fun row member => listed row (List.mem_cons_of_mem _ member)
      have foundLater := fun row member => found row (List.mem_cons_of_mem _ member)
      have same : resolveStableRow read byHash row = row := by
        rw [resolveStableRow, if_pos truthy, own]
        exact ite_self row
      rw [List.map_cons, TxLiveStore.takeExisting, appendRows]
      dsimp only
      rw [own, same, seen]
      by_cases inWindow : isWithinAgeWindow read row cutoffUnixMs = true
      · by_cases fresh : hashOf read row ∉ merge.seen
        · have taken := beside.take rfl truthy fresh room
          have size := taken.size
          rw [seen] at taken
          have present : row.isNone = false := by
            rw [Option.isNone_eq_false_iff]
            exact isSome_of_truthy truthy
          simp only [truthy, fresh, inWindow, present, List.contains_eq_mem, decide_false,
            Bool.not_true, Bool.or_false, Bool.false_eq_true, if_false]
          dsimp only at size
          rw [size]
          split
          case isTrue full => exact taken
          case isFalse more => exact ih taken (Nat.not_le.mp more) listedLater foundLater
        · rw [not_not] at fresh
          simpa [inWindow, fresh] using ih beside room listedLater foundLater
      · by_cases fresh : hashOf read row ∉ merge.seen
        · simpa [inWindow, fresh] using ih beside room listedLater foundLater
        · rw [not_not] at fresh
          simpa [inWindow, fresh] using ih beside room listedLater foundLater

end Beside

/-! ## The invariant -/

section Invariant

variable {Row : Type} {read : Row → TxSummary}

/-- The order lists the hashes of the rows, and the map has each row under its hash and nothing
else. -/
structure TxLiveStore.Sound (read : Row → TxSummary) (store : TxLiveStore Row) : Prop where
  order : store.order = store.rows.map (hashOf read)
  found : ∀ row ∈ store.rows, store.byHash (hashOf read row) = row
  listed : ∀ row ∈ store.rows, (hashOf read row).truthy = true
  distinct : (store.rows.map (hashOf read)).Nodup
  only : ∀ hash, hash ∉ store.rows.map (hashOf read) → store.byHash hash = none

theorem TxLiveStore.Sound.empty : TxLiveStore.Sound read ({} : TxLiveStore Row) where
  order := rfl
  found := fun _ member => nomatch member
  listed := fun _ member => nomatch member
  distinct := List.nodup_nil
  only := fun _ _ => rfl

theorem indexByHash_concat (rows : List (Option Row)) (row : Option Row) (hash : JsValue) :
    indexByHash read (rows ++ [row]) hash =
      if (hashOf read row).truthy = true ∧ hash = hashOf read row then row
      else indexByHash read rows hash := by
  rw [indexByHash, List.foldl_append, List.foldl_cons, List.foldl_nil]
  by_cases truthy : (hashOf read row).truthy = true
  · rw [if_pos truthy, JsMap.set, Function.update_apply]
    simp only [truthy, true_and]
    rfl
  · rw [if_neg truthy, if_neg fun both => truthy both.1]
    rfl

/-- Rows of distinct hashes are all found under theirs. -/
theorem indexByHash_of_distinct {rows : List (Option Row)}
    (listed : ∀ row ∈ rows, (hashOf read row).truthy = true)
    (distinct : (rows.map (hashOf read)).Nodup) :
    (∀ row ∈ rows, indexByHash read rows (hashOf read row) = row) ∧
      ∀ hash, hash ∉ rows.map (hashOf read) → indexByHash read rows hash = none := by
  induction rows using List.reverseRecOn with
  | nil => exact ⟨fun _ member => absurd member List.not_mem_nil, fun _ _ => rfl⟩
  | append_singleton rows last ih =>
      rw [List.map_append, List.map_singleton, List.nodup_append_comm, List.singleton_append,
        List.nodup_cons] at distinct
      obtain ⟨absent, distinct⟩ := distinct
      obtain ⟨found, only⟩ :=
        ih (fun row member => listed row (List.mem_append_left _ member)) distinct
      have truthy := listed last (List.mem_append_right _ List.mem_cons_self)
      constructor
      · intro row member
        rw [indexByHash_concat]
        rcases List.mem_append.mp member with before | new
        · have differs : hashOf read row ≠ hashOf read last := fun same =>
            absent (same ▸ List.mem_map_of_mem before)
          rw [if_neg fun both => differs both.2]
          exact found row before
        · rw [List.mem_singleton.mp new, if_pos ⟨truthy, rfl⟩]
      · intro hash missing
        rw [List.map_append, List.map_singleton, List.mem_append, List.mem_singleton, not_or]
          at missing
        rw [indexByHash_concat, if_neg fun both => missing.2 both.2]
        exact only hash missing.1

/-- The merge finds the rows where the store has them. -/
theorem TxLiveStore.Sound.indexByHash_eq {store : TxLiveStore Row} (sound : store.Sound read) :
    indexByHash read store.rows = store.byHash := by
  obtain ⟨found, only⟩ := indexByHash_of_distinct sound.listed sound.distinct
  funext hash
  by_cases member : hash ∈ store.rows.map (hashOf read)
  · obtain ⟨row, listed, rfl⟩ := List.mem_map.mp member
    rw [found row listed, sound.found row listed]
  · rw [only hash member, sound.only hash member]

theorem rowsReferenceEqual_iff [DecidableEq Row] {left right : List (Option Row)} :
    rowsReferenceEqual left right = true ↔ left = right := by
  unfold rowsReferenceEqual
  split
  case isTrue differs =>
    exact iff_of_false Bool.false_ne_true fun same => differs (congrArg List.length same)
  case isFalse same =>
    rw [not_not] at same
    rw [List.all_eq_true]
    constructor
    · intro every
      apply List.ext_getElem?
      intro index
      by_cases inside : index < left.length
      · exact of_decide_eq_true (every index (List.mem_range.mpr inside))
      · rw [List.getElem?_eq_none (Nat.not_lt.mp inside),
          List.getElem?_eq_none (same ▸ Nat.not_lt.mp inside)]
    · rintro rfl index _
      exact decide_eq_true rfl

/-- The draft and the merge of a call. -/
theorem TxLiveStore.Sound.beside {store : TxLiveStore Row} (sound : store.Sound read) {cap : Nat}
    (positive : cap ≠ 0) {buffer : CircularBuffer JsValue} (fresh : buffer.Sound)
    (capacity : buffer.capacity = cap) (empty : buffer.toArray = []) (cutoffUnixMs : JsNumber)
    (incoming : List (Option Row)) :
    let draft := TxLiveStore.takeIncoming read cap cutoffUnixMs store.byHash
      { nextOrderBuffer := buffer } incoming
    let merge := appendRows read cap cutoffUnixMs (indexByHash read store.rows) {} incoming
    Beside read cap
      (if draft.nextOrderBuffer.size < cap then
        TxLiveStore.takeExisting read cap cutoffUnixMs store.byHash draft store.order else draft)
      (if merge.1 then merge.2
        else (appendRows read cap cutoffUnixMs (indexByHash read store.rows) merge.2
          store.rows).2) := by
  have start : Beside read cap { nextOrderBuffer := buffer } ({} : Merge Row) :=
    { seen := rfl
      sound := fresh
      capacity := capacity
      order := empty
      found := fun _ member => nomatch member
      listed := fun _ member => nomatch member
      distinct := List.nodup_nil
      within := fun _ member => nomatch member
      only := fun _ _ => rfl }
  have room : ({} : Merge Row).merged.length < cap := Nat.pos_of_ne_zero positive
  rw [sound.indexByHash_eq, sound.order]
  intro draft merge
  obtain ⟨taken, full⟩ : Beside read cap draft merge.2 ∧
      (merge.1 = true ↔ cap ≤ merge.2.merged.length) :=
    start.takeIncoming room cutoffUnixMs store.byHash incoming
  rw [taken.size]
  by_cases reached : cap ≤ merge.2.merged.length
  · rw [if_neg (Nat.not_lt.mpr reached), if_pos (full.mpr reached)]
    exact taken
  · rw [if_pos (Nat.not_le.mp reached), if_neg fun early => reached (full.mp early)]
    exact taken.takeExisting (Nat.not_le.mp reached) cutoffUnixMs sound.listed sound.found

theorem floorFromZero_natCast (cap : Nat) : floorFromZero (cap : ℚ) = cap := by
  have floor : (cap : ℚ).floor = cap := by exact_mod_cast Rat.floor_intCast (cap : Int)
  rw [floorFromZero, floor, Int.toNat_natCast]

/-- The rows of a draft are the merged ones. -/
theorem Beside.map_nextByHash {cap : Nat} {draft : SnapshotDraft Row} {merge : Merge Row}
    (beside : Beside read cap draft merge) :
    draft.nextOrderBuffer.toArray.map draft.nextByHash = merge.merged := by
  rw [beside.order, List.map_map]
  exact (List.map_congr_left beside.found).trans (List.map_id _)

/-- The store that a draft becomes. -/
theorem Beside.store {cap : Nat} {draft : SnapshotDraft Row} {merge : Merge Row}
    (beside : Beside read cap draft merge) {rows : List (Option Row)} (same : rows = merge.merged) :
    TxLiveStore.Sound read
      { byHash := draft.nextByHash, order := draft.nextOrderBuffer.toArray, rows := rows } := by
  subst same
  exact ⟨beside.order, beside.found, beside.listed, beside.distinct, beside.only⟩

variable [DecidableEq Row] (round : ℚ → JsNumber)

/-- What the end of a snapshot keeps of a draft. -/
theorem Beside.kept {cap : Nat} {draft : SnapshotDraft Row} {merge : Merge Row}
    (beside : Beside read cap draft merge) (before : List (Option Row)) :
    let nextRows := draft.nextOrderBuffer.toArray.map draft.nextByHash
    let changed := !rowsReferenceEqual before nextRows
    let rows := if changed then nextRows else before
    let next : TxLiveStore Row :=
      { byHash := draft.nextByHash, order := draft.nextOrderBuffer.toArray, rows := rows }
    SnapshotAgrees read before merge.merged cap { rows := rows, changed := changed } ∧
      next.Sound read ∧ next.rows = merge.merged := by
  intro nextRows changed rows next
  have unchanged : changed = false ↔ before = merge.merged := by
    rw [Bool.not_eq_false', rowsReferenceEqual_iff]
    exact beside.map_nextByHash ▸ Iff.rfl
  have same : rows = merge.merged := by
    cases kind : changed with
    | true => exact (if_pos kind).trans beside.map_nextByHash
    | false =>
        have kept : rows = before := if_neg (by rw [kind]; exact Bool.false_ne_true)
        exact kept.trans (unchanged.mp kind)
  refine ⟨⟨same, ?_, ?_, ?_⟩, beside.store same, same⟩
  · exact same ▸ beside.distinct
  · exact same ▸ beside.length_le
  · exact unchanged.trans (same ▸ eq_comm)

/-- What a snapshot does: it agrees with the merge, or the cap is no length of an array. -/
theorem TxLiveStore.Sound.snapshot {store : TxLiveStore Row} (sound : store.Sound read)
    (call : SnapshotCall Row) :
    (resolveCap call.options.maxItems < 2 ^ 32 →
      ∃ result next, store.snapshot read round call = .ok (result, next) ∧
        SnapshotAgrees read store.rows (mergeCall read round store.rows call)
          (resolveCap call.options.maxItems) result ∧
        next.Sound read ∧ next.rows = mergeCall read round store.rows call) ∧
      (2 ^ 32 ≤ resolveCap call.options.maxItems →
        store.snapshot read round call = .error .invalidArrayLength) := by
  have normalized : normalizeCapacity (.number (.finite (resolveCap call.options.maxItems))) =
      resolveCap call.options.maxItems := floorFromZero_natCast _
  obtain ⟨created, refused⟩ := CircularBuffer.createCircularBuffer_spec JsValue
    (.number (.finite (resolveCap call.options.maxItems)))
  rw [normalized] at created refused
  constructor
  · intro fits
    by_cases zero : resolveCap call.options.maxItems = 0
    · have merged : mergeCall read round store.rows call = [] := by
        rw [mergeCall, mergeTransactionHistory, if_pos zero]
      have emptied : store.snapshot read round call =
          .ok ({ rows := [], changed := store.rows.length ≠ 0 }, {}) := by
        rw [TxLiveStore.snapshot, if_pos zero]
      refine ⟨_, _, emptied, ⟨merged.symm, List.nodup_nil, Nat.zero_le _, ?_⟩, .empty, merged.symm⟩
      exact decide_eq_false_iff_not.trans (not_not.trans (List.length_eq_zero_iff.trans eq_comm))
    · obtain ⟨buffer, made, fresh, capacity, empty⟩ := created fits
      have beside := sound.beside zero fresh capacity empty
        (TxHistory.resolveCutoffUnixMs round call.options.toMergeOptions call.dateNow)
        (call.incomingRows.getD [])
      have kept := beside.kept store.rows
      have returns := TxLiveStore.snapshot.eq_1 read round store call
      rw [if_neg zero, made] at returns
      rw [mergeCall, mergeTransactionHistory, if_neg zero]
      dsimp only [Option.getD_some]
      rw [← apply_ite Merge.merged]
      exact ⟨_, _, returns, kept⟩
  · intro tooLong
    have positive : resolveCap call.options.maxItems ≠ 0 := by omega
    rw [TxLiveStore.snapshot, if_neg positive, refused tooLong]
    rfl

end Invariant

/-! ## Over a run -/

section Run

variable {Row : Type} [DecidableEq Row] (read : Row → TxSummary) (round : ℚ → JsNumber)

theorem TxLiveStore.Sound.agrees_iff {store : TxLiveStore Row} (sound : store.Sound read)
    (ops : List (StoreOp Row)) :
    StoreAgrees read round store store.rows ops ↔
      ∀ call ∈ ops.filterMap StoreOp.call?, resolveCap call.options.maxItems < 2 ^ 32 := by
  induction ops generalizing store with
  | nil => exact iff_of_true trivial fun _ member => absurd member List.not_mem_nil
  | cons op rest ih =>
      cases op with
      | reset => exact ih .empty
      | snapshot call =>
          obtain ⟨returns, throws⟩ := sound.snapshot round call
          have calls : (StoreOp.snapshot call :: rest).filterMap StoreOp.call? =
              call :: rest.filterMap StoreOp.call? := rfl
          rw [calls, List.forall_mem_cons]
          constructor
          · rintro ⟨result, next, returned, -, later⟩
            have fits : resolveCap call.options.maxItems < 2 ^ 32 := by
              by_contra tooLong
              rw [throws (Nat.not_lt.mp tooLong)] at returned
              cases returned
            obtain ⟨result', next', returned', -, sound', rows'⟩ := returns fits
            obtain ⟨-, rfl⟩ := Prod.mk.inj (Except.ok.inj (returned.symm.trans returned'))
            exact ⟨fits, (ih sound').mp (rows' ▸ later)⟩
          · rintro ⟨fits, later⟩
            obtain ⟨result, next, returned, agrees, sound', rows'⟩ := returns fits
            exact ⟨result, next, returned, agrees, rows' ▸ (ih sound').mpr later⟩

/-- **The live store equals the plain merge** over the runs in which every cap is the length of some
array. The buffer of a snapshot is allocated whole, so with a cap from `2 ^ 32` on the store throws
where the merge returns rows. -/
theorem storeAgrees_iff (ops : List (StoreOp Row)) :
    StoreAgrees read round {} [] ops ↔
      ∀ call ∈ ops.filterMap StoreOp.call?, resolveCap call.options.maxItems < 2 ^ 32 :=
  TxLiveStore.Sound.empty.agrees_iff read round ops

end Run

/-- A pending transaction. -/
def pendingRow : TxSummary where
  hash := .string "0x01"
  sender := .string "0xaa"
  nonce := .number (.finite 7)
  txType := .number (.finite 2)
  seenUnixMs := .number (.finite 1700000000000)
  sourceId := .string "peer-a"
  chainId := .number (.finite 1)

/-- One row, and room for `2 ^ 32`. -/
def roomyCall : SnapshotCall Nat where
  incomingRows := some [some 0]
  options := { maxItems := .number (.finite 4294967296) }

theorem roomyCall_not_storeAgrees :
    mergeCall (fun _ => pendingRow) .finite [] roomyCall = [some 0] ∧
      ¬StoreAgrees (fun _ => pendingRow) .finite {} [] [.snapshot roomyCall] := by
  constructor
  · decide +kernel
  · rintro ⟨result, next, returned, -⟩
    have cap : 2 ^ 32 ≤ resolveCap roomyCall.options.maxItems := by decide +kernel
    rw [(TxLiveStore.Sound.empty.snapshot .finite roomyCall).2 cap] at returned
    cases returned

end Mempulse.WebUi
