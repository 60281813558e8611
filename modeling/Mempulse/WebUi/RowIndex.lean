import Mempulse.Library.Window
import Mempulse.WebUi.Values

/-!
# Row indexes

The dashboard keeps rows by a key, from one list of rows to the next. The index of a new list is the
previous map itself as long as nothing changes, and a copy of it from the first change on. Each row
is compared with the previous index and not with the copy, so of several rows of a key the last is
passed over when the previous index has it already (`indexAgrees_iff`).
-/

set_option autoImplicit false

namespace Mempulse.WebUi

open Library

/-! ## Maps in a heap -/

/-- A `Map` of rows. Its keys are not in the order of the source: only removals go through them. -/
abbrev RowMap : Type := AList fun _ : JsValue => JsValue

/-- A key that is missing gives `undefined`. -/
def RowMap.get (map : RowMap) (key : JsValue) : JsValue := (map.lookup key).getD .undefined

/-- The maps that were created. A map is referred to by its place, and `===` compares places. -/
abbrev MapHeap : Type := List RowMap

namespace MapHeap

/-- The map behind a reference. -/
def read (heap : MapHeap) (reference : Nat) : RowMap := heap[reference]?.getD ∅

/-- The heap with another map behind the reference. -/
def write (heap : MapHeap) (reference : Nat) (map : RowMap) : MapHeap := heap.set reference map

end MapHeap

/-! ## The index -/

/-- `key == null || key === ''`. -/
def missingKey (key : JsValue) : Bool := key = .undefined || key = .null || key = .string ""

/-- The index of a list of rows while it is built. -/
structure IndexDraft where
  nextIndex : Nat
  changed : Bool := false
  seenKeys : List JsValue := []
  heap : MapHeap

/-- The first change is made to a copy of the previous index. -/
def IndexDraft.copyOnce (draft : IndexDraft) (previousIndex : Nat) : IndexDraft :=
  if !draft.changed then
    { draft with
      nextIndex := draft.heap.length
      changed := true
      heap := draft.heap ++ [draft.heap.read previousIndex] }
  else draft

/-- Changes the draft's map, which is first copied when it is still the previous one. -/
def IndexDraft.edit (draft : IndexDraft) (previousIndex : Nat) (change : RowMap → RowMap) :
    IndexDraft :=
  let draft := draft.copyOnce previousIndex
  { draft with heap := draft.heap.write draft.nextIndex (change (draft.heap.read draft.nextIndex)) }

/-- The loop of a full rebuild. -/
def setRows (resolveKey : JsValue → JsValue) (next : Nat) : MapHeap → List JsValue → MapHeap
  | heap, [] => heap
  | heap, row :: rest =>
    let key := resolveKey row
    if missingKey key then setRows resolveKey next heap rest
    else setRows resolveKey next (heap.write next ((heap.read next).insert key row)) rest

/-- The loop over the rows. -/
def takeRows (resolveKey : JsValue → JsValue) (previousIndex : Nat) :
    IndexDraft → List JsValue → IndexDraft
  | draft, [] => draft
  | draft, row :: rest =>
    let key := resolveKey row
    if missingKey key then takeRows resolveKey previousIndex draft rest
    else
      let draft := { draft with seenKeys := draft.seenKeys ++ [key] }
      if ((draft.heap.read previousIndex).get key).strictEquals row then
        takeRows resolveKey previousIndex draft rest
      else
        takeRows resolveKey previousIndex (draft.edit previousIndex (·.insert key row)) rest

/-- The loop over the keys to check. -/
def dropKeys (previousIndex : Nat) : IndexDraft → List JsValue → IndexDraft
  | draft, [] => draft
  | draft, key :: rest =>
    if draft.seenKeys.contains key then dropKeys previousIndex draft rest
    else dropKeys previousIndex (draft.edit previousIndex (·.erase key)) rest

/-- The rows and the key function of a call; `none` is a value of another kind. -/
structure IndexCall where
  rows : Option (List JsValue)
  keyOf : Option (JsValue → JsValue) := none

section Build

variable (hashOf : JsValue → JsValue)

/-- `hashOf` is `row?.hash`. -/
def IndexCall.resolveKey (call : IndexCall) : JsValue → JsValue := call.keyOf.getD hashOf

/-- The index, and the maps that there are then. -/
def buildIncrementalRowIndex (heap : MapHeap) (previousIndex : Option Nat) (call : IndexCall) :
    Nat × MapHeap :=
  let sourceRows := call.rows.getD []
  match previousIndex with
  | none => (heap.length, setRows (call.resolveKey hashOf) heap.length (heap ++ [∅]) sourceRows)
  | some previousIndex =>
    let taken := takeRows (call.resolveKey hashOf) previousIndex
      { nextIndex := previousIndex, heap := heap } sourceRows
    let keysToCheck :=
      if taken.changed then (taken.heap.read taken.nextIndex).keys
      else (taken.heap.read previousIndex).keys
    let draft := dropKeys previousIndex taken keysToCheck
    (if draft.changed then draft.nextIndex else previousIndex, draft.heap)

/-- The map that a call returns. -/
def builtIndex (heap : MapHeap) (previousIndex : Option Nat) (call : IndexCall) : RowMap :=
  let built := buildIncrementalRowIndex hashOf heap previousIndex call
  built.2.read built.1

/-- **The incremental index agrees with the full rebuild**: it has the same rows under the same keys,
no map there was is mutated, and it is the previous map itself exactly when the rows are the same. -/
structure IndexAgrees (heap : MapHeap) (previousIndex : Nat) (call : IndexCall) : Prop where
  same : ∀ key, (builtIndex hashOf heap (some previousIndex) call).lookup key =
    (builtIndex hashOf heap none call).lookup key
  kept : ∀ reference, reference < heap.length →
    (buildIncrementalRowIndex hashOf heap (some previousIndex) call).2[reference]? =
      heap[reference]?
  itself : (buildIncrementalRowIndex hashOf heap (some previousIndex) call).1 = previousIndex ↔
    ∀ key, (builtIndex hashOf heap (some previousIndex) call).lookup key =
      (heap.read previousIndex).lookup key

end Build

/-! ## Entries -/

/-- The rows that have a key, with their keys. -/
def keyedRows (resolveKey : JsValue → JsValue) (rows : List JsValue) : List (JsValue × JsValue) :=
  (rows.map fun row => (resolveKey row, row)).filter fun entry => !missingKey entry.1

/-- The entry is not what the previous index has. -/
def strays (previous : RowMap) (entry : JsValue × JsValue) : Bool :=
  !(previous.get entry.1).strictEquals entry.2

/-- The map with the entries written one by one. -/
def insertAll (map : RowMap) (entries : List (JsValue × JsValue)) : RowMap :=
  entries.foldl (fun map entry => map.insert entry.1 entry.2) map

/-- The map without the keys. -/
def eraseAll (map : RowMap) (keys : List JsValue) : RowMap :=
  keys.foldl (fun map key => map.erase key) map

theorem keyedRows_cons (resolveKey : JsValue → JsValue) (row : JsValue) (rest : List JsValue) :
    keyedRows resolveKey (row :: rest) =
      if missingKey (resolveKey row) then keyedRows resolveKey rest
      else (resolveKey row, row) :: keyedRows resolveKey rest := by
  rw [keyedRows, List.map_cons, List.filter_cons]
  cases missing : missingKey (resolveKey row) <;> rfl

/-- The last row of a key stays. -/
theorem lookup_insertAll (map : RowMap) (entries : List (JsValue × JsValue)) (key : JsValue) :
    (insertAll map entries).lookup key =
      ((latest Prod.fst key entries).map Prod.snd).or (map.lookup key) := by
  induction entries generalizing map with
  | nil => rfl
  | cons entry rest ih =>
      have first : (map.insert entry.1 entry.2).lookup key =
          ((if entry.1 = key then some entry else none).map Prod.snd).or (map.lookup key) := by
        by_cases own : entry.1 = key
        · subst own
          rw [AList.lookup_insert, if_pos rfl]
          rfl
        · rw [AList.lookup_insert_ne (Ne.symm own), if_neg own]
          rfl
      rw [insertAll, List.foldl_cons, ← insertAll, ih, first, latest_cons]
      cases latest Prod.fst key rest <;> rfl

theorem lookup_eraseAll (map : RowMap) (keys : List JsValue) (key : JsValue) :
    (eraseAll map keys).lookup key = if key ∈ keys then none else map.lookup key := by
  induction keys generalizing map with
  | nil => rfl
  | cons first rest ih =>
      rw [eraseAll, List.foldl_cons, ← eraseAll, ih]
      by_cases own : key = first
      · subst own
        rw [AList.lookup_erase, if_pos List.mem_cons_self, ite_self]
      · rw [AList.lookup_erase_ne own]
        simp only [List.mem_cons, own, false_or]

/-! ## The rebuilt index -/

theorem MapHeap.read_concat (heap : MapHeap) (map : RowMap) :
    MapHeap.read (heap ++ [map]) heap.length = map := by
  rw [read, List.getElem?_concat_length]
  rfl

theorem MapHeap.write_concat (heap : MapHeap) (map next : RowMap) :
    MapHeap.write (heap ++ [map]) heap.length next = heap ++ [next] := by
  rw [write, List.set_append_right _ _ (Nat.le_refl _), Nat.sub_self, List.set_cons_zero]

theorem setRows_eq (resolveKey : JsValue → JsValue) (heap : MapHeap) (map : RowMap)
    (rows : List JsValue) :
    setRows resolveKey heap.length (heap ++ [map]) rows =
      heap ++ [insertAll map (keyedRows resolveKey rows)] := by
  induction rows generalizing map with
  | nil => rfl
  | cons row rest ih =>
      rw [setRows, keyedRows_cons]
      split
      case isTrue => exact ih map
      case isFalse =>
        rw [MapHeap.read_concat, MapHeap.write_concat]
        exact ih _

/-- A full rebuild has the last row of each key. -/
theorem lookup_rebuilt (hashOf : JsValue → JsValue) (heap : MapHeap) (call : IndexCall)
    (key : JsValue) :
    (builtIndex hashOf heap none call).lookup key =
      (latest Prod.fst key (keyedRows (call.resolveKey hashOf) (call.rows.getD []))).map
        Prod.snd := by
  rw [builtIndex, buildIncrementalRowIndex]
  dsimp only
  rw [setRows_eq, MapHeap.read_concat, lookup_insertAll, AList.lookup_empty, Option.or_none]

/-! ## Drafts -/

/-- A draft is the previous index itself, or a copy of it behind the other maps. -/
inductive Drafts (heap : MapHeap) (previousIndex : Nat) : IndexDraft → RowMap → Prop
  | untouched (seenKeys : List JsValue) :
      Drafts heap previousIndex
        { nextIndex := previousIndex, seenKeys := seenKeys, heap := heap }
        (heap.read previousIndex)
  | copied (seenKeys : List JsValue) (map : RowMap) :
      Drafts heap previousIndex
        { nextIndex := heap.length, changed := true, seenKeys := seenKeys, heap := heap ++ [map] }
        map

namespace Drafts

variable {heap : MapHeap} {previousIndex : Nat} {draft : IndexDraft} {map : RowMap}

theorem see (drafts : Drafts heap previousIndex draft map) (seenKeys : List JsValue) :
    Drafts heap previousIndex { draft with seenKeys := seenKeys } map := by
  cases drafts with
  | untouched => exact .untouched seenKeys
  | copied => exact .copied seenKeys map

/-- The previous index is not mutated. -/
theorem read_previous (drafts : Drafts heap previousIndex draft map)
    (listed : previousIndex < heap.length) :
    draft.heap.read previousIndex = heap.read previousIndex := by
  cases drafts with
  | untouched => rfl
  | copied => rw [MapHeap.read, List.getElem?_append_left listed, ← MapHeap.read]

theorem read_next (drafts : Drafts heap previousIndex draft map) :
    draft.heap.read draft.nextIndex = map := by
  cases drafts with
  | untouched => rfl
  | copied => exact heap.read_concat map

theorem returned (drafts : Drafts heap previousIndex draft map) :
    (if draft.changed then draft.nextIndex else previousIndex) = draft.nextIndex := by
  cases drafts with
  | untouched => rfl
  | copied => rfl

/-- An untouched draft is the previous index. -/
theorem nextIndex_eq_iff (drafts : Drafts heap previousIndex draft map)
    (listed : previousIndex < heap.length) :
    draft.nextIndex = previousIndex ↔ ¬ draft.changed = true := by
  cases drafts with
  | untouched => exact iff_of_true rfl Bool.false_ne_true
  | copied => exact iff_of_false listed.ne' (not_not.mpr rfl)

/-- The maps there were stay as they are. -/
theorem kept (drafts : Drafts heap previousIndex draft map) {reference : Nat}
    (there : reference < heap.length) : draft.heap[reference]? = heap[reference]? := by
  cases drafts with
  | untouched => rfl
  | copied => exact List.getElem?_append_left there

theorem edit (drafts : Drafts heap previousIndex draft map) (change : RowMap → RowMap) :
    draft.edit previousIndex change =
      { nextIndex := heap.length
        changed := true
        seenKeys := draft.seenKeys
        heap := heap ++ [change map] } := by
  cases drafts with
  | untouched =>
      simp only [IndexDraft.edit, IndexDraft.copyOnce, Bool.not_false, if_true,
        MapHeap.read_concat, MapHeap.write_concat]
  | copied =>
      simp only [IndexDraft.edit, IndexDraft.copyOnce, Bool.not_true, Bool.false_eq_true, if_false,
        MapHeap.read_concat, MapHeap.write_concat]

/-- What the loop over the rows leaves: the entries that stray from the previous index are set. -/
theorem takeRows (drafts : Drafts heap previousIndex draft map)
    (listed : previousIndex < heap.length) (resolveKey : JsValue → JsValue) (rows : List JsValue) :
    Drafts heap previousIndex (WebUi.takeRows resolveKey previousIndex draft rows)
        (insertAll map ((keyedRows resolveKey rows).filter (strays (heap.read previousIndex)))) ∧
      ((WebUi.takeRows resolveKey previousIndex draft rows).changed = true ↔
        draft.changed = true ∨
          (keyedRows resolveKey rows).filter (strays (heap.read previousIndex)) ≠ []) ∧
      (WebUi.takeRows resolveKey previousIndex draft rows).seenKeys =
        draft.seenKeys ++ (keyedRows resolveKey rows).map Prod.fst := by
  induction rows generalizing draft map with
  | nil => exact ⟨drafts, (or_iff_left fun some => some rfl).symm, (List.append_nil _).symm⟩
  | cons row rest ih =>
      rw [WebUi.takeRows, keyedRows_cons]
      dsimp only
      by_cases missing : missingKey (resolveKey row) = true
      · rw [if_pos missing, if_pos missing]
        exact ih drafts
      · have seen := drafts.see (draft.seenKeys ++ [resolveKey row])
        rw [if_neg missing, if_neg missing, List.filter_cons, List.map_cons]
        have previous := drafts.read_previous listed
        by_cases same : ((heap.read previousIndex).get (resolveKey row)).strictEquals row = true
        · have stays : ¬ strays (heap.read previousIndex) (resolveKey row, row) = true := by
            rw [strays, same]
            exact Bool.false_ne_true
          obtain ⟨left, changed, keys⟩ := ih seen
          rw [previous, if_pos same, if_neg stays]
          refine ⟨left, changed, keys.trans ?_⟩
          rw [List.append_assoc]
          rfl
        · have moves : strays (heap.read previousIndex) (resolveKey row, row) = true := by
            rw [strays, Bool.eq_false_of_not_eq_true same]
            rfl
          rw [previous, if_neg same, if_pos moves, seen.edit]
          obtain ⟨left, changed, keys⟩ := ih (.copied (draft.seenKeys ++ [resolveKey row])
            (map.insert (resolveKey row) row))
          refine ⟨left, iff_of_true (changed.mpr (.inl rfl)) (.inr (List.cons_ne_nil _ _)),
            keys.trans ?_⟩
          rw [List.append_assoc]
          rfl

/-- What the loop over the keys leaves: those that were not seen are removed. -/
theorem dropKeys (drafts : Drafts heap previousIndex draft map) (keys : List JsValue) :
    Drafts heap previousIndex (WebUi.dropKeys previousIndex draft keys)
        (eraseAll map (keys.filter fun key => key ∉ draft.seenKeys)) ∧
      ((WebUi.dropKeys previousIndex draft keys).changed = true ↔
        draft.changed = true ∨ ∃ key ∈ keys, key ∉ draft.seenKeys) := by
  induction keys generalizing draft map with
  | nil => exact ⟨drafts, by simp [WebUi.dropKeys]⟩
  | cons key rest ih =>
      rw [WebUi.dropKeys]
      by_cases seen : key ∈ draft.seenKeys
      · obtain ⟨left, changed⟩ := ih drafts
        rw [if_pos (List.contains_iff_mem.mpr seen),
          List.filter_cons_of_neg (by simpa using seen)]
        refine ⟨left, changed.trans ?_⟩
        simp [seen]
      · rw [if_neg (mt List.contains_iff_mem.mp seen), drafts.edit,
          List.filter_cons_of_pos (by simpa using seen)]
        obtain ⟨left, changed⟩ := ih (.copied draft.seenKeys (map.erase key))
        exact ⟨left, iff_of_true (changed.mpr (.inl rfl)) (.inr ⟨key, List.mem_cons_self, seen⟩)⟩

end Drafts

/-! ## The incremental index -/

/-- The rows under a key after the loop over the rows. -/
def takenRow (previous : RowMap) (entries : List (JsValue × JsValue)) (key : JsValue) :
    Option JsValue :=
  ((latest Prod.fst key (entries.filter (strays previous))).map Prod.snd).or (previous.lookup key)

theorem takenRow_of_unseen {previous : RowMap} {entries : List (JsValue × JsValue)} {key : JsValue}
    (unseen : key ∉ entries.map Prod.fst) :
    takenRow previous entries key = previous.lookup key := by
  have none : latest Prod.fst key (entries.filter (strays previous)) = none := by
    rw [latest_eq_none_iff]
    exact fun member => unseen ((List.filter_sublist.map Prod.fst).subset member)
  rw [takenRow, none]
  rfl

section Incremental

variable {hashOf : JsValue → JsValue} {heap : MapHeap} {previousIndex : Nat}

/-- What an incremental call returns. -/
structure Incremental (heap : MapHeap) (previousIndex : Nat)
    (entries : List (JsValue × JsValue)) (draft : IndexDraft) (map : RowMap) : Prop where
  drafts : Drafts heap previousIndex draft map
  found : ∀ key, map.lookup key =
    if key ∈ entries.map Prod.fst then takenRow (heap.read previousIndex) entries key else none
  changed : draft.changed = true ↔
    entries.filter (strays (heap.read previousIndex)) ≠ [] ∨
      ∃ key ∈ heap.read previousIndex, key ∉ entries.map Prod.fst

theorem incremental_build (hashOf : JsValue → JsValue) (listed : previousIndex < heap.length)
    (call : IndexCall) :
    ∃ draft map,
      buildIncrementalRowIndex hashOf heap (some previousIndex) call =
        (draft.nextIndex, draft.heap) ∧
      Incremental heap previousIndex (keyedRows (call.resolveKey hashOf) (call.rows.getD [])) draft
        map := by
  have start : Drafts heap previousIndex { nextIndex := previousIndex, heap := heap }
      (heap.read previousIndex) := .untouched []
  obtain ⟨drafts, moved, seen⟩ :=
    start.takeRows listed (call.resolveKey hashOf) (call.rows.getD [])
  generalize entriesEq : keyedRows (call.resolveKey hashOf) (call.rows.getD []) = entries
    at drafts moved seen
  generalize takenEq : takeRows (call.resolveKey hashOf) previousIndex
    { nextIndex := previousIndex, heap := heap } (call.rows.getD []) = taken at drafts moved seen
  have moved : taken.changed = true ↔ entries.filter (strays (heap.read previousIndex)) ≠ [] :=
    moved.trans (or_iff_right Bool.false_ne_true)
  have keys : (if taken.changed then (taken.heap.read taken.nextIndex).keys
      else (taken.heap.read previousIndex).keys) =
        (insertAll (heap.read previousIndex)
          (entries.filter (strays (heap.read previousIndex)))).keys := by
    by_cases changed : taken.changed = true
    · rw [if_pos changed, drafts.read_next]
    · rw [if_neg changed, drafts.read_previous listed, not_not.mp (mt moved.mpr changed)]
      rfl
  obtain ⟨dropped, removed⟩ := drafts.dropKeys (insertAll (heap.read previousIndex)
    (entries.filter (strays (heap.read previousIndex)))).keys
  rw [seen, List.nil_append] at dropped removed
  have taken_lookup : ∀ key, (insertAll (heap.read previousIndex)
      (entries.filter (strays (heap.read previousIndex)))).lookup key =
        takenRow (heap.read previousIndex) entries key := lookup_insertAll _ _
  refine ⟨_, _, ?_, dropped, fun key => ?_, ?_⟩
  · rw [buildIncrementalRowIndex, takenEq, keys]
    exact Prod.ext dropped.returned rfl
  · rw [lookup_eraseAll, taken_lookup]
    by_cases own : key ∈ entries.map Prod.fst
    · rw [if_pos own, if_neg fun member => by simpa [own] using (List.mem_filter.mp member).2]
    · rw [if_neg own]
      split
      case isTrue => rfl
      case isFalse kept =>
        rw [← taken_lookup, AList.lookup_eq_none, AList.mem_keys]
        exact fun member => kept (List.mem_filter.mpr ⟨member, decide_eq_true own⟩)
  · rw [removed, moved]
    refine or_congr_right (exists_congr fun key => and_congr_left fun unseen => ?_)
    rw [← AList.mem_keys, ← AList.lookup_isSome, taken_lookup, takenRow_of_unseen unseen,
      AList.lookup_isSome]

end Incremental

/-! ## Agreement -/

/-- The rows do not come back to what the previous index has: where the last row of a key is the one
the previous index gives for it, the previous index has the key and the key has no other row. And
rows that are those of the previous index are no `NaN`, which is not `===` to itself. -/
structure Settled (previous : RowMap) (entries : List (JsValue × JsValue)) : Prop where
  lasting : ∀ last, latest Prod.fst last.1 entries = some last →
    (previous.get last.1).strictEquals last.2 = true →
      previous.lookup last.1 = some last.2 ∧
        ∀ entry ∈ entries, entry.1 = last.1 → entry.2 = last.2
  numbers : (∀ key, (latest Prod.fst key entries).map Prod.snd = previous.lookup key) →
    ∀ entry ∈ entries, entry.2 ≠ .number .nan

theorem JsValue.strictEquals_iff {left right : JsValue} :
    left.strictEquals right = true ↔ left = right ∧ right ≠ .number .nan := by
  rw [strictEquals, Bool.and_eq_true, decide_eq_true_iff, decide_eq_true_iff]
  refine and_congr_right fun same => ?_
  rw [same]

section Agreement

variable {previous : RowMap} {entries : List (JsValue × JsValue)}

/-- The last row of a key that strays is taken. -/
theorem latest_filter_strays {last : JsValue × JsValue} {key : JsValue}
    (isLast : latest Prod.fst key entries = some last) (moves : strays previous last = true) :
    latest Prod.fst key (entries.filter (strays previous)) = some last := by
  rw [latest] at isLast ⊢
  obtain ⟨front, shape⟩ := List.getLast?_eq_some_iff.mp isLast
  rw [List.filter_comm, shape, List.filter_append, List.filter_cons_of_pos moves, List.filter_nil,
    List.getLast?_concat]

theorem takenRow_eq_iff {last : JsValue × JsValue}
    (isLast : latest Prod.fst last.1 entries = some last) :
    takenRow previous entries last.1 = some last.2 ↔
      ((previous.get last.1).strictEquals last.2 = true →
        previous.lookup last.1 = some last.2 ∧
          ∀ entry ∈ entries, entry.1 = last.1 → entry.2 = last.2) := by
  by_cases same : (previous.get last.1).strictEquals last.2 = true
  · have strict := JsValue.strictEquals_iff.mp same
    rw [imp_iff_right same]
    cases taken : latest Prod.fst last.1 (entries.filter (strays previous)) with
    | none =>
        have every : ∀ entry ∈ entries, entry.1 = last.1 → entry.2 = last.2 := by
          intro entry member own
          have stays : ¬ strays previous entry = true := fun moves =>
            (latest_eq_none_iff _ _).mp taken
              (own ▸ List.mem_map_of_mem (List.mem_filter.mpr ⟨member, moves⟩))
          rw [strays, Bool.not_eq_true', Bool.not_eq_false, own] at stays
          exact (JsValue.strictEquals_iff.mp stays).1.symm.trans strict.1
        rw [takenRow, taken]
        exact (and_iff_left every).symm
    | some stray =>
        obtain ⟨member, own⟩ := mem_of_latest _ _ taken
        obtain ⟨listed, moves⟩ := List.mem_filter.mp member
        have differs : stray.2 ≠ last.2 := by
          intro equal
          rw [strays, own, equal, same] at moves
          exact Bool.false_ne_true moves
        rw [takenRow, taken]
        exact iff_of_false (fun row => differs (Option.some.inj row))
          fun both => differs (both.2 stray listed own)
  · have moves : strays previous last = true := by
      rw [strays, Bool.eq_false_of_not_eq_true same]
      rfl
    rw [takenRow, latest_filter_strays isLast moves]
    exact iff_of_true rfl fun equal => absurd equal same

variable {heap : MapHeap} {previousIndex : Nat} {draft : IndexDraft} {map : RowMap}

/-- When an incremental index has the rows of a full rebuild. -/
theorem Incremental.same_iff (incremental : Incremental heap previousIndex entries draft map) :
    (∀ key, map.lookup key = (latest Prod.fst key entries).map Prod.snd) ↔
      ∀ last, latest Prod.fst last.1 entries = some last →
        ((heap.read previousIndex).get last.1).strictEquals last.2 = true →
          (heap.read previousIndex).lookup last.1 = some last.2 ∧
            ∀ entry ∈ entries, entry.1 = last.1 → entry.2 = last.2 := by
  constructor
  · intro same last isLast
    have row := same last.1
    rw [incremental.found, isLast, if_pos (List.mem_map_of_mem (mem_of_latest _ _ isLast).1)] at row
    exact (takenRow_eq_iff isLast).mp row
  · intro lasting key
    rw [incremental.found]
    by_cases own : key ∈ entries.map Prod.fst
    · rw [if_pos own]
      cases isLast : latest Prod.fst key entries with
      | none => exact absurd own ((latest_eq_none_iff _ _).mp isLast)
      | some last =>
          obtain ⟨-, rfl⟩ := mem_of_latest _ _ isLast
          exact (takenRow_eq_iff isLast).mpr (lasting last isLast)
    · rw [if_neg own, (latest_eq_none_iff _ _).mpr own]
      rfl

theorem Drafts.map_eq (drafts : Drafts heap previousIndex draft map)
    (unchanged : ¬ draft.changed = true) : map = heap.read previousIndex := by
  cases drafts with
  | untouched => rfl
  | copied => exact absurd rfl unchanged

/-- When an incremental index with the right rows is the previous map exactly as it should be. -/
theorem Incremental.itself_iff (incremental : Incremental heap previousIndex entries draft map)
    (same : ∀ key, map.lookup key = (latest Prod.fst key entries).map Prod.snd) :
    (¬ draft.changed = true ↔ ∀ key, map.lookup key = (heap.read previousIndex).lookup key) ↔
      ((∀ key, (latest Prod.fst key entries).map Prod.snd =
        (heap.read previousIndex).lookup key) →
          ∀ entry ∈ entries, entry.2 ≠ .number .nan) := by
  constructor
  · intro itself equal entry member number
    have unchanged := itself.mpr fun key => (same key).trans (equal key)
    have moves : strays (heap.read previousIndex) entry = true := by
      rw [strays, Bool.not_eq_true', ← Bool.not_eq_true]
      exact fun strict => (JsValue.strictEquals_iff.mp strict).2 number
    exact unchanged (incremental.changed.mpr
      (.inl (List.ne_nil_of_mem (List.mem_filter.mpr ⟨member, moves⟩))))
  · intro numbers
    refine ⟨fun unchanged key => by rw [incremental.drafts.map_eq unchanged],
      fun equal changed => ?_⟩
    have rows := fun key => (same key).symm.trans (equal key)
    rcases incremental.changed.mp changed with moved | ⟨key, present, unseen⟩
    · -- the last row of a key that strays is the one the previous index has
      obtain ⟨stray, inMoved⟩ := List.exists_mem_of_ne_nil _ moved
      obtain ⟨member, moves⟩ := List.mem_filter.mp inMoved
      cases isLast : latest Prod.fst stray.1 entries with
      | none => exact (latest_eq_none_iff _ _).mp isLast (List.mem_map_of_mem member)
      | some last =>
          obtain ⟨listed, own⟩ := mem_of_latest _ _ isLast
          have row := rows stray.1
          rw [isLast, ← own] at row
          have strict : ((heap.read previousIndex).get last.1).strictEquals last.2 = true := by
            rw [JsValue.strictEquals_iff, RowMap.get, ← row]
            exact ⟨rfl, numbers rows last listed⟩
          have every := (incremental.same_iff.mp same last (own ▸ isLast) strict).2
          rw [strays, every stray member own.symm, ← own, strict] at moves
          exact Bool.false_ne_true moves
    · have row := rows key
      rw [(latest_eq_none_iff _ _).mpr unseen] at row
      exact AList.lookup_eq_none.mp row.symm present

end Agreement

/-- **When the incremental index agrees with the full rebuild**, for every map there is as the
previous index. -/
theorem indexAgrees_iff (hashOf : JsValue → JsValue) {heap : MapHeap} {previousIndex : Nat}
    (listed : previousIndex < heap.length) (call : IndexCall) :
    IndexAgrees hashOf heap previousIndex call ↔
      Settled (heap.read previousIndex)
        (keyedRows (call.resolveKey hashOf) (call.rows.getD [])) := by
  obtain ⟨draft, map, returned, incremental⟩ := incremental_build hashOf listed call
  have built : builtIndex hashOf heap (some previousIndex) call = map := by
    rw [builtIndex, returned]
    exact incremental.drafts.read_next
  have itself : (buildIncrementalRowIndex hashOf heap (some previousIndex) call).1 = previousIndex ↔
      ¬ draft.changed = true := by
    rw [returned]
    exact incremental.drafts.nextIndex_eq_iff listed
  have same : (∀ key, (builtIndex hashOf heap (some previousIndex) call).lookup key =
      (builtIndex hashOf heap none call).lookup key) ↔ ∀ key, map.lookup key =
        (latest Prod.fst key (keyedRows (call.resolveKey hashOf) (call.rows.getD []))).map
          Prod.snd := by
    simp only [built, lookup_rebuilt]
  constructor
  · intro agrees
    have rows := same.mp agrees.same
    refine ⟨incremental.same_iff.mp rows, (incremental.itself_iff rows).mp ?_⟩
    rw [← itself, agrees.itself, built]
  · intro settled
    have rows := incremental.same_iff.mpr settled.lasting
    refine ⟨same.mpr rows, fun reference there => ?_, ?_⟩
    · rw [returned]
      exact incremental.drafts.kept there
    · rw [itself, built]
      exact (incremental.itself_iff rows).mpr settled.numbers

/-- Every index that is built is a map there is. -/
theorem buildIncrementalRowIndex_listed (hashOf : JsValue → JsValue) (heap : MapHeap)
    {previousIndex : Option Nat} (listed : ∀ reference ∈ previousIndex, reference < heap.length)
    (call : IndexCall) :
    (buildIncrementalRowIndex hashOf heap previousIndex call).1 <
      (buildIncrementalRowIndex hashOf heap previousIndex call).2.length := by
  cases previousIndex with
  | none =>
      rw [buildIncrementalRowIndex, setRows_eq, List.length_append]
      exact Nat.lt_succ_self _
  | some previousIndex =>
      have there := listed previousIndex rfl
      obtain ⟨draft, map, returned, incremental⟩ := incremental_build hashOf there call
      rw [returned]
      cases incremental.drafts with
      | untouched => exact there
      | copied =>
          rw [List.length_append]
          exact Nat.lt_succ_self _

/-! ## The key of an opportunity -/

/-- The fields of an opportunity that are read, `undefined` where there is none. -/
structure OpportunityFields where
  txHash : JsValue
  strategy : JsValue
  detectedUnixMs : JsValue

/-- `value ?? ''`. -/
def orEmpty (value : JsValue) : JsValue :=
  if value = .undefined || value = .null then .string "" else value

/-- `text` is `String(value)`. -/
def opportunityRowKey (text : JsValue → String) (read : JsValue → OpportunityFields)
    (opportunity : JsValue) : JsValue :=
  let txHash := text (orEmpty (read opportunity).txHash)
  let strategy := text (orEmpty (read opportunity).strategy)
  let detectedUnixMs :=
    if (read opportunity).detectedUnixMs.finite?.isSome then text (read opportunity).detectedUnixMs
    else ""
  .string (txHash ++ "::" ++ strategy ++ "::" ++ detectedUnixMs)

/-- Every row has a key, even one that is `undefined`. -/
theorem missingKey_opportunityRowKey (text : JsValue → String) (read : JsValue → OpportunityFields)
    (opportunity : JsValue) : missingKey (opportunityRowKey text read opportunity) = false := by
  have colons : ∀ front middle back : String, front ++ "::" ++ middle ++ "::" ++ back ≠ "" := by
    intro front middle back empty
    have lengths := congrArg String.length empty
    simp only [String.length_append] at lengths
    have two : "::".length = 2 := by decide
    have none : "".length = 0 := by decide
    omega
  simp [missingKey, opportunityRowKey, colons]

/-! ## Samples -/

/-- The hash of three objects, of which the last two have the same. -/
def hashOfObject : JsValue → JsValue
  | .object 0 => .string "0x1"
  | .object _ => .string "0x2"
  | _ => .undefined

/-- A call with one row. -/
def oneRow : IndexCall where
  rows := some [.object 1]

/-- The index of one row is brought up to date when another one comes in. -/
theorem secondRow_indexAgrees :
    IndexAgrees hashOfObject (buildIncrementalRowIndex hashOfObject [] none oneRow).2
      (buildIncrementalRowIndex hashOfObject [] none oneRow).1
      { rows := some [.object 0, .object 1, .null] } := by
  have listed := buildIncrementalRowIndex_listed hashOfObject []
    (fun reference absent => absurd absent (Option.not_mem_none reference)) oneRow
  refine (indexAgrees_iff hashOfObject listed _).mpr
    ⟨fun last isLast strict => ?_, fun _ => by decide +kernel⟩
  have entries : keyedRows hashOfObject [.object 0, .object 1, .null] =
      [(.string "0x1", .object 0), (.string "0x2", .object 1)] := by decide +kernel
  have member := (mem_of_latest _ _ isLast).1
  change last ∈ keyedRows hashOfObject [.object 0, .object 1, .null] at member
  rw [entries, List.mem_cons, List.mem_singleton] at member
  rcases member with rfl | rfl
  · exact absurd strict (by decide +kernel)
  · exact ⟨by decide +kernel, by decide +kernel⟩

/-- Of two rows of one key, the last of which the previous index has, the first is kept. -/
theorem repeatedKey_not_indexAgrees :
    ¬ IndexAgrees hashOfObject (buildIncrementalRowIndex hashOfObject [] none oneRow).2
      (buildIncrementalRowIndex hashOfObject [] none oneRow).1
      { rows := some [.object 2, .object 1] } := by
  intro agrees
  have same := agrees.same (.string "0x2")
  revert same
  decide +kernel

end Mempulse.WebUi
