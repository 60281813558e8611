import Mempulse.Library.Window
import Mempulse.WebUi.Values

/-!
# The circular buffer

The buffer keeps its values in an array of its capacity, from a head on, and wraps around. A push
into a full buffer overwrites the oldest value, so the buffer has the last values that were pushed.
Its operations follow those of a trimmed list (`followsList_iff`), while there is an array of each
capacity that they set.
-/

set_option autoImplicit false

namespace Mempulse.WebUi

open Library

/-! ## The buffer -/

/-- The buffer: a storage array, the oldest element's index and how many there are. -/
structure CircularBuffer (α : Type) where
  capacity : Nat
  storage : List α
  head : Nat := 0
  length : Nat := 0

/-- A capacity that is no finite number is none. -/
def normalizeCapacity (capacity : JsValue) : Nat :=
  match capacity.finite? with
  | none => 0
  | some capacity => floorFromZero capacity

/-- An empty buffer, or the error of an array too long. -/
def createCircularBuffer (α : Type) [Inhabited α] (initialCapacity : JsValue) :
    Except RangeError (CircularBuffer α) := do
  let capacity := normalizeCapacity initialCapacity
  let storage ← newArray α capacity
  return { capacity := capacity, storage := storage }

namespace CircularBuffer

variable {α : Type} [Inhabited α]

/-- `storage[index] = value`: an array grows to a place behind its end. -/
def writeAt (storage : List α) (index : Nat) (value : α) : List α :=
  if index < storage.length then storage.set index value
  else storage ++ List.replicate (index - storage.length) default ++ [value]

theorem writeAt_of_lt {storage : List α} {index : Nat} (inside : index < storage.length) (value : α) :
    writeAt storage index value = storage.set index value :=
  if_pos inside

/-- Writes behind the newest element; a full buffer overwrites the oldest. -/
def push (buffer : CircularBuffer α) (value : α) : CircularBuffer α :=
  if buffer.capacity = 0 then buffer
  else if buffer.length < buffer.capacity then
    { buffer with
      storage := writeAt buffer.storage ((buffer.head + buffer.length) % buffer.capacity) value
      length := buffer.length + 1 }
  else
    { buffer with
      storage := writeAt buffer.storage buffer.head value
      head := (buffer.head + 1) % buffer.capacity }

omit [Inhabited α] in
/-- How many elements there are. -/
def size (buffer : CircularBuffer α) : Nat := buffer.length

/-- The value behind the head by an offset. -/
def valueAt (buffer : CircularBuffer α) (index : Nat) : α :=
  buffer.storage.getD ((buffer.head + index) % buffer.capacity) default

/-- The elements, oldest first. -/
def toArray (buffer : CircularBuffer α) : List α :=
  if buffer.length = 0 then [] else (List.range buffer.length).map buffer.valueAt

/-- Pushes the values one by one. -/
def appendMany (buffer : CircularBuffer α) (values : Option (List α)) : CircularBuffer α :=
  (values.getD []).foldl push buffer

/-- An empty storage of the same capacity. -/
def clear (buffer : CircularBuffer α) : Except RangeError Unit × CircularBuffer α :=
  match newArray α buffer.capacity with
  | .error error => (.error error, buffer)
  | .ok storage => (.ok (), { capacity := buffer.capacity, storage := storage })

/-- The capacity is assigned before the array is allocated, and stays when there is none. -/
def setCapacity (buffer : CircularBuffer α) (nextCapacity : JsValue) :
    Except RangeError Unit × CircularBuffer α :=
  let normalizedCapacity := normalizeCapacity nextCapacity
  if normalizedCapacity = buffer.capacity then (.ok (), buffer)
  else
    let preserved := buffer.toArray
    match newArray α normalizedCapacity with
    | .error error => (.error error, { buffer with capacity := normalizedCapacity })
    | .ok storage =>
      let emptied : CircularBuffer α := { capacity := normalizedCapacity, storage := storage }
      if normalizedCapacity = 0 then (.ok (), emptied)
      else
        let startIndex := preserved.length - normalizedCapacity
        (.ok (), (preserved.drop startIndex).foldl push emptied)

/-! ## Pushes -/

omit [Inhabited α] in
/-- The array has the capacity, the head is in it and no more values are kept than fit. -/
structure Sound (buffer : CircularBuffer α) : Prop where
  stored : buffer.storage.length = buffer.capacity
  placed : 0 < buffer.capacity → buffer.head < buffer.capacity
  within : buffer.length ≤ buffer.capacity

theorem toArray_eq (buffer : CircularBuffer α) :
    buffer.toArray = (List.range buffer.length).map buffer.valueAt := by
  unfold toArray
  split
  case isTrue empty =>
    rw [empty]
    rfl
  case isFalse => rfl

@[simp] theorem length_toArray (buffer : CircularBuffer α) :
    buffer.toArray.length = buffer.size := by
  rw [toArray_eq, List.length_map, List.length_range, size]

/-- Places of different offsets are different. -/
theorem place_ne (head : Nat) {capacity index other : Nat} (apart : index < other)
    (inside : other < index + capacity) :
    (head + index) % capacity ≠ (head + other) % capacity := by
  intro same
  have divides : capacity ∣ other - index := by
    have difference : head + other - (head + index) = other - index := by omega
    exact difference ▸ Nat.dvd_of_mod_eq_zero (Nat.sub_mod_eq_zero_of_mod_eq same.symm)
  have least := Nat.le_of_dvd (by omega) divides
  omega

variable {buffer : CircularBuffer α}

theorem Sound.push (sound : buffer.Sound) (value : α) : (buffer.push value).Sound := by
  unfold CircularBuffer.push
  split
  · exact sound
  case isFalse some =>
    have positive : 0 < buffer.capacity := Nat.pos_of_ne_zero some
    split
    case isTrue room =>
      refine ⟨?_, sound.placed, room⟩
      dsimp only
      rw [writeAt_of_lt (sound.stored.symm ▸ Nat.mod_lt _ positive), List.length_set, sound.stored]
    case isFalse full =>
      refine ⟨?_, fun _ => Nat.mod_lt _ positive, sound.within⟩
      dsimp only
      rw [writeAt_of_lt (sound.stored.symm ▸ sound.placed positive), List.length_set, sound.stored]

@[simp] theorem capacity_push (buffer : CircularBuffer α) (value : α) :
    (buffer.push value).capacity = buffer.capacity := by
  unfold CircularBuffer.push
  split
  · rfl
  · split <;> rfl

/-- A buffer with room appends the value. -/
theorem toArray_push_of_room (sound : buffer.Sound) (value : α)
    (room : buffer.length < buffer.capacity) :
    (buffer.push value).toArray = buffer.toArray ++ [value] := by
  have positive : 0 < buffer.capacity := Nat.zero_lt_of_lt room
  have inside : (buffer.head + buffer.length) % buffer.capacity < buffer.storage.length := by
    rw [sound.stored]
    exact Nat.mod_lt _ positive
  have pushed : buffer.push value =
      { buffer with
        storage := buffer.storage.set ((buffer.head + buffer.length) % buffer.capacity) value
        length := buffer.length + 1 } := by
    rw [CircularBuffer.push, if_neg positive.ne', if_pos room, writeAt_of_lt inside]
  rw [toArray_eq, toArray_eq, pushed, List.range_succ, List.map_append, List.map_singleton]
  congr 1
  · refine List.map_congr_left fun index member => ?_
    have before := List.mem_range.mp member
    have apart := place_ne buffer.head before (by omega : buffer.length < index + buffer.capacity)
    simp only [valueAt, List.getD_eq_getElem?_getD, List.getElem?_set_ne apart.symm]
  · simp only [valueAt, List.getD_eq_getElem?_getD, List.getElem?_set_self inside, Option.getD_some]

/-- A full buffer gives up its oldest value. -/
theorem toArray_push_of_full (sound : buffer.Sound) (value : α) (positive : 0 < buffer.capacity)
    (full : buffer.length = buffer.capacity) :
    (buffer.push value).toArray = buffer.toArray.drop 1 ++ [value] := by
  have place := sound.placed positive
  have inside : buffer.head < buffer.storage.length := sound.stored.symm ▸ place
  have pushed : buffer.push value =
      { buffer with
        storage := buffer.storage.set buffer.head value
        head := (buffer.head + 1) % buffer.capacity } := by
    rw [CircularBuffer.push, if_neg positive.ne', if_neg (by omega), writeAt_of_lt inside]
  obtain ⟨last, count⟩ : ∃ last, buffer.length = last + 1 := ⟨buffer.length - 1, by omega⟩
  rw [toArray_eq, toArray_eq, pushed]
  change (List.range buffer.length).map _ = _
  rw [count, List.range_succ, List.map_append, List.map_singleton, ← List.map_drop,
    ← List.range_succ, List.range_succ_eq_map, List.drop_one, List.tail_cons, List.map_map]
  congr 1
  · refine List.map_congr_left fun index member => ?_
    have before := List.mem_range.mp member
    have apart := place_ne buffer.head (Nat.succ_pos index)
      (by omega : index + 1 < 0 + buffer.capacity)
    rw [Nat.add_zero, Nat.mod_eq_of_lt place] at apart
    simp only [valueAt, Function.comp_apply, List.getD_eq_getElem?_getD, Nat.mod_add_mod]
    rw [Nat.add_assoc, Nat.add_comm 1 index, List.getElem?_set_ne apart]
  · have wraps : ((buffer.head + 1) % buffer.capacity + last) % buffer.capacity = buffer.head := by
      rw [Nat.mod_add_mod, Nat.add_assoc, Nat.add_comm 1 last, ← count, full, Nat.add_mod_right,
        Nat.mod_eq_of_lt place]
    simp only [valueAt, wraps, List.getD_eq_getElem?_getD, List.getElem?_set_self inside,
      Option.getD_some]

/-- **A push keeps the last values.** -/
theorem toArray_push (sound : buffer.Sound) (value : α) :
    (buffer.push value).toArray = window buffer.capacity (buffer.toArray ++ [value]) := by
  rcases Nat.eq_zero_or_pos buffer.capacity with zero | positive
  · have length : buffer.length = 0 := Nat.le_zero.mp (zero ▸ sound.within)
    have empty : buffer.toArray = [] := by
      rw [toArray_eq, length]
      rfl
    rw [CircularBuffer.push, if_pos zero, empty, zero]
    rfl
  · rcases sound.within.lt_or_eq with room | full
    · rw [toArray_push_of_room sound value room, window_of_le]
      rw [List.length_append, length_toArray]
      exact room
    · have length : buffer.toArray.length = buffer.capacity := (length_toArray buffer).trans full
      rw [toArray_push_of_full sound value positive full, window, List.length_append, length,
        List.length_singleton, Nat.add_sub_cancel_left,
        List.drop_append_of_le_length (by rw [length]; exact positive)]

/-- Pushes keep the last values. -/
theorem foldl_push (sound : buffer.Sound) (values : List α) :
    (values.foldl push buffer).Sound ∧
      (values.foldl push buffer).capacity = buffer.capacity ∧
      (values.foldl push buffer).toArray = window buffer.capacity (buffer.toArray ++ values) := by
  induction values generalizing buffer with
  | nil =>
      have fits : buffer.toArray.length ≤ buffer.capacity := by
        rw [length_toArray]
        exact sound.within
      rw [List.append_nil, window_of_le fits]
      exact ⟨sound, rfl, rfl⟩
  | cons value rest ih =>
      obtain ⟨stays, capacity, last⟩ := ih (sound.push value)
      rw [capacity_push] at capacity last
      refine ⟨stays, capacity, last.trans ?_⟩
      rw [toArray_push sound, window_window_append, List.append_assoc, List.singleton_append]

/-- A new buffer is empty, unless there is no array of its capacity. -/
theorem createCircularBuffer_spec (α : Type) [Inhabited α] (initialCapacity : JsValue) :
    (normalizeCapacity initialCapacity < 2 ^ 32 →
      ∃ buffer, createCircularBuffer α initialCapacity = .ok buffer ∧ buffer.Sound ∧
        buffer.capacity = normalizeCapacity initialCapacity ∧ buffer.toArray = []) ∧
      (2 ^ 32 ≤ normalizeCapacity initialCapacity →
        createCircularBuffer α initialCapacity = .error .invalidArrayLength) := by
  constructor
  · intro fits
    refine
      ⟨{ capacity := normalizeCapacity initialCapacity
         storage := List.replicate (normalizeCapacity initialCapacity) default }, ?_, ?_, rfl, rfl⟩
    · rw [createCircularBuffer, newArray, if_pos fits]
      rfl
    · exact ⟨List.length_replicate, id, Nat.zero_le _⟩
  · intro tooLong
    rw [createCircularBuffer, newArray, if_neg (Nat.not_lt.mpr tooLong)]
    rfl

end CircularBuffer

/-! ## The list that the buffer stands for -/

/-- The calls of the buffer's owner. -/
inductive BufferOp (α : Type) where
  | push (value : α)
  | appendMany (values : Option (List α))
  | setCapacity (nextCapacity : JsValue)
  | clear

/-- A plain list that is trimmed to its last values. -/
structure TrimmedList (α : Type) where
  capacity : Nat
  values : List α := []

section Laws

variable {α : Type}

/-- The value joins at the end, and the window moves. -/
def TrimmedList.push (list : TrimmedList α) (value : α) : TrimmedList α :=
  { list with values := window list.capacity (list.values ++ [value]) }

/-- What a call does to the list. -/
def TrimmedList.apply (list : TrimmedList α) : BufferOp α → TrimmedList α
  | .push value => list.push value
  | .appendMany values => (values.getD []).foldl TrimmedList.push list
  | .setCapacity nextCapacity =>
    { capacity := normalizeCapacity nextCapacity
      values := window (normalizeCapacity nextCapacity) list.values }
  | .clear => { list with values := [] }

variable [Inhabited α]

/-- What a call does to the buffer, and whether it throws. -/
def CircularBuffer.apply (buffer : CircularBuffer α) :
    BufferOp α → Except RangeError Unit × CircularBuffer α
  | .push value => (.ok (), buffer.push value)
  | .appendMany values => (.ok (), buffer.appendMany values)
  | .setCapacity nextCapacity => buffer.setCapacity nextCapacity
  | .clear => buffer.clear

/-- The buffer shows the values of the list, oldest first. -/
structure CircularBuffer.Shows (buffer : CircularBuffer α) (list : TrimmedList α) : Prop where
  values : buffer.toArray = list.values
  size : buffer.size = list.values.length
  capacity : buffer.capacity = list.capacity

/-- **The circular buffer law** over some operations: each of them returns, and the buffer shows the
list before and after it. -/
def FollowsList : CircularBuffer α → TrimmedList α → List (BufferOp α) → Prop
  | buffer, list, [] => buffer.Shows list
  | buffer, list, op :: rest =>
    buffer.Shows list ∧ (buffer.apply op).1 = .ok () ∧
      FollowsList (buffer.apply op).2 (list.apply op) rest

omit [Inhabited α] in
/-- There is an array of the capacity that the operation sets. -/
def BufferOp.Fits : BufferOp α → Prop
  | .setCapacity nextCapacity => normalizeCapacity nextCapacity < 2 ^ 32
  | .push _ | .appendMany _ | .clear => True

omit [Inhabited α] in
instance BufferOp.decidableFits : (op : BufferOp α) → Decidable op.Fits
  | .setCapacity nextCapacity =>
    inferInstanceAs (Decidable (normalizeCapacity nextCapacity < 2 ^ 32))
  | .push _ | .appendMany _ | .clear => inferInstanceAs (Decidable True)

namespace CircularBuffer

variable {buffer : CircularBuffer α} {list : TrimmedList α}

/-- What holds of a buffer between the operations. -/
structure Stands (buffer : CircularBuffer α) (list : TrimmedList α) : Prop extends
    buffer.Sound, buffer.Shows list where
  fits : buffer.capacity < 2 ^ 32

theorem Stands.of_values (sound : buffer.Sound) (fits : buffer.capacity < 2 ^ 32)
    (values : buffer.toArray = list.values) (capacity : buffer.capacity = list.capacity) :
    buffer.Stands list :=
  { sound with
    values := values
    size := by rw [← values, length_toArray]
    capacity := capacity
    fits := fits }

theorem Stands.push (stands : buffer.Stands list) (value : α) :
    (buffer.push value).Stands (list.push value) := by
  apply Stands.of_values (stands.toSound.push value)
  · rw [capacity_push]
    exact stands.fits
  · rw [toArray_push stands.toSound, stands.values, stands.capacity, TrimmedList.push]
  · rw [capacity_push, stands.capacity, TrimmedList.push]

theorem Stands.appendMany (stands : buffer.Stands list) (values : List α) :
    (values.foldl CircularBuffer.push buffer).Stands (values.foldl TrimmedList.push list) := by
  induction values generalizing buffer list with
  | nil => exact stands
  | cons value rest ih => exact ih (stands.push value)

theorem stands_new {capacity : Nat} (fits : capacity < 2 ^ 32) :
    Stands { capacity := capacity, storage := List.replicate capacity (default : α) }
      { capacity := capacity } := by
  apply Stands.of_values ⟨List.length_replicate, id, Nat.zero_le _⟩ fits
  · rfl
  · rfl

theorem Stands.clear (stands : buffer.Stands list) :
    buffer.clear.1 = .ok () ∧ buffer.clear.2.Stands { list with values := [] } := by
  rw [CircularBuffer.clear, newArray, if_pos stands.fits, ← stands.capacity]
  exact ⟨rfl, stands_new stands.fits⟩

theorem Stands.setCapacity (stands : buffer.Stands list) {nextCapacity : JsValue}
    (fits : normalizeCapacity nextCapacity < 2 ^ 32) :
    (buffer.setCapacity nextCapacity).1 = .ok () ∧
      (buffer.setCapacity nextCapacity).2.Stands
        (list.apply (.setCapacity nextCapacity)) := by
  unfold CircularBuffer.setCapacity
  dsimp only
  split
  case isTrue same =>
    have kept : list.values.length ≤ normalizeCapacity nextCapacity := by
      rw [← stands.size, same]
      exact stands.within
    refine ⟨rfl, .of_values stands.toSound stands.fits ?_ same.symm⟩
    rw [stands.values, TrimmedList.apply, window_of_le kept]
  case isFalse differs =>
    rw [newArray, if_pos fits]
    dsimp only
    have new := stands_new (α := α) fits
    split
    case isTrue zero =>
      refine ⟨rfl, .of_values new.toSound new.fits ?_ rfl⟩
      rw [TrimmedList.apply, zero, window, Nat.sub_zero, List.drop_length]
      rfl
    case isFalse some =>
      obtain ⟨sound, capacity, values⟩ := foldl_push new.toSound
        (buffer.toArray.drop (buffer.toArray.length - normalizeCapacity nextCapacity))
      refine ⟨rfl, .of_values sound (capacity.trans_lt fits) (values.trans ?_) capacity⟩
      rw [new.values, List.nil_append, stands.values]
      apply window_of_le
      rw [List.length_drop]
      exact tsub_tsub_le

/-- There is no array of a capacity from `2 ^ 32` on. -/
theorem Stands.setCapacity_throws (stands : buffer.Stands list) {nextCapacity : JsValue}
    (tooLong : 2 ^ 32 ≤ normalizeCapacity nextCapacity) :
    (buffer.setCapacity nextCapacity).1 = .error .invalidArrayLength := by
  have differs : normalizeCapacity nextCapacity ≠ buffer.capacity := by
    have := stands.fits
    omega
  rw [CircularBuffer.setCapacity, if_neg differs, newArray, if_neg (Nat.not_lt.mpr tooLong)]

/-- An operation returns exactly when there is an array of the capacity it sets, and then the buffer
follows the list. -/
theorem Stands.apply (stands : buffer.Stands list) (op : BufferOp α) :
    ((buffer.apply op).1 = .ok () ↔ op.Fits) ∧
      (op.Fits → (buffer.apply op).2.Stands (list.apply op)) := by
  cases op with
  | push value => exact ⟨iff_of_true rfl trivial, fun _ => stands.push value⟩
  | appendMany values =>
      exact ⟨iff_of_true rfl trivial, fun _ => stands.appendMany (values.getD [])⟩
  | clear => exact ⟨iff_of_true stands.clear.1 trivial, fun _ => stands.clear.2⟩
  | setCapacity nextCapacity =>
      refine ⟨⟨fun returned => ?_, fun fits => (stands.setCapacity fits).1⟩,
        fun fits => (stands.setCapacity fits).2⟩
      change normalizeCapacity nextCapacity < 2 ^ 32
      by_contra tooLong
      have throws := stands.setCapacity_throws (Nat.not_lt.mp tooLong)
      cases throws.symm.trans returned

theorem Stands.follows_iff (stands : buffer.Stands list) (ops : List (BufferOp α)) :
    FollowsList buffer list ops ↔ ∀ op ∈ ops, op.Fits := by
  induction ops generalizing buffer list with
  | nil => exact iff_of_true stands.toShows fun _ member => absurd member List.not_mem_nil
  | cons op rest ih =>
      obtain ⟨returns, onward⟩ := stands.apply op
      rw [FollowsList, List.forall_mem_cons, returns]
      constructor
      · rintro ⟨-, fits, later⟩
        exact ⟨fits, (ih (onward fits)).mp later⟩
      · rintro ⟨fits, later⟩
        exact ⟨stands.toShows, fits, (ih (onward fits)).mpr later⟩

end CircularBuffer

/-- **When a buffer follows its list.** From a buffer that could be created it does over the
operations whose capacities all are the length of some array. -/
theorem followsList_iff {initialCapacity : JsValue} {buffer : CircularBuffer α}
    (created : createCircularBuffer α initialCapacity = .ok buffer) (ops : List (BufferOp α)) :
    FollowsList buffer { capacity := normalizeCapacity initialCapacity } ops ↔
      ∀ op ∈ ops, op.Fits := by
  have fits : normalizeCapacity initialCapacity < 2 ^ 32 := by
    by_contra tooLong
    have throws := (CircularBuffer.createCircularBuffer_spec α initialCapacity).2
      (Nat.not_lt.mp tooLong)
    cases throws.symm.trans created
  rw [createCircularBuffer, newArray, if_pos fits] at created
  cases created
  exact (CircularBuffer.stands_new fits).follows_iff ops

end Laws

/-! ## Samples -/

/-- A new buffer for two values. -/
def twoPlaces : CircularBuffer JsValue where
  capacity := 2
  storage := [.undefined, .undefined]

theorem createCircularBuffer_two :
    createCircularBuffer JsValue (.number (.finite 2)) = .ok twoPlaces := by
  have two : normalizeCapacity (.number (.finite 2)) = 2 := by decide +kernel
  rw [createCircularBuffer, two]
  rfl

/-- Capacities that are a fraction, not finite and negative. -/
theorem resizedBuffer_followsList :
    FollowsList twoPlaces { capacity := normalizeCapacity (.number (.finite 2)) }
      [.push (.string "a"), .setCapacity (.number (.finite (5 / 2))), .push (.string "b"),
        .setCapacity (.number (.finite (7 / 2))), .appendMany (some [.string "c", .string "d"]),
        .setCapacity (.number .nan), .push (.string "e"), .setCapacity (.number (.finite (-1))),
        .clear] :=
  (followsList_iff createCircularBuffer_two _).mpr (by decide +kernel)

/-- Three values, and room for `2 ^ 32`. -/
def roomyOps : List (BufferOp JsValue) :=
  [.push (.string "a"), .push (.string "b"), .push (.string "c"),
    .setCapacity (.number (.finite 4294967296))]

/-- The capacity has changed under the values, of which the last is not found any more. -/
theorem roomyOps_not_followsList :
    createCircularBuffer JsValue (.number (.finite 2)) = .ok twoPlaces ∧
      ¬ FollowsList twoPlaces { capacity := 2 } roomyOps ∧
      (roomyOps.foldl (fun buffer op => (buffer.apply op).2) twoPlaces).toArray =
        [.string "b", .undefined] := by
  refine ⟨createCircularBuffer_two, fun follows => ?_, by decide +kernel⟩
  have stands : twoPlaces.Stands { capacity := 2 } := CircularBuffer.stands_new (by decide)
  exact absurd ((stands.follows_iff roomyOps).mp follows) (by decide +kernel)

end Mempulse.WebUi
