import Mathlib

/-!
# Windows over a list of keyed rows

A bounded table keeps a window: the last rows of all that were written. Of the rows of one key the
latest counts, and a window that has a row of a key has its latest one (`latest_window`).
-/

set_option autoImplicit false

namespace Mempulse.Library

universe u v

variable {Row : Type u} {κ : Type v}

/-! ## Windows -/

/-- The last rows of a list. -/
def window (capacity : Nat) (rows : List Row) : List Row :=
  rows.drop (rows.length - capacity)

theorem window_of_le {capacity : Nat} {rows : List Row} (fits : rows.length ≤ capacity) :
    window capacity rows = rows := by
  rw [window, Nat.sub_eq_zero_of_le fits, List.drop_zero]

@[simp] theorem window_nil (capacity : Nat) : window capacity ([] : List Row) = [] :=
  window_of_le (Nat.zero_le _)

/-- Rows leave a list from its front. -/
theorem window_cons_of_lt {capacity : Nat} {row : Row} {rest : List Row}
    (full : capacity < rest.length + 1) : window capacity (row :: rest) = window capacity rest := by
  have one : (row :: rest).length - capacity = rest.length - capacity + 1 := by
    rw [List.length_cons]
    omega
  rw [window, one, List.drop_succ_cons, window]

/-- Keeping a window at every step keeps the window of the whole. -/
theorem window_window_append (capacity : Nat) (rows later : List Row) :
    window capacity (window capacity rows ++ later) = window capacity (rows ++ later) := by
  have kept : window capacity rows ++ later = (rows ++ later).drop (rows.length - capacity) := by
    rw [window, List.drop_append_of_le_length (Nat.sub_le _ _)]
  rw [kept, window, window, List.drop_drop, List.length_drop, List.length_append]
  congr 1
  omega

/-- A row is in the window of the rows up to the ones that came after it, unless they fill it. -/
theorem mem_window_append_cons_iff {capacity : Nat} {row : Row} (earlier : List Row)
    {later : List Row} (absent : row ∉ later) :
    row ∈ window capacity (earlier ++ row :: later) ↔ later.length < capacity := by
  constructor
  · intro member
    by_contra full
    -- The window begins after the row.
    have dropped : window capacity (earlier ++ row :: later) =
        later.drop (later.length - capacity) := by
      have count : (earlier ++ row :: later).length - capacity =
          (earlier ++ [row]).length + (later.length - capacity) := by
        simp only [List.length_append, List.length_cons, List.length_nil]
        omega
      rw [window, count, List.append_cons earlier row later, List.drop_length_add_append]
    rw [dropped] at member
    exact absent (List.mem_of_mem_drop member)
  · intro room
    have kept : (earlier ++ row :: later).length - capacity ≤ earlier.length := by
      simp only [List.length_append, List.length_cons]
      omega
    rw [window, List.drop_append_of_le_length kept]
    exact List.mem_append_right _ List.mem_cons_self

theorem window_isSuffix (capacity : Nat) (rows : List Row) : window capacity rows <:+ rows :=
  List.drop_suffix _ _

theorem length_window (capacity : Nat) (rows : List Row) :
    (window capacity rows).length = min rows.length capacity := by
  rw [window, List.length_drop]
  omega

/-- A window has the last rows, as far as it has room for them. -/
theorem isSuffix_window {capacity : Nat} {last rows : List Row} (isLast : last <:+ rows)
    (fits : last.length ≤ capacity) : last <:+ window capacity rows := by
  refine List.suffix_of_suffix_length_le isLast (window_isSuffix capacity rows) ?_
  rw [length_window]
  exact Nat.le_min.mpr ⟨isLast.length_le, fits⟩

/-! ## Forgetting the oldest rows -/

section Forgetting

variable {σ : Type*}

/-- Forgets the oldest rows while there are too many: each leaves the list and the memory that is kept
beside it. -/
def evict (erase : σ → Row → σ) (capacity : Nat) (memory : σ) : List Row → List Row × σ
  | [] => ([], memory)
  | oldest :: rest =>
    if (oldest :: rest).length > capacity then evict erase capacity (erase memory oldest) rest
    else (oldest :: rest, memory)

/-- **What is left is the window**, and memory and list stay related in any way that survives the
oldest row's leaving both. -/
theorem evict_invariant {erase : σ → Row → σ} (capacity : Nat) (motive : σ → List Row → Prop)
    (erased : ∀ {memory oldest rest}, motive memory (oldest :: rest) →
      motive (erase memory oldest) rest)
    {memory : σ} {rows : List Row} (start : motive memory rows) :
    (evict erase capacity memory rows).1 = window capacity rows ∧
      motive (evict erase capacity memory rows).2 (window capacity rows) := by
  induction rows generalizing memory with
  | nil =>
      rw [window_nil]
      exact ⟨rfl, start⟩
  | cons oldest rest ih =>
      rw [evict]
      by_cases full : (oldest :: rest).length > capacity
      · rw [if_pos full, window_cons_of_lt full]
        exact ih (erased start)
      · rw [if_neg full, window_of_le (Nat.le_of_not_lt full)]
        exact ⟨rfl, start⟩

end Forgetting

/-! ## Rows of a key -/

section Keyed

variable [DecidableEq κ] (keyOf : Row → κ) (key : κ)

/-- The latest row of a key. -/
def latest (rows : List Row) : Option Row :=
  (rows.filter fun row => keyOf row = key).getLast?

/-- The number of rows of a key. -/
def occurrences (rows : List Row) : Nat :=
  rows.countP fun row => keyOf row = key

@[simp] theorem latest_nil : latest keyOf key [] = none := rfl

@[simp] theorem occurrences_nil : occurrences keyOf key [] = 0 := rfl

theorem latest_concat (rows : List Row) (row : Row) :
    latest keyOf key (rows ++ [row]) = if keyOf row = key then some row else latest keyOf key rows := by
  rw [latest, List.filter_append]
  by_cases own : keyOf row = key
  · simp [own]
  · simp [own, latest]

theorem latest_cons (row : Row) (rows : List Row) :
    latest keyOf key (row :: rows) =
      (latest keyOf key rows).or (if keyOf row = key then some row else none) := by
  rw [latest, latest]
  by_cases own : keyOf row = key
  · rw [List.filter_cons_of_pos (by simpa using own), List.getLast?_cons, if_pos own]
    cases (rows.filter fun row => keyOf row = key).getLast? <;> rfl
  · rw [List.filter_cons_of_neg (by simpa using own), if_neg own, Option.or_none]

theorem occurrences_concat (rows : List Row) (row : Row) :
    occurrences keyOf key (rows ++ [row]) =
      occurrences keyOf key rows + if keyOf row = key then 1 else 0 := by
  simp [occurrences, List.countP_append, List.countP_singleton]

theorem occurrences_cons (row : Row) (rows : List Row) :
    occurrences keyOf key (row :: rows) =
      occurrences keyOf key rows + if keyOf row = key then 1 else 0 := by
  simp [occurrences, List.countP_cons]

theorem occurrences_eq_zero_iff {rows : List Row} :
    occurrences keyOf key rows = 0 ↔ key ∉ rows.map keyOf := by
  simp [occurrences, List.countP_eq_zero]

theorem mem_of_latest {rows : List Row} {row : Row} (last : latest keyOf key rows = some row) :
    row ∈ rows ∧ keyOf row = key := by
  obtain ⟨member, own⟩ := List.mem_filter.mp (List.mem_of_getLast? last)
  exact ⟨member, of_decide_eq_true own⟩

theorem latest_eq_none_iff {rows : List Row} :
    latest keyOf key rows = none ↔ key ∉ rows.map keyOf := by
  simp [latest]

/-- The latest row of a list that goes on with another row of the key. -/
theorem latest_append_of_mem {rows : List Row} (earlier : List Row) (present : key ∈ rows.map keyOf) :
    latest keyOf key (earlier ++ rows) = latest keyOf key rows := by
  have some : (rows.filter fun row => keyOf row = key) ≠ [] := by
    rw [ne_eq, List.filter_eq_nil_iff]
    obtain ⟨row, member, own⟩ := List.mem_map.mp present
    exact fun none => none row member (decide_eq_true own)
  rw [latest, List.filter_append, List.getLast?_append_of_ne_nil _ some, latest]

/-- A row of another key does not matter. -/
theorem latest_cons_of_ne {row : Row} (rows : List Row) (other : keyOf row ≠ key) :
    latest keyOf key (row :: rows) = latest keyOf key rows := by
  rw [latest, List.filter_cons_of_neg (by simpa using other), latest]

/-- **A window that has a row of a key has its latest one.** -/
theorem latest_window {capacity : Nat} {rows : List Row}
    (present : key ∈ (window capacity rows).map keyOf) :
    latest keyOf key (window capacity rows) = latest keyOf key rows := by
  obtain ⟨earlier, whole⟩ := window_isSuffix capacity rows
  rw [← latest_append_of_mem keyOf key earlier present, whole]

/-- The order of rows of different keys does not matter. -/
theorem latest_of_perm {rows others : List Row} (same : others.Perm rows)
    (distinct : rows.Pairwise fun left right => keyOf left ≠ keyOf right) :
    latest keyOf key others = latest keyOf key rows := by
  have alone : (rows.filter fun row => keyOf row = key).length ≤ 1 := by
    have apart := distinct.filter fun row => keyOf row = key
    have own : ∀ row ∈ rows.filter fun row => keyOf row = key, keyOf row = key := fun row member =>
      of_decide_eq_true (List.mem_filter.mp member).2
    match rows.filter fun row => keyOf row = key, apart, own with
    | [], _, _ => exact Nat.zero_le _
    | [_], _, _ => exact Nat.le_refl _
    | first :: second :: _, apart, own =>
        have differ := (List.pairwise_cons.mp apart).1 second (.head _)
        exact absurd ((own first (.head _)).trans (own second (.tail _ (.head _))).symm) differ
  have filtered := same.filter fun row => keyOf row = key
  rw [latest, latest]
  rcases listed : rows.filter fun row => keyOf row = key with _ | ⟨row, _ | ⟨second, rest⟩⟩
  · rw [listed] at filtered
    rw [filtered.eq_nil]
  · rw [listed] at filtered
    rw [List.perm_singleton.mp filtered]
  · rw [listed, List.length_cons, List.length_cons] at alone
    omega

end Keyed

end Mempulse.Library
