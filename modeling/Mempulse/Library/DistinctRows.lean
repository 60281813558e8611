import Mempulse.Library.Window

/-!
# The first row of each key

A view that walks back over keyed rows, and skips the keys it has met, shows the latest row of each
key (`mem_firstOfEach_reverse_iff`). A walk that also stops after a number of results is the start
of the whole walk (`collectFirst_eq`).
-/

set_option autoImplicit false

namespace Mempulse.Library

universe u v w

variable {Row : Type u} {κ : Type v} [DecidableEq κ] (keyOf : Row → κ)

/-- The first row of each key. -/
def firstOfEach : List Row → List Row
  | [] => []
  | row :: rest => row :: (firstOfEach rest).filter fun other => keyOf other ≠ keyOf row

theorem firstOfEach_sublist (rows : List Row) : (firstOfEach keyOf rows).Sublist rows := by
  induction rows with
  | nil => exact List.nil_sublist _
  | cons row rest ih => exact (List.filter_sublist.trans ih).cons_cons row

/-- Its rows have different keys. -/
theorem firstOfEach_pairwise (rows : List Row) :
    (firstOfEach keyOf rows).Pairwise fun left right => keyOf left ≠ keyOf right := by
  induction rows with
  | nil => exact List.Pairwise.nil
  | cons row rest ih =>
      refine List.pairwise_cons.mpr ⟨fun other member => ?_, ih.filter _⟩
      exact (of_decide_eq_true (List.mem_filter.mp member).2).symm

theorem firstOfEach_nodup_keys (rows : List Row) : ((firstOfEach keyOf rows).map keyOf).Nodup :=
  List.pairwise_map.mpr (firstOfEach_pairwise keyOf rows)

/-- Rows of different keys are all first. -/
theorem firstOfEach_eq_self_iff {rows : List Row} :
    firstOfEach keyOf rows = rows ↔ (rows.map keyOf).Nodup := by
  constructor
  · intro whole
    rw [← whole]
    exact firstOfEach_nodup_keys keyOf rows
  · intro distinct
    induction rows with
    | nil => rfl
    | cons row rest ih =>
        obtain ⟨fresh, others⟩ := List.nodup_cons.mp distinct
        rw [firstOfEach, ih others, List.filter_eq_self.mpr]
        intro other member
        exact decide_eq_true fun same => fresh (List.mem_map.mpr ⟨other, member, same⟩)

/-- A sublist with as many elements of each label is the whole list. -/
theorem eq_of_sublist_of_countP_eq (label : Row → κ)
    {some all : List Row} (part : some.Sublist all)
    (same : ∀ value, (some.countP fun row => label row = value) =
      all.countP fun row => label row = value) : some = all := by
  have labels : (some.map label).Perm (all.map label) := by
    rw [List.perm_iff_count]
    intro value
    rw [List.count, List.countP_map, List.countP_map]
    exact same value
  have lengths := labels.length_eq
  rw [List.length_map, List.length_map] at lengths
  exact part.eq_of_length lengths

/-- The row of a key is the first one that is found. -/
theorem mem_firstOfEach_iff {rows : List Row} {row : Row} :
    row ∈ firstOfEach keyOf rows ↔
      rows.find? (fun other => keyOf other = keyOf row) = some row := by
  induction rows with
  | nil => simp [firstOfEach]
  | cons first rest ih =>
      rw [firstOfEach, List.mem_cons, List.mem_filter, ih, List.find?_cons]
      by_cases own : keyOf first = keyOf row
      · simp [own, eq_comm]
      · have differs : row ≠ first := fun same => own (congrArg keyOf same).symm
        simp [differs, own, Ne.symm own]

theorem find?_reverse_eq_latest (rows : List Row) (key : κ) :
    rows.reverse.find? (fun other => keyOf other = key) = latest keyOf key rows := by
  rw [latest, List.getLast?_eq_head?_reverse, ← List.filter_reverse, List.head?_filter]

/-- **Walking back shows the latest row of each key.** -/
theorem mem_firstOfEach_reverse_iff {rows : List Row} {row : Row} :
    row ∈ firstOfEach keyOf rows.reverse ↔ latest keyOf (keyOf row) rows = some row := by
  rw [mem_firstOfEach_iff, find?_reverse_eq_latest]

/-- Every key that has a row has a first one. -/
theorem mem_map_firstOfEach {rows : List Row} {key : κ} :
    key ∈ (firstOfEach keyOf rows).map keyOf ↔ key ∈ rows.map keyOf := by
  constructor
  · exact fun member => ((firstOfEach_sublist keyOf rows).map keyOf).subset member
  · intro member
    obtain ⟨row, listed, rfl⟩ := List.mem_map.mp member
    obtain ⟨first, found⟩ := Option.isSome_iff_exists.mp
      (List.find?_isSome.mpr ⟨row, listed, decide_eq_true rfl⟩ :
        (rows.find? fun other => keyOf other = keyOf row).isSome)
    have own : keyOf first = keyOf row := of_decide_eq_true
      (List.find?_some (p := fun other => decide (keyOf other = keyOf row)) found)
    refine List.mem_map.mpr ⟨first, (mem_firstOfEach_iff keyOf).mpr ?_, own⟩
    rwa [own]

/-- The first keys are the keys of the first rows. -/
theorem firstOfEach_map (rows : List Row) :
    firstOfEach id (rows.map keyOf) = (firstOfEach keyOf rows).map keyOf := by
  induction rows with
  | nil => rfl
  | cons row rest ih =>
      rw [List.map_cons, firstOfEach, ih, firstOfEach, List.map_cons, List.filter_map]
      rfl

/-! ## The latest row of each key -/

/-- The latest row of each key, in the order of these rows. -/
def latestOfEach (rows : List Row) : List Row := (firstOfEach keyOf rows.reverse).reverse

/-- A new row takes the place of the one with its key and comes last. -/
theorem latestOfEach_concat (rows : List Row) (row : Row) :
    latestOfEach keyOf (rows ++ [row]) =
      (latestOfEach keyOf rows).filter (fun other => keyOf other ≠ keyOf row) ++ [row] := by
  rw [latestOfEach, List.reverse_append, List.reverse_singleton, List.singleton_append, firstOfEach,
    List.reverse_cons, ← List.filter_reverse, latestOfEach]

theorem latestOfEach_nodup_keys (rows : List Row) : ((latestOfEach keyOf rows).map keyOf).Nodup := by
  rw [latestOfEach, List.map_reverse, List.nodup_reverse]
  exact firstOfEach_nodup_keys keyOf _

theorem mem_latestOfEach_iff {rows : List Row} {row : Row} :
    row ∈ latestOfEach keyOf rows ↔ latest keyOf (keyOf row) rows = some row := by
  rw [latestOfEach, List.mem_reverse, mem_firstOfEach_reverse_iff]

/-! ## Walks that stop -/

section Collect

variable {Seen : Type} {Result : Type w}

/-- Walks over rows, skips the keys it has met, and stops when enough results are out. -/
def collectFirst (met : Seen → κ → Bool) (meet : Seen → κ → Seen) (result : Row → Option Result)
    (enough : Nat) : Seen → List Result → List Row → List Result
  | _, out, [] => out
  | seen, out, row :: rest =>
    if met seen (keyOf row) then collectFirst met meet result enough seen out rest
    else
      match result row with
      | none => collectFirst met meet result enough (meet seen (keyOf row)) out rest
      | some found =>
        if enough ≤ (out ++ [found]).length then out ++ [found]
        else collectFirst met meet result enough (meet seen (keyOf row)) (out ++ [found]) rest

variable {met : Seen → κ → Bool} {meet : Seen → κ → Seen}

/-- The first rows of the keys that were not met. -/
theorem filter_firstOfEach_cons_of_met (unmet : κ → Bool) {row : Row}
    (known : unmet (keyOf row) = false) (rest : List Row) :
    (firstOfEach keyOf (row :: rest)).filter (fun other => unmet (keyOf other)) =
      (firstOfEach keyOf rest).filter fun other => unmet (keyOf other) := by
  rw [firstOfEach, List.filter_cons_of_neg (by simp [known]), List.filter_filter]
  apply List.filter_congr
  intro other _
  by_cases same : keyOf other = keyOf row
  · rw [same, known, Bool.false_and]
  · rw [decide_eq_true same, Bool.and_true]

/-- The first row of a key that was not met, and those of the keys that remain. -/
theorem filter_firstOfEach_cons_of_unmet (unmet : κ → Bool) {remaining : κ → Bool} {row : Row}
    (fresh : unmet (keyOf row) = true)
    (remains : ∀ key, remaining key = (decide (key ≠ keyOf row) && unmet key)) (rest : List Row) :
    (firstOfEach keyOf (row :: rest)).filter (fun other => unmet (keyOf other)) =
      row :: (firstOfEach keyOf rest).filter fun other => remaining (keyOf other) := by
  rw [firstOfEach, List.filter_cons, if_pos fresh, List.filter_filter]
  congr 1
  apply List.filter_congr
  intro other _
  rw [remains, Bool.and_comm]

/-- **A walk that stops is the start of the whole walk**, of one result at least. -/
theorem collectFirst_eq (meets : ∀ seen key other, met (meet seen key) other =
      (decide (other = key) || met seen other))
    (result : Row → Option Result) (enough : Nat) (seen : Seen) (out : List Result)
    (rows : List Row) :
    collectFirst keyOf met meet result enough seen out rows = out ++
      (((firstOfEach keyOf rows).filter fun row => !met seen (keyOf row)).filterMap result).take
        (max (enough - out.length) 1) := by
  induction rows generalizing seen out with
  | nil => simp [collectFirst, firstOfEach]
  | cons row rest ih =>
      rw [collectFirst]
      split
      case isTrue known =>
        rw [ih, filter_firstOfEach_cons_of_met keyOf (fun key => !met seen key)
          (by simp [known])]
      case isFalse unknown =>
        have fresh : (!met seen (keyOf row)) = true := by simpa using unknown
        have remains : ∀ key, (!met (meet seen (keyOf row)) key) =
            (decide (key ≠ keyOf row) && !met seen key) := by
          intro key
          rw [meets, Bool.not_or, decide_not]
        rw [filter_firstOfEach_cons_of_unmet keyOf (fun key => !met seen key) fresh remains]
        cases found : result row with
        | none =>
            dsimp only
            rw [ih, List.filterMap_cons_none found]
        | some value =>
            dsimp only
            rw [List.filterMap_cons_some found, List.length_append, List.length_singleton]
            split
            case isTrue full =>
              rw [show max (enough - out.length) 1 = 1 by omega, List.take_succ_cons, List.take_zero]
            case isFalse more =>
              rw [ih, List.length_append, List.length_singleton, List.append_assoc,
                show max (enough - out.length) 1 = max (enough - (out.length + 1)) 1 + 1 by omega,
                List.take_succ_cons, List.singleton_append]

end Collect

end Mempulse.Library
