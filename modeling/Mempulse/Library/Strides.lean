import Mathlib.Data.List.Basic
import Mathlib.Tactic.Ring

/-!
# Lists read at a stride

A long run is often sampled: one entry in `stride` is kept, and the last entry always. The sample
is described by position: its entry number `k` closes the `k`-th block of `stride` entries, or the
list.
-/

set_option autoImplicit false

namespace Mempulse.Library

variable {α β : Type}

/-- The entries of a list that close a block of `stride` entries or the whole of `total` entries,
when `idx` entries went before. -/
def sampled (stride total : Nat) : Nat → List α → List α
  | _, [] => []
  | idx, item :: rest =>
    (if (idx + 1) % stride = 0 || idx + 1 = total then [item] else []) ++
      sampled stride total (idx + 1) rest

/-- Where the blocks end, from a position inside the first one on. -/
private theorem next_block {stride : Nat} (positive : 0 < stride) (idx : Nat) :
    idx / stride * stride ≤ idx ∧ idx < (idx / stride + 1) * stride := by
  have split := Nat.div_add_mod idx stride
  have within := Nat.mod_lt idx positive
  rw [Nat.mul_comm] at split
  rw [Nat.add_mul, Nat.one_mul]
  omega

/-- The sample of a suffix by position. -/
theorem getElem?_sampled_from {stride total : Nat} (positive : 0 < stride) {idx : Nat}
    {items : List α} (counted : idx + items.length = total) (position : Nat) :
    (sampled stride total idx items)[position]? =
      if max idx ((idx / stride + position) * stride) < total then
        items[min ((idx / stride + position + 1) * stride) total - (idx + 1)]?
      else none := by
  induction items generalizing idx position with
  | nil =>
      rw [List.length_nil, Nat.add_zero] at counted
      rw [if_neg (by omega)]
      rfl
  | cons item rest ih =>
      rw [List.length_cons] at counted
      have later := @ih (idx + 1) (by omega)
      obtain ⟨below, above⟩ := next_block positive idx
      rw [sampled]
      by_cases closes : (idx + 1) % stride = 0
      · -- The item closes its block, so the rest starts at the next one.
        have next : (idx + 1) / stride = idx / stride + 1 := by
          rw [Nat.succ_div_of_mod_eq_zero closes]
        have closed : (idx / stride + 1) * stride = idx + 1 := by
          rw [← next, Nat.div_mul_cancel (Nat.dvd_of_mod_eq_zero closes)]
        simp only [closes, decide_true, Bool.true_or, if_true, List.singleton_append]
        cases position with
        | zero =>
            have first : max idx (idx / stride * stride) < total := by omega
            simp only [Nat.add_zero, first, if_true, closed, List.getElem?_cons_zero]
            rw [Nat.min_eq_left (by omega), Nat.sub_self, List.getElem?_cons_zero]
        | succ position =>
            have regroup : idx / stride + (position + 1) = idx / stride + 1 + position := by omega
            rw [List.getElem?_cons_succ, later position, next, regroup]
            have expanded : (idx / stride + 1 + position) * stride =
                idx + 1 + position * stride := by rw [Nat.add_mul, closed]
            have further : (idx / stride + 1 + position + 1) * stride =
                idx + 1 + position * stride + stride := by
              rw [Nat.add_mul, expanded, Nat.one_mul]
            rw [expanded, further]
            by_cases inside : idx + 1 + position * stride < total
            · rw [if_pos (by omega), if_pos (by omega)]
              have shift : min (idx + 1 + position * stride + stride) total - (idx + 1) =
                  min (idx + 1 + position * stride + stride) total - (idx + 1 + 1) + 1 := by omega
              rw [shift, List.getElem?_cons_succ]
            · rw [if_neg (by omega), if_neg (by omega)]
      · have notClosed : ¬ stride ∣ idx + 1 := fun divides => closes (Nat.mod_eq_zero_of_dvd divides)
        have same : (idx + 1) / stride = idx / stride := by
          rw [Nat.succ_div, if_neg notClosed, Nat.add_zero]
        have strictly : idx + 1 < (idx / stride + 1) * stride := by
          have after := (next_block positive (idx + 1)).2
          rwa [same] at after
        have grown : (idx / stride + position) * stride = idx / stride * stride + position * stride :=
          Nat.add_mul _ _ _
        have further : (idx / stride + position + 1) * stride =
            (idx / stride + 1) * stride + position * stride := by ring
        by_cases last : idx + 1 = total
        · -- The list ends here.
          have empty : rest = [] := List.eq_nil_of_length_eq_zero (by omega)
          subst empty
          simp only [last, decide_true, Bool.or_true, if_true, sampled, List.append_nil]
          cases position with
          | zero =>
              rw [if_pos (by omega), further]
              rw [Nat.min_eq_right (by omega), Nat.sub_eq_zero_of_le (by omega)]
          | succ position =>
              have beyond : (idx / stride + 1) * stride ≤ (idx / stride + (position + 1)) * stride :=
                Nat.mul_le_mul_right _ (by omega)
              rw [if_neg (by omega)]
              rfl
        · simp only [closes, last, decide_false, Bool.or_false, Bool.false_eq_true, if_false,
            List.nil_append, later position, same, grown, further]
          by_cases inside : max idx (idx / stride * stride + position * stride) < total
          · rw [if_pos inside, if_pos (by omega)]
            have shift : min ((idx / stride + 1) * stride + position * stride) total - (idx + 1) =
                min ((idx / stride + 1) * stride + position * stride) total - (idx + 1 + 1) + 1 := by
              omega
            rw [shift, List.getElem?_cons_succ]
          · rw [if_neg inside, if_neg (by omega)]

/-- **The sample of a list by position**: entry `k` closes block `k` or the list. -/
theorem getElem?_sampled {stride : Nat} (positive : 0 < stride) (items : List α) (position : Nat) :
    (sampled stride items.length 0 items)[position]? =
      if position * stride < items.length then
        items[min ((position + 1) * stride) items.length - 1]?
      else none := by
  rw [getElem?_sampled_from positive (Nat.zero_add _), Nat.zero_div, Nat.zero_add, Nat.zero_add,
    Nat.zero_max]

/-- One entry for each block that was begun. -/
theorem length_sampled {stride : Nat} (positive : 0 < stride) (items : List α) :
    (sampled stride items.length 0 items).length = (items.length + stride - 1) / stride := by
  have present : ∀ position, position < (sampled stride items.length 0 items).length ↔
      position * stride < items.length := by
    intro position
    rw [← Nat.not_le, ← List.getElem?_eq_none_iff, getElem?_sampled positive]
    split
    case isTrue inside =>
      have below : min ((position + 1) * stride) items.length - 1 < items.length := by omega
      rw [List.getElem?_eq_getElem below]
      exact iff_of_true (Option.some_ne_none _) inside
    case isFalse outside => exact iff_of_false (fun none => none rfl) outside
  refine Nat.le_antisymm ?_ ?_
  · refine Nat.le_of_not_lt fun more => ?_
    have inside := (present _).mp more
    have covered := Nat.lt_mul_div_succ (items.length + stride - 1) positive
    rw [Nat.mul_comm, Nat.add_mul, Nat.one_mul] at covered
    omega
  · refine Nat.le_of_not_lt fun fewer => ?_
    have outside := mt (present (sampled stride items.length 0 items).length).mpr (Nat.lt_irrefl _)
    have reached := (Nat.le_div_iff_mul_le positive).mp (Nat.succ_le_of_lt fewer)
    rw [Nat.succ_mul] at reached
    omega

/-- The sample ends as the list does. -/
theorem getLast?_sampled {stride : Nat} (positive : 0 < stride) (items : List α) :
    (sampled stride items.length 0 items).getLast? = items.getLast? := by
  cases items with
  | nil => rfl
  | cons item rest =>
      rw [List.getLast?_eq_getElem?, List.getLast?_eq_getElem?, length_sampled positive,
        getElem?_sampled positive]
      generalize counted : (item :: rest).length = total
      have nonempty : 0 < total := by rw [← counted]; exact Nat.succ_pos _
      have begun : 0 < (total + stride - 1) / stride := Nat.div_pos (by omega) positive
      have below := Nat.div_mul_le_self (total + stride - 1) stride
      have above := Nat.lt_mul_div_succ (total + stride - 1) positive
      rw [Nat.mul_comm, Nat.add_mul, Nat.one_mul] at above
      have closing : ((total + stride - 1) / stride - 1) * stride + stride =
          (total + stride - 1) / stride * stride := by
        rw [← Nat.succ_mul]
        congr 1
        omega
      rw [if_pos (by omega), Nat.sub_add_cancel begun, Nat.min_eq_right (by omega)]

end Mempulse.Library
