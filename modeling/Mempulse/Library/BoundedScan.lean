import Mempulse.Library.Sorting

/-!
# Bounded scans

A listing that looks at the first rows of a list, filters them and takes up to a limit shows every
wanted row, if it stays below its limit, exactly when it finds enough wanted rows among those it
looks at or there is none beyond (`completeBelow_map_filter_take_iff`). In a strictly ordered list the
first rows are those with few smaller ones (`mem_take_iff_countP_lt`).
-/

set_option autoImplicit false

namespace Mempulse.Library

open Std

variable {Row : Type}

/-- A listing below its limit is complete. -/
def CompleteBelow (limit : Nat) (listing wanted : List Row) : Prop :=
  listing.length < limit → listing.Perm wanted

/-- The rows that are looked at have enough wanted ones, or the rows beyond have none. -/
def ScanSuffices (wanted : Row → Bool) (scan limit : Nat) (rows : List Row) : Prop :=
  limit ≤ (rows.take scan).countP wanted ∨ ∀ row ∈ rows.drop scan, wanted row = false

instance (limit : Nat) (listing wanted : List Row) [DecidableEq Row] :
    Decidable (CompleteBelow limit listing wanted) :=
  inferInstanceAs (Decidable (listing.length < limit → listing.Perm wanted))

instance (wanted : Row → Bool) (scan limit : Nat) (rows : List Row) :
    Decidable (ScanSuffices wanted scan limit rows) :=
  inferInstanceAs (Decidable (_ ∨ ∀ row ∈ rows.drop scan, wanted row = false))

section Scan

variable {wanted : Row → Bool} {scan limit : Nat} {rows looked : List Row}

/-- **When a bounded scan is complete.** The rows that are looked at may be shown in another order and
in another form. -/
theorem completeBelow_map_filter_take_iff {Shown : Type} (form : Row → Shown)
    (shown : looked.Perm (rows.take scan)) :
    CompleteBelow limit (((looked.filter wanted).take limit).map form)
      ((rows.filter wanted).map form) ↔ ScanSuffices wanted scan limit rows := by
  have found : (looked.filter wanted).length = (rows.take scan).countP wanted := by
    rw [← List.countP_eq_length_filter, shown.countP_eq]
  have whole : rows.filter wanted = (rows.take scan).filter wanted ++ (rows.drop scan).filter wanted := by
    rw [← List.filter_append, List.take_append_drop]
  have nothing : (∀ row ∈ rows.drop scan, wanted row = false) ↔ (rows.drop scan).filter wanted = [] := by
    rw [List.filter_eq_nil_iff]
    exact forall₂_congr fun row _ => Bool.eq_false_iff
  unfold CompleteBelow ScanSuffices
  rw [List.length_map, List.length_take, found, nothing, or_iff_not_imp_left, Nat.not_le]
  by_cases few : (rows.take scan).countP wanted < limit
  · have every : (looked.filter wanted).take limit = looked.filter wanted :=
      List.take_of_length_le (by omega)
    rw [every, whole]
    refine imp_congr (by omega) ⟨fun same => ?_, fun none => ?_⟩
    · have lengths := same.length_eq
      rw [List.length_map, List.length_map, List.length_append, (shown.filter wanted).length_eq]
        at lengths
      exact List.eq_nil_of_length_eq_zero (by omega)
    · rw [none, List.append_nil]
      exact (shown.filter wanted).map form
  · exact iff_of_true (fun short => by omega) fun short => absurd short few

theorem completeBelow_filter_take_iff :
    CompleteBelow limit (((rows.take scan).filter wanted).take limit) (rows.filter wanted) ↔
      ScanSuffices wanted scan limit rows := by
  have plain := @completeBelow_map_filter_take_iff _ wanted scan limit rows _ _ id (List.Perm.refl _)
  rwa [List.map_id, List.map_id] at plain

/-- Filtering before the limit changes nothing when the rows within the limit pass. -/
theorem take_filter_eq_take_iff :
    (rows.filter wanted).take limit = rows.take limit ↔
      ∀ row ∈ rows.take limit, wanted row = true := by
  constructor
  · intro same row member
    rw [← same] at member
    exact (List.mem_filter.mp (List.mem_of_mem_take member)).2
  · intro pass
    conv_lhs => rw [← List.take_append_drop limit rows]
    rw [List.filter_append, List.filter_eq_self.mpr pass]
    by_cases long : limit ≤ rows.length
    · exact List.take_left' (List.length_take_of_le long)
    · rw [List.drop_eq_nil_of_le (by omega), List.filter_nil, List.append_nil, List.take_take,
        Nat.min_self]

/-- The first rows of a strictly ordered list. -/
theorem mem_take_iff_countP_lt {cmp : Row → Row → Ordering} [OrientedCmp cmp]
    (ordered : rows.Pairwise fun left right => cmp left right = .lt) {row : Row} :
    row ∈ rows.take limit ↔
      row ∈ rows ∧ (rows.countP fun other => (cmp other row).isLT) < limit := by
  induction rows generalizing limit with
  | nil => simp
  | cons first rest ih =>
      obtain ⟨smaller, others⟩ := List.pairwise_cons.mp ordered
      cases limit with
      | zero => simp
      | succ limit =>
          rw [List.take_succ_cons, List.mem_cons, List.mem_cons, ih others, List.countP_cons]
          by_cases same : row = first
          · have none : (rest.countP fun other => (cmp other row).isLT) = 0 :=
              List.countP_eq_zero.mpr fun other member => by
                rw [same, swap_eq cmp other first, smaller other member]
                exact Bool.false_ne_true
            have self : (cmp row row).isLT = false := by
              have equal : cmp row row = .eq := ReflCmp.compare_self
              rw [equal]
              rfl
            rw [none, ← same, self]
            simp
          · rw [or_iff_right same, or_iff_right same]
            refine and_congr_right fun member => ?_
            have first : (cmp first row).isLT = true := by
              rw [smaller row member]
              rfl
            rw [if_pos first]
            omega

end Scan

end Mempulse.Library
