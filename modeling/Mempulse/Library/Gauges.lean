import Mathlib

/-!
# Gauges that stop at zero

A gauge is raised and lowered by one, and a lowering at zero is lost. So it shows the raisings less
the lowerings, and what was lost besides: the most by which the lowerings were ever ahead of the
raisings (`reading_add_falls`). A gauge whose raisings always come first loses nothing.
-/

set_option autoImplicit false

namespace Mempulse.Library.Gauge

/-- The gauge after raisings (`true`) and lowerings (`false`), oldest first. -/
def reading (moves : List Bool) : Nat :=
  moves.foldl (fun value raised => if raised then value + 1 else value - 1) 0

/-- The number of raisings. -/
def rises (moves : List Bool) : Nat := moves.count true

/-- The number of lowerings. -/
def falls (moves : List Bool) : Nat := moves.count false

/-- The most by which the lowerings were ever ahead of the raisings. -/
def deficit (moves : List Bool) : Nat :=
  (Finset.range (moves.length + 1)).sup fun time =>
    falls (moves.take time) - rises (moves.take time)

theorem reading_concat (moves : List Bool) (raised : Bool) :
    reading (moves ++ [raised]) = if raised then reading moves + 1 else reading moves - 1 := by
  rw [reading, List.foldl_append]
  rfl

theorem rises_concat (moves : List Bool) (raised : Bool) :
    rises (moves ++ [raised]) = rises moves + raised.toNat := by
  cases raised <;> simp [rises]

theorem falls_concat (moves : List Bool) (raised : Bool) :
    falls (moves ++ [raised]) = falls moves + (!raised).toNat := by
  cases raised <;> simp [falls]

theorem deficit_concat (moves : List Bool) (raised : Bool) :
    deficit (moves ++ [raised]) =
      max (deficit moves) (falls (moves ++ [raised]) - rises (moves ++ [raised])) := by
  rw [deficit, List.length_append, List.length_singleton, Finset.range_add_one, Finset.sup_insert,
    List.take_of_length_le (by simp), max_comm]
  congr 1
  refine Finset.sup_congr rfl fun time within => ?_
  rw [List.take_append_of_le_length (Nat.lt_succ_iff.mp (Finset.mem_range.mp within))]

/-- The lowerings were ahead at some time by no more than the deficit. -/
theorem falls_le (moves : List Bool) : falls moves ≤ rises moves + deficit moves := by
  have now := Finset.le_sup (f := fun time => falls (moves.take time) - rises (moves.take time))
    (Finset.mem_range.mpr (Nat.lt_succ_self moves.length))
  rw [List.take_length] at now
  change falls moves - rises moves ≤ deficit moves at now
  omega

/-- **A gauge shows the raisings less the lowerings, and the deficit besides.** -/
theorem reading_add_falls (moves : List Bool) :
    reading moves + falls moves = rises moves + deficit moves := by
  induction moves using List.reverseRecOn with
  | nil => rfl
  | append_singleton moves raised ih =>
      have ahead := falls_le moves
      rw [reading_concat, deficit_concat, rises_concat, falls_concat]
      cases raised with
      | true =>
          simp only [if_true, Bool.toNat_true, Bool.not_true, Bool.toNat_false]
          omega
      | false =>
          simp only [Bool.false_eq_true, if_false, Bool.toNat_false, Bool.not_false, Bool.toNat_true]
          omega

end Mempulse.Library.Gauge
