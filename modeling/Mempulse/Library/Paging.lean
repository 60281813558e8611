import Mathlib

/-!
# Filtered pages

A server that filters its rows looks at a bounded number of them for a page. A client that asks for
the rows after the last one it received, until a page is empty, receives all rows it wants when no
wanted row comes after as many others as are looked at (`pageThrough_complete_iff`).
-/

set_option autoImplicit false

namespace Mempulse.Library

variable {Row : Type}

/-- The wanted ones of the first rows that are looked at, up to a limit. -/
def filteredPage (wanted : Row → Bool) (scan limit : Nat) (rows : List Row) : List Row :=
  ((rows.take scan).filter wanted).take limit

/-- A client asks for the rows after the last one it has received until a page is empty, or as often
as it may. -/
def pageThrough {Cursor : Type} (serve : Cursor → List Row) (cursorOf : Row → Cursor) :
    Nat → Cursor → List Row → Option (List Row)
  | 0, _, _ => none
  | fuel + 1, after, received =>
    match (serve after).getLast? with
    | none => some received
    | some last => pageThrough serve cursorOf fuel (cursorOf last) (received ++ serve after)

/-- No wanted row comes directly after that many others. -/
def GapsBelow (wanted : Row → Bool) (scan : Nat) (rows : List Row) : Prop :=
  ∀ earlier gap row later, rows = earlier ++ gap ++ row :: later →
    (∀ other ∈ gap, wanted other = false) → wanted row = true → gap.length < scan

section Pages

variable {wanted : Row → Bool} {scan limit : Nat} {rows : List Row}

/-- An empty page misses nothing unless a row comes after too many others. -/
theorem filter_eq_nil_iff_gapsBelow (positive : 0 < limit)
    (empty : filteredPage wanted scan limit rows = []) :
    rows.filter wanted = [] ↔ GapsBelow wanted scan rows := by
  have none : ∀ row ∈ rows.take scan, wanted row = false := by
    have nothing := (List.take_eq_nil_iff.mp empty).resolve_left (Nat.ne_of_gt positive)
    intro row member
    simpa using List.filter_eq_nil_iff.mp nothing row member
  constructor
  · intro noneWanted earlier gap row later shape _ isWanted
    have member : row ∈ rows := by
      rw [shape]
      exact List.mem_append_right _ List.mem_cons_self
    exact absurd isWanted (List.filter_eq_nil_iff.mp noneWanted row member)
  · intro gaps
    by_contra some
    obtain ⟨first, front, back, shape, before, isWanted⟩ :
        ∃ first front back, rows = front ++ first :: back ∧
          (∀ other ∈ front, wanted other = false) ∧ wanted first = true := by
      obtain ⟨first, found⟩ := Option.isSome_iff_exists.mp
        (List.find?_isSome.mpr (by
          obtain ⟨row, member⟩ := List.exists_mem_of_ne_nil _ some
          exact ⟨row, (List.mem_filter.mp member).1, (List.mem_filter.mp member).2⟩))
      obtain ⟨isWanted, front, back, shape, before⟩ := List.find?_eq_some_iff_append.mp found
      exact ⟨first, front, back, shape, fun other member => by simpa using before other member,
        isWanted⟩
    have near := gaps [] front first back (by rw [List.nil_append, shape]) before isWanted
    have seen : first ∈ rows.take scan := by
      obtain ⟨more, room⟩ : ∃ more, scan - front.length = more + 1 :=
        ⟨scan - front.length - 1, by omega⟩
      rw [shape, List.take_append, room, List.take_succ_cons]
      exact List.mem_append_right _ List.mem_cons_self
    rw [none first seen] at isWanted
    cases isWanted

/-- A page that is not empty ends with a wanted row near the start of the rows. -/
theorem filteredPage_concat {page : List Row} {last : Row}
    (shape : filteredPage wanted scan limit rows = page ++ [last]) :
    ∃ front rest, rows = front ++ last :: rest ∧ front.filter wanted = page ∧ wanted last = true ∧
      front.length < scan := by
  have ofTake : page ++ [last] <+: (rows.take scan).filter wanted := by
    rw [← shape]
    exact List.take_prefix _ _
  obtain ⟨others, whole⟩ := ofTake
  rw [List.append_assoc, List.singleton_append] at whole
  obtain ⟨front, back, taken, before, after⟩ := List.filter_eq_append_iff.mp whole.symm
  obtain ⟨middle, rest, shape, none, isWanted, -⟩ := List.filter_eq_cons_iff.mp after
  refine ⟨front ++ middle, rest ++ rows.drop scan, ?_, ?_, isWanted, ?_⟩
  · calc rows = rows.take scan ++ rows.drop scan := (List.take_append_drop scan rows).symm
      _ = _ := by rw [taken, shape]; simp
  · rw [List.filter_append, before, List.filter_eq_nil_iff.mpr none, List.append_nil]
  · have length := congrArg List.length taken
    have bound := List.length_take_le scan rows
    rw [shape] at length
    simp only [List.length_append, List.length_cons] at length ⊢
    omega

/-- The gaps behind a wanted row are those of the rest. -/
theorem gapsBelow_append_cons_iff {front rest : List Row} {last : Row} (isWanted : wanted last = true)
    (near : front.length < scan) :
    GapsBelow wanted scan (front ++ last :: rest) ↔ GapsBelow wanted scan rest := by
  constructor
  · intro gaps earlier gap row later shape
    refine gaps (front ++ last :: earlier) gap row later ?_
    rw [shape]
    simp
  · intro gaps earlier gap row later shape others wantedRow
    by_contra far
    rw [List.append_assoc] at shape
    by_cases beyond : front.length < earlier.length
    · -- the gap lies in the rest
      refine far (gaps (earlier.drop (front.length + 1)) gap row later ?_ others wantedRow)
      have dropped := congrArg (List.drop (front.length + 1)) shape
      rw [List.drop_append_of_le_length beyond, List.drop_append, List.drop_eq_nil_of_le (by omega),
        List.nil_append, Nat.add_sub_cancel_left, List.drop_succ_cons, List.drop_zero] at dropped
      rw [dropped, List.append_assoc]
    · -- the gap would have the last row of the page
      have held := congrArg (·[front.length]?) shape
      rw [List.getElem?_append_right (Nat.le_refl _), Nat.sub_self, List.getElem?_cons_zero,
        List.getElem?_append_right (by omega), List.getElem?_append_left (by omega)] at held
      rw [others last (List.mem_of_getElem? held.symm)] at isWanted
      cases isWanted

end Pages

/-! ## The client -/

section Client

variable {Cursor : Type} {rank : Cursor → Nat} {cursorOf : Row → Cursor} {wanted : Row → Bool}
  {scan limit : Nat} {rows : List Row}

/-- The rows after a cursor. -/
def rowsAfter (rank : Cursor → Nat) (cursorOf : Row → Cursor) (rows : List Row) (after : Cursor) :
    List Row :=
  rows.filter fun row => rank after < rank (cursorOf row)

/-- The rows after one of the rows that are left. -/
theorem rowsAfter_of_split
    (increasing : rows.Pairwise fun left right => rank (cursorOf left) < rank (cursorOf right))
    {after : Cursor} {front rest : List Row} {last : Row}
    (left : rowsAfter rank cursorOf rows after = front ++ last :: rest) :
    rowsAfter rank cursorOf rows (cursorOf last) = rest := by
  have beyond : rank after < rank (cursorOf last) := by
    have member : last ∈ rowsAfter rank cursorOf rows after := by
      rw [left]
      exact List.mem_append_right _ List.mem_cons_self
    exact of_decide_eq_true (List.mem_filter.mp member).2
  have again : rowsAfter rank cursorOf rows (cursorOf last) =
      rowsAfter rank cursorOf (rowsAfter rank cursorOf rows after) (cursorOf last) := by
    rw [rowsAfter, rowsAfter, rowsAfter, List.filter_filter]
    refine List.filter_congr fun row _ => ?_
    by_cases further : rank (cursorOf last) < rank (cursorOf row)
    · simp [further, Nat.lt_trans beyond further]
    · simp [further]
  have ordered : (front ++ last :: rest).Pairwise
      fun left right => rank (cursorOf left) < rank (cursorOf right) := by
    rw [← left]
    exact increasing.filter _
  obtain ⟨-, behind, before⟩ := List.pairwise_append.mp ordered
  rw [again, left, rowsAfter, List.filter_append, List.filter_cons_of_neg (by simp)]
  rw [List.filter_eq_nil_iff.mpr fun row member => ?_, List.nil_append]
  · exact List.filter_eq_self.mpr fun row member =>
      decide_eq_true ((List.pairwise_cons.mp behind).1 row member)
  · have smaller := before row member last List.mem_cons_self
    simpa using Nat.le_of_lt smaller

/-- **A client receives all wanted rows exactly when none comes after too many others.** It stops
after at most one call for each row and one more. -/
theorem pageThrough_complete_iff (positive : 0 < limit)
    (increasing : rows.Pairwise fun left right => rank (cursorOf left) < rank (cursorOf right))
    (after : Cursor) :
    ∃ got, (∀ fuel, (rowsAfter rank cursorOf rows after).length < fuel → ∀ received,
      pageThrough (fun after => filteredPage wanted scan limit (rowsAfter rank cursorOf rows after))
        cursorOf fuel after received = some (received ++ got)) ∧
      (got = (rowsAfter rank cursorOf rows after).filter wanted ↔
        GapsBelow wanted scan (rowsAfter rank cursorOf rows after)) := by
  induction measured : (rowsAfter rank cursorOf rows after).length using Nat.strong_induction_on
    generalizing after with
  | _ length ih =>
    rcases List.eq_nil_or_concat' (filteredPage wanted scan limit
      (rowsAfter rank cursorOf rows after)) with empty | ⟨page, last, shape⟩
    · refine ⟨[], fun fuel enough received => ?_, ?_⟩
      · obtain ⟨fuel, rfl⟩ : ∃ less, fuel = less + 1 := ⟨fuel - 1, by omega⟩
        rw [pageThrough]
        rw [empty, List.append_nil]
        rfl
      · rw [← filter_eq_nil_iff_gapsBelow positive empty]
        exact eq_comm
    · obtain ⟨front, rest, split, wantedFront, isWanted, near⟩ := filteredPage_concat shape
      have onward := rowsAfter_of_split increasing split
      have shorter : (rowsAfter rank cursorOf rows (cursorOf last)).length < length := by
        rw [onward, ← measured, split, List.length_append, List.length_cons]
        omega
      obtain ⟨got, served, complete⟩ := ih _ shorter (cursorOf last) rfl
      refine ⟨page ++ [last] ++ got, fun fuel enough received => ?_, ?_⟩
      · obtain ⟨fuel, rfl⟩ : ∃ less, fuel = less + 1 := ⟨fuel - 1, by omega⟩
        rw [pageThrough]
        rw [shape, List.getLast?_concat]
        dsimp only
        rw [served fuel (by omega), List.append_assoc, List.append_assoc]
      · rw [split, gapsBelow_append_cons_iff isWanted near, ← onward, ← complete, onward,
          List.filter_append, List.filter_cons_of_pos isWanted, wantedFront, List.append_assoc,
          List.singleton_append, List.append_cancel_left_eq, List.cons_inj_right]

end Client

end Mempulse.Library
