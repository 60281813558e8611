import Mathlib

/-!
# Lists in the order of a comparison

A comparison is a total preorder: elements can compare equal without being equal. Sorting by it is
stable, and canonical on elements that compare equal only when they are equal. An ordered list is
searched by bisection, and stays ordered when an element is inserted at the partition point of the
smaller ones or removed.
-/

set_option autoImplicit false

namespace Mempulse.Library

open Std

universe u

variable {α : Type u}

/-! ## Sorting -/

/-- The stable sort by a comparison. -/
def stableSort (cmp : α → α → Ordering) (list : List α) : List α :=
  list.insertionSort fun left right => (cmp left right).isLE

/-- A list in the order of a comparison. -/
abbrev Ordered (cmp : α → α → Ordering) (list : List α) : Prop :=
  list.Pairwise fun left right => (cmp left right).isLE = true

section Sorting

variable {cmp : α → α → Ordering} {list other : List α}

theorem stableSort_perm (cmp : α → α → Ordering) (list : List α) :
    (stableSort cmp list).Perm list :=
  List.perm_insertionSort _ list

theorem stableSort_eq_self (ordered : Ordered cmp list) : stableSort cmp list = list :=
  ordered.insertionSort_eq

theorem swap_eq (cmp : α → α → Ordering) [OrientedCmp cmp] (left right : α) : cmp left right = (cmp right left).swap :=
  OrientedCmp.eq_swap

theorem isLE_or_isLE [OrientedCmp cmp] (left right : α) :
    (cmp left right).isLE = true ∨ (cmp right left).isLE = true := by
  rw [swap_eq cmp right left]
  cases cmp left right <;> simp

theorem ordered_stableSort [TransCmp cmp] (list : List α) : Ordered cmp (stableSort cmp list) := by
  have : Std.Total fun left right : α => (cmp left right).isLE = true :=
    ⟨fun left right => isLE_or_isLE left right⟩
  have : IsTrans α fun left right : α => (cmp left right).isLE = true :=
    ⟨fun _ _ _ earlier later => TransCmp.isLE_trans earlier later⟩
  exact List.pairwise_insertionSort _ list

/-- Ordered lists of the same elements are equal when only equal elements compare equal. -/
theorem Ordered.eq_of_perm [OrientedCmp cmp] (left : Ordered cmp list) (right : Ordered cmp other)
    (same : list.Perm other)
    (lawful : ∀ a ∈ list, ∀ b ∈ list, cmp a b = .eq → a = b) : list = other := by
  apply List.Perm.eq_of_pairwise _ left right same
  intro a b inList inOther below above
  apply lawful a inList b (same.mem_iff.mpr inOther)
  rw [swap_eq cmp b a] at above
  cases order : cmp a b with
  | lt => rw [order] at above; cases above
  | eq => rfl
  | gt => rw [order] at below; cases below

/-- **Sorting does not depend on the order of its input** when only equal elements compare equal. -/
theorem stableSort_eq_of_perm [TransCmp cmp] (same : list.Perm other)
    (lawful : ∀ a ∈ list, ∀ b ∈ list, cmp a b = .eq → a = b) :
    stableSort cmp list = stableSort cmp other := by
  have listed := stableSort_perm cmp list
  apply (ordered_stableSort list).eq_of_perm (ordered_stableSort other)
  · exact listed.trans (same.trans (stableSort_perm cmp other).symm)
  · exact fun a inList b alsoInList => lawful a (listed.mem_iff.mp inList) b
      (listed.mem_iff.mp alsoInList)

/-- A relation holds from every front of a list to the elements behind it exactly when it holds between
the elements in their order. Fronts up to a length say nothing of the elements behind that length. -/
theorem forall_front_iff_pairwise {related : α → α → Prop} {room : Nat} :
    (∀ count, 0 < count → count ≤ room → ∀ a ∈ list.take count, ∀ b ∈ list.drop count, related a b) ↔
      (list.take room).Pairwise related ∧ ∀ a ∈ list.take room, ∀ b ∈ list.drop room, related a b := by
  constructor
  · intro fronts
    constructor
    · refine List.pairwise_iff_getElem.mpr fun first second inFirst inSecond below => ?_
      rw [List.length_take] at inFirst inSecond
      refine fronts (first + 1) (Nat.succ_pos first) (by omega) _ ?_ _ ?_
      · exact List.mem_take_iff_getElem.mpr ⟨first, by omega, List.getElem_take.symm⟩
      · refine List.mem_drop_iff_getElem.mpr ⟨second - (first + 1), by omega, ?_⟩
        rw [List.getElem_take]
        congr 1
        omega
    · intro a early b late
      cases room with
      | zero => cases early
      | succ room => exact fronts (room + 1) (Nat.succ_pos room) (Nat.le_refl _) a early b late
  · rintro ⟨inOrder, beyond⟩ count - within a early b late
    have front : list.take count = (list.take room).take count := by
      rw [List.take_take, Nat.min_eq_left within]
    have back : list.drop count = (list.take room).drop count ++ list.drop room := by
      conv_lhs => rw [← List.take_append_drop room list]
      rw [List.drop_append, List.length_take]
      rcases Nat.le_total room list.length with long | short
      · rw [Nat.min_eq_left long, Nat.sub_eq_zero_of_le within, List.drop_zero]
      · rw [List.drop_eq_nil_of_le short, List.drop_nil]
    rw [front] at early
    rw [back] at late
    rcases List.mem_append.mp late with near | far
    · rw [← List.take_append_drop count (list.take room)] at inOrder
      exact (List.pairwise_append.mp inOrder).2.2 a early b near
    · exact beyond a (List.mem_of_mem_take early) b far

/-- All fronts of a list that is no longer than that. -/
theorem forall_front_iff_pairwise_of_length_le {related : α → α → Prop} {room : Nat}
    (short : list.length ≤ room) :
    (∀ count, 0 < count → count ≤ room → ∀ a ∈ list.take count, ∀ b ∈ list.drop count, related a b) ↔
      list.Pairwise related := by
  rw [forall_front_iff_pairwise, List.take_of_length_le short, List.drop_eq_nil_of_le short]
  exact and_iff_left fun a _ b late => by cases late

/-- **The first elements, sorted, are the first of the sorted ones exactly when they come before the
others.** -/
theorem stableSort_take_eq_iff [TransCmp cmp] {count : Nat}
    (lawful : ∀ a ∈ list, ∀ b ∈ list, cmp a b = .eq → a = b) :
    stableSort cmp (list.take count) = (stableSort cmp list).take count ↔
      ∀ a ∈ list.take count, ∀ b ∈ list.drop count, (cmp a b).isLE = true := by
  have parts := List.take_append_drop count list
  constructor
  · intro same a early b late
    have sorted : Ordered cmp (stableSort cmp list) := ordered_stableSort list
    rw [← List.take_append_drop count (stableSort cmp list)] at sorted
    have front : ((stableSort cmp list).take count).Perm (list.take count) :=
      same ▸ stableSort_perm cmp _
    have back : ((stableSort cmp list).drop count).Perm (list.drop count) := by
      refine (List.perm_append_left_iff (list.take count)).mp ?_
      rw [parts]
      refine (front.symm.append_right _).trans ?_
      rw [List.take_append_drop]
      exact stableSort_perm cmp list
    exact (List.pairwise_append.mp sorted).2.2 a (front.mem_iff.mpr early) b (back.mem_iff.mpr late)
  · intro before
    have front := stableSort_perm cmp (list.take count)
    have back := stableSort_perm cmp (list.drop count)
    have joined : Ordered cmp (stableSort cmp (list.take count) ++ stableSort cmp (list.drop count)) :=
      List.pairwise_append.mpr ⟨ordered_stableSort _, ordered_stableSort _, fun a early b late =>
        before a (front.mem_iff.mp early) b (back.mem_iff.mp late)⟩
    have whole : stableSort cmp list =
        stableSort cmp (list.take count) ++ stableSort cmp (list.drop count) := by
      have listed := stableSort_perm cmp list
      refine (ordered_stableSort list).eq_of_perm joined
        (listed.trans (parts ▸ front.append back).symm) fun a inList b alsoInList => ?_
      exact lawful a (listed.mem_iff.mp inList) b (listed.mem_iff.mp alsoInList)
    rcases Nat.le_total count list.length with short | long
    · rw [whole, List.take_left']
      rw [front.length_eq, List.length_take, Nat.min_eq_left short]
    · rw [List.take_of_length_le long, List.take_of_length_le]
      rw [(stableSort_perm cmp list).length_eq]
      exact long

end Sorting

/-! ## Partition points -/

/-- The first index at which a predicate fails. On a list that is partitioned by the predicate it is
the point of the partition. -/
def partitionPoint (predicate : α → Bool) (list : List α) : Nat := (list.takeWhile predicate).length

theorem take_partitionPoint (predicate : α → Bool) (list : List α) :
    list.take (partitionPoint predicate list) = list.takeWhile predicate := by
  exact (List.prefix_iff_eq_take.mp (List.takeWhile_prefix predicate)).symm

theorem drop_partitionPoint (predicate : α → Bool) (list : List α) :
    list.drop (partitionPoint predicate list) = list.dropWhile predicate := by
  have whole := List.takeWhile_append_dropWhile (p := predicate) (l := list)
  have split := List.take_append_drop (partitionPoint predicate list) list
  rw [take_partitionPoint] at split
  exact List.append_cancel_left (split.trans whole.symm)

/-- On a partitioned list, what comes after the partition point are the elements on which the
predicate fails. -/
theorem dropWhile_eq_filter {predicate : α → Bool} {list : List α}
    (partitioned : list.Pairwise fun earlier later => predicate later = true → predicate earlier = true) :
    list.dropWhile predicate = list.filter fun a => !predicate a := by
  induction list with
  | nil => rfl
  | cons first rest ih =>
      obtain ⟨below, tail⟩ := List.pairwise_cons.mp partitioned
      cases holds : predicate first with
      | true =>
          rw [List.dropWhile_cons_of_pos holds, List.filter_cons_of_neg (by simp [holds]), ih tail]
      | false =>
          rw [List.dropWhile_cons_of_neg (by simp [holds]), List.filter_cons_of_pos (by simp [holds])]
          congr 1
          refine (List.filter_eq_self.mpr fun later member => ?_).symm
          cases fails : predicate later with
          | false => rfl
          | true =>
              have early := below later member fails
              rw [holds] at early
              cases early

section Insertion

variable {cmp : α → α → Ordering} {list : List α} {element : α}

/-- An element goes where the smaller ones end. -/
theorem ordered_insert [TransCmp cmp] (ordered : Ordered cmp list) (element : α) :
    Ordered cmp (list.takeWhile (fun existing => (cmp existing element).isLT) ++
      element :: list.dropWhile fun existing => (cmp existing element).isLT) := by
  have whole := List.takeWhile_append_dropWhile (p := fun existing => (cmp existing element).isLT)
    (l := list)
  rw [← whole] at ordered
  obtain ⟨front, back, across⟩ := List.pairwise_append.mp ordered
  -- The first element that is not smaller bounds everything after it.
  have above : ∀ later ∈ list.dropWhile fun existing => (cmp existing element).isLT,
      (cmp element later).isLE = true := by
    cases rest : list.dropWhile fun existing => (cmp existing element).isLT with
    | nil => exact fun later member => by cases member
    | cons first others =>
        rw [rest] at back
        have stops : (cmp first element).isLT = false := by
          have head := List.head?_dropWhile_not (fun existing => (cmp existing element).isLT) list
          rw [rest] at head
          exact head
        have least : (cmp element first).isLE = true := by
          rw [swap_eq cmp element first]
          revert stops
          cases cmp first element <;> simp
        intro later member
        rcases List.mem_cons.mp member with rfl | further
        · exact least
        · exact TransCmp.isLE_trans least ((List.pairwise_cons.mp back).1 later further)
  refine List.pairwise_append.mpr ⟨front, List.pairwise_cons.mpr ⟨above, back⟩, ?_⟩
  intro earlier before later after
  have smaller := List.mem_takeWhile_imp before
  have below : (cmp earlier element).isLE = true := by
    revert smaller
    cases cmp earlier element <;> simp
  rcases List.mem_cons.mp after with rfl | further
  · exact below
  · exact TransCmp.isLE_trans below (above later further)

/-- An element that is not below the last one goes to the end. -/
theorem ordered_concat [TransCmp cmp] (ordered : Ordered cmp list)
    (last : ∀ final ∈ list.getLast?, (cmp final element).isLE = true) :
    Ordered cmp (list ++ [element]) := by
  refine List.pairwise_append.mpr ⟨ordered, List.pairwise_singleton _ _, ?_⟩
  intro earlier before later alone
  rw [List.mem_singleton.mp alone]
  rcases List.eq_nil_or_concat' list with rfl | ⟨front, final, rfl⟩
  · cases before
  · have bound := last final (by simp)
    rcases List.mem_append.mp before with inner | outer
    · have below := (List.pairwise_append.mp ordered).2.2 earlier inner final (by simp)
      exact TransCmp.isLE_trans below bound
    · rw [List.mem_singleton.mp outer]
      exact bound

end Insertion

/-! ## Bisection -/

/-- The loop of `binary_search_by`: it narrows the window of `size` elements from `base` to one
element. Half of a window of more than one element is cut off each time, so the size bounds the
number of rounds. -/
def bisect (order : Nat → Ordering) : Nat → Nat → Nat → Nat
  | 0, base, _ => base
  | fuel + 1, base, size =>
    if size ≤ 1 then base
    else
      let half := size / 2
      let mid := base + half
      bisect order fuel (if (order mid).isGT then base else mid) (size - half)

/-- `binary_search_by`: the index of an element that compares equal, if the search finds one. -/
def binarySearchBy (order : α → Ordering) (list : List α) : Option Nat :=
  let orderAt index := (list[index]?.map order).getD .gt
  let base := bisect orderAt list.length 0 list.length
  if orderAt base = .eq then some base else none

/-- Equal elements come after the smaller ones and before the greater ones. -/
def Bisected (order : Nat → Ordering) : Prop :=
  ∀ low high, low ≤ high → (order high).isLE = true → order low ≠ .gt ∧
    (order low = .eq → order high = .eq)

theorem bisect_finds {order : Nat → Ordering} (bisected : Bisected order) {fuel base size : Nat}
    (enough : size ≤ fuel) (within : ∃ index, base ≤ index ∧ index < base + size ∧ order index = .eq) :
    order (bisect order fuel base size) = .eq := by
  induction fuel generalizing base size with
  | zero =>
      obtain ⟨index, lower, upper, -⟩ := within
      omega
  | succ fuel ih =>
      obtain ⟨index, lower, upper, found⟩ := within
      rw [bisect]
      split
      case isTrue small =>
        have same : base = index := by omega
        rw [same]
        exact found
      case isFalse large =>
        apply ih (by omega)
        split
        case isTrue above =>
          refine ⟨index, lower, ?_, found⟩
          -- The element compares equal, so it lies before the middle, which is greater.
          have before : index < base + size / 2 := by
            by_contra after
            have bound := bisected (base + size / 2) index (Nat.le_of_not_lt after)
              (by rw [found]; rfl)
            exact bound.1 (Ordering.isGT_iff_eq_gt.mp above)
          omega
        case isFalse notAbove =>
          by_cases after : base + size / 2 ≤ index
          · exact ⟨index, after, by omega, found⟩
          · have middle : (order (base + size / 2)).isLE = true := by
              revert notAbove
              cases order (base + size / 2) <;> simp
            have reached := (bisected index (base + size / 2) (by omega) middle).2 found
            exact ⟨base + size / 2, Nat.le_refl _, by omega, reached⟩

theorem binarySearchBy_isSome {order : α → Ordering} {list : List α}
    (bisected : Bisected fun index => (list[index]?.map order).getD .gt) {element : α}
    (member : element ∈ list) (found : order element = .eq) :
    ∃ index, binarySearchBy order list = some index := by
  obtain ⟨index, bound, here⟩ := List.mem_iff_getElem.mp member
  have equal := bisect_finds bisected (Nat.le_refl list.length)
    ⟨index, Nat.zero_le index, by omega, by simp [List.getElem?_eq_getElem bound, here, found]⟩
  exact ⟨_, if_pos equal⟩

/-- What the search finds compares equal. -/
theorem order_of_binarySearchBy {order : α → Ordering} {list : List α} {index : Nat}
    (found : binarySearchBy order list = some index) :
    ∃ element, list[index]? = some element ∧ order element = .eq := by
  unfold binarySearchBy at found
  dsimp only at found
  split at found
  case isTrue equal =>
    cases found
    revert equal
    cases list[bisect (fun index => (list[index]?.map order).getD .gt) list.length 0 list.length]? with
    | none => intro equal; cases equal
    | some element => exact fun equal => ⟨element, rfl, equal⟩
  case isFalse => cases found

/-- An ordered list is bisected by any of its comparisons. -/
theorem Ordered.bisected {cmp : α → α → Ordering} [TransCmp cmp] {list : List α}
    (ordered : Ordered cmp list) (target : α) :
    Bisected fun index => (list[index]?.map fun existing => cmp existing target).getD .gt := by
  intro low high below bound
  dsimp only at bound ⊢
  cases upper : list[high]? with
  | none => rw [upper] at bound; cases bound
  | some above =>
      rw [upper] at bound
      obtain ⟨highBound, rfl⟩ := List.getElem?_eq_some_iff.mp upper
      have lowBound : low < list.length := by omega
      rw [List.getElem?_eq_getElem lowBound]
      dsimp only [Option.map_some, Option.getD_some] at bound ⊢
      have step : (cmp list[low] list[high]).isLE = true := by
        rcases Nat.lt_or_eq_of_le below with strict | rfl
        · exact List.pairwise_iff_getElem.mp ordered low high lowBound highBound strict
        · have self : cmp list[low] list[low] = .eq := ReflCmp.compare_self
          rw [self]
          rfl
      constructor
      · intro greater
        have small := TransCmp.isLE_trans step bound
        rw [greater] at small
        cases small
      · intro equal
        have back : (cmp list[high] target).isGE = true := by
          have same : cmp list[high] list[low] = cmp list[high] target :=
            TransCmp.congr_right equal
          rw [← same, swap_eq cmp list[high] list[low]]
          revert step
          cases cmp list[low] list[high] <;> simp
        revert bound back
        cases cmp list[high] target <;> simp

end Mempulse.Library
