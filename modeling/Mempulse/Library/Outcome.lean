import Mathlib

/-!
# Code that may panic

A panic ends a computation without a value. Code that may panic returns an `Outcome`; it is put
together with `bind`, and a lazy filter with such a test stops at the first element on which the test
panics (`takeWhere`). An allocation panics when it is larger than any allocation can be.
-/

set_option autoImplicit false

namespace Mempulse.Library

/-- The outcome of code that may panic. -/
inductive Outcome (α : Type) where
  | panicked
  | returned (value : α)
  deriving DecidableEq

namespace Outcome

variable {α β : Type}

/-- Nothing is run after a panic. -/
protected def bind : Outcome α → (α → Outcome β) → Outcome β
  | panicked, _ => panicked
  | returned value, next => next value

instance : Monad Outcome where
  pure := returned
  bind := Outcome.bind

/-- A function of the returned value. -/
protected def map (function : α → β) : Outcome α → Outcome β
  | panicked => panicked
  | returned value => returned (function value)

@[simp] theorem map_eq_panicked_iff {function : α → β} {outcome : Outcome α} :
    outcome.map function = panicked ↔ outcome = panicked := by
  cases outcome <;> simp [Outcome.map]

@[simp] theorem map_eq_returned_iff {function : α → β} {outcome : Outcome α} {result : β} :
    outcome.map function = returned result ↔ ∃ value, outcome = returned value ∧
      function value = result := by
  cases outcome <;> simp [Outcome.map]

@[simp] theorem bind_eq_returned_iff {outcome : Outcome α} {next : α → Outcome β} {result : β} :
    outcome.bind next = returned result ↔ ∃ value, outcome = returned value ∧
      next value = returned result := by
  cases outcome <;> simp [Outcome.bind]

/-! ## Lazy filters -/

/-- `filter(test).take(limit).collect()`. No element behind the last one that is taken is tested. -/
def takeWhere (test : α → Outcome Bool) : List α → Nat → Outcome (List α)
  | [], _ => returned []
  | element :: rest, limit =>
    if limit = 0 then returned []
    else
      (test element).bind fun passes =>
        if passes then (takeWhere test rest (limit - 1)).map (element :: ·)
        else takeWhere test rest limit

/-- A test that does not panic on the elements is a plain filter. -/
theorem takeWhere_eq {test : α → Outcome Bool} {passes : α → Bool} {list : List α}
    (decided : ∀ element ∈ list, test element = returned (passes element)) (limit : Nat) :
    takeWhere test list limit = returned ((list.filter passes).take limit) := by
  induction list generalizing limit with
  | nil => simp [takeWhere]
  | cons element rest ih =>
      have others := ih fun other member => decided other (.tail _ member)
      rw [takeWhere, decided element (.head _)]
      cases limit with
      | zero => simp
      | succ limit =>
          rw [if_neg (Nat.succ_ne_zero limit), Outcome.bind]
          cases passed : passes element with
          | false =>
              rw [if_neg Bool.false_ne_true, others, List.filter_cons_of_neg (by simp [passed])]
          | true =>
              rw [if_pos rfl, others, List.filter_cons_of_pos passed]
              rfl

theorem takeWhere_map {test : β → Outcome Bool} (form : α → β) (list : List α) (limit : Nat) :
    takeWhere test (list.map form) limit =
      (takeWhere (fun element => test (form element)) list limit).map (List.map form) := by
  induction list generalizing limit with
  | nil => rfl
  | cons element rest ih =>
      rw [List.map_cons, takeWhere, takeWhere]
      split
      · rfl
      · cases test (form element) with
        | panicked => rfl
        | returned passes =>
            cases passes with
            | false => exact ih limit
            | true =>
                change (takeWhere test (rest.map form) (limit - 1)).map _ = _
                rw [ih]
                cases takeWhere (fun element => test (form element)) rest (limit - 1) <;> rfl

end Outcome

/-! ## Allocations -/

/-- `isize::MAX`, the bytes of the largest allocation. -/
def isizeMax : Nat := 2 ^ 63 - 1

/-- `Vec::with_capacity` for elements of some bytes. More bytes than the largest allocation has are a
capacity overflow, which panics; any other allocation is granted here. -/
def withCapacity (size capacity : Nat) : Outcome Unit :=
  if size * capacity ≤ isizeMax then .returned () else .panicked

/-- As many elements as fit, up to the bytes of the largest allocation. -/
theorem withCapacity_eq_returned_iff {size capacity : Nat} (sized : 0 < size) :
    withCapacity size capacity = .returned () ↔ capacity ≤ isizeMax / size := by
  rw [Nat.le_div_iff_mul_le sized, Nat.mul_comm, withCapacity]
  split <;> simp [*]

end Mempulse.Library
