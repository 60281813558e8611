import Mathlib

/-!
# Splits of a list

A list splits at each of its elements into what comes before it and what comes after it. A list with
one more element at its end splits at that element or where the list does. What an element keeps or
breaks decides what holds at every front of the list.
-/

set_option autoImplicit false

namespace Mempulse.Library

universe u

variable {α : Type u} {list earlier later : List α} {last item : α}

theorem split_append_singleton (whole : list ++ [last] = earlier ++ item :: later) :
    (list = earlier ∧ last = item ∧ later = []) ∨
      ∃ rest, later = rest ++ [last] ∧ list = earlier ++ item :: rest := by
  rcases List.eq_nil_or_concat' later with rfl | ⟨rest, final, rfl⟩
  · obtain ⟨rfl, same⟩ := List.append_inj' whole rfl
    exact .inl ⟨rfl, (List.cons.inj same).1, rfl⟩
  · rw [← List.cons_append, ← List.append_assoc] at whole
    obtain ⟨before, same⟩ := List.append_inj' whole rfl
    exact .inr ⟨rest, by rw [(List.cons.inj same).1], before⟩

/-- **What holds at every split** of a longer list holds at its last element and at every split of the
list before it. -/
theorem forall_split_append_singleton {property : List α → α → List α → Prop} :
    (∀ earlier item later, list ++ [last] = earlier ++ item :: later →
        property earlier item later) ↔
      property list last [] ∧ ∀ earlier item later, list = earlier ++ item :: later →
        property earlier item (later ++ [last]) := by
  constructor
  · intro holds
    refine ⟨holds list last [] rfl, fun earlier item later whole => ?_⟩
    exact holds earlier item (later ++ [last]) (by rw [whole, List.append_assoc]; rfl)
  · rintro ⟨atLast, before⟩ earlier item later whole
    rcases split_append_singleton whole with ⟨rfl, rfl, rfl⟩ | ⟨rest, rfl, shorter⟩
    · exact atLast
    · exact before earlier item rest shorter

/-- **A property holds at every front of a list exactly when each element of the list keeps it.** -/
theorem forall_front_iff {property : List α → Prop} {keeps : List α → α → Prop}
    (atNil : property [])
    (step : ∀ earlier item later, list = earlier ++ item :: later → property earlier →
      (property (earlier ++ [item]) ↔ keeps earlier item)) :
    (∀ front back, list = front ++ back → property front) ↔
      ∀ earlier item later, list = earlier ++ item :: later → keeps earlier item := by
  constructor
  · intro kept earlier item later whole
    apply (step earlier item later whole (kept earlier (item :: later) whole)).mp
    exact kept (earlier ++ [item]) later (by rw [whole, List.append_assoc]; rfl)
  · intro keeps front
    induction front using List.reverseRecOn with
    | nil => exact fun _ _ => atNil
    | append_singleton earlier item ih =>
        intro later whole
        rw [List.append_assoc, List.singleton_append] at whole
        exact (step earlier item later whole (ih (item :: later) whole)).mpr
          (keeps earlier item later whole)

end Mempulse.Library
