import Mathlib

/-!
# Noninterference by unwinding

A machine answers inputs one after another. The inputs of one kind are not interfered with when
they get the answers they would get on their own. To show it, one relates the states of the
machine that takes all inputs to the states of the machine that takes the visible ones only: a
visible input gets the same answer on both sides and keeps the relation, and a hidden input keeps
it on one side. Both may assume that the input is allowed in the state of the whole machine.
-/

set_option autoImplicit false

namespace Mempulse.Library

universe u v w

variable {σ : Type u} {ι : Type v} {ο : Type w}

/-- The inputs of a run, each with its answer. -/
def answers (step : σ → ι → ο × σ) : σ → List ι → List (ι × ο)
  | _, [] => []
  | state, input :: rest => (input, (step state input).1) :: answers step (step state input).2 rest

/-- The state after a run. -/
def lastState (step : σ → ι → ο × σ) (state : σ) (inputs : List ι) : σ :=
  inputs.foldl (fun state input => (step state input).2) state

/-- Every input of a run is allowed when it is taken. -/
def RunAllowed (step : σ → ι → ο × σ) (allowed : σ → ι → Prop) : σ → List ι → Prop
  | _, [] => True
  | state, input :: rest => allowed state input ∧ RunAllowed step allowed (step state input).2 rest

instance RunAllowed.decidable (step : σ → ι → ο × σ) (allowed : σ → ι → Prop)
    [∀ state input, Decidable (allowed state input)] :
    (state : σ) → (inputs : List ι) → Decidable (RunAllowed step allowed state inputs)
  | _, [] => inferInstanceAs (Decidable True)
  | state, input :: rest =>
    have := RunAllowed.decidable step allowed (step state input).2 rest
    inferInstanceAs (Decidable (allowed state input ∧ _))

/-- A relation between the whole machine's states and those of the machine of the visible
inputs. -/
structure Unwinding (step : σ → ι → ο × σ) (visible : ι → Bool) (allowed : σ → ι → Prop)
    (view : σ → σ → Prop) : Prop where
  shown : ∀ {whole alone : σ} {input : ι}, view whole alone → allowed whole input →
    visible input = true →
      (step whole input).1 = (step alone input).1 ∧ view (step whole input).2 (step alone input).2
  hidden : ∀ {whole alone : σ} {input : ι}, view whole alone → allowed whole input →
    visible input = false → view (step whole input).2 alone

namespace Unwinding

variable {step : σ → ι → ο × σ} {visible : ι → Bool} {allowed : σ → ι → Prop} {view : σ → σ → Prop}

/-- **Noninterference.** The visible inputs get the answers they get on their own, and the states
at the end are related. -/
theorem run (unwinding : Unwinding step visible allowed view) {whole alone : σ} {inputs : List ι}
    (related : view whole alone) (permitted : RunAllowed step allowed whole inputs) :
    (answers step whole inputs).filter (fun answer => visible answer.1) =
        answers step alone (inputs.filter visible) ∧
      view (lastState step whole inputs) (lastState step alone (inputs.filter visible)) := by
  induction inputs generalizing whole alone with
  | nil => exact ⟨rfl, related⟩
  | cons input rest ih =>
      obtain ⟨now, later⟩ := permitted
      cases seen : visible input with
      | true =>
          obtain ⟨same, next⟩ := unwinding.shown related now seen
          obtain ⟨answered, ended⟩ := ih next later
          rw [List.filter_cons_of_pos seen]
          refine ⟨?_, ended⟩
          rw [answers, answers, List.filter_cons, if_pos seen, same, answered]
      | false =>
          have unseen : ¬ visible input = true := by rw [seen]; exact Bool.false_ne_true
          obtain ⟨answered, ended⟩ := ih (unwinding.hidden related now seen) later
          rw [List.filter_cons_of_neg unseen]
          refine ⟨?_, ended⟩
          rw [answers, List.filter_cons, if_neg unseen, answered]

end Unwinding

end Mempulse.Library
