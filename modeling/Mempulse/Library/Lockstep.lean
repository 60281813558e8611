import Mempulse.Library.Unwinding

/-!
# Two machines in lockstep

Two machines take the same inputs. The first is followed together with a record of what the
second one has seen, and a relation says that the second is in the state the record makes it be
in. When a related pair answers an input alike exactly if the input is allowed, and an allowed
input keeps the pair related, a run answers alike from its first input to its last exactly if all
its inputs are allowed.
-/

set_option autoImplicit false

namespace Mempulse.Library

universe u v w x

variable {σ : Type u} {τ : Type v} {ι : Type w} {ο : Type x}

/-- The answers of a run, without the inputs. -/
def outputs (step : σ → ι → ο × σ) (state : σ) (inputs : List ι) : List ο :=
  (answers step state inputs).map Prod.snd

/-- A relation between the states of two machines that answer the allowed inputs alike. -/
structure Lockstep (first : σ → ι → ο × σ) (second : τ → ι → ο × τ) (valid : ι → Prop)
    (allowed : σ → ι → Prop) (paired : σ → τ → Prop) : Prop where
  alike_iff : ∀ {left : σ} {right : τ} {input : ι}, paired left right → valid input →
    ((first left input).1 = (second right input).1 ↔ allowed left input)
  kept : ∀ {left : σ} {right : τ} {input : ι}, paired left right → valid input →
    allowed left input → paired (first left input).2 (second right input).2

namespace Lockstep

variable {first : σ → ι → ο × σ} {second : τ → ι → ο × τ} {valid : ι → Prop}
  {allowed : σ → ι → Prop} {paired : σ → τ → Prop}

/-- **A run answers alike exactly if all its inputs are allowed.** -/
theorem outputs_eq_iff (lockstep : Lockstep first second valid allowed paired) {left : σ} {right : τ}
    {inputs : List ι} (related : paired left right) (valid : ∀ input ∈ inputs, valid input) :
    outputs first left inputs = outputs second right inputs ↔
      RunAllowed first allowed left inputs := by
  induction inputs generalizing left right with
  | nil => exact iff_of_true rfl trivial
  | cons input rest ih =>
      obtain ⟨first, others⟩ := List.forall_mem_cons.mp valid
      simp only [outputs, answers, List.map_cons, List.cons.injEq, RunAllowed]
      rw [lockstep.alike_iff related first]
      exact and_congr_right fun now => ih (lockstep.kept related first now) others

end Lockstep

end Mempulse.Library
