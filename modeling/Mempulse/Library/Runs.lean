import Mathlib

/-!
# Labelled runs

A system takes labelled steps. A run is a finite sequence of steps, and its history is the list
of their labels, oldest first. Runs compose and split along their histories, and a property of
history and state that every step extends holds at the end of every run.
-/

set_option autoImplicit false

namespace Mempulse.Library

universe u v

variable {σ : Type u} {ε : Type v} {step : σ → ε → σ → Prop}

/-- A run of a system from one state to another, with its history. -/
inductive Run (step : σ → ε → σ → Prop) : σ → List ε → σ → Prop
  | nil (state : σ) : Run step state [] state
  | cons {first second last : σ} {label : ε} {history : List ε} (head : step first label second)
      (tail : Run step second history last) : Run step first (label :: history) last

namespace Run

theorem single {first last : σ} {label : ε} (taken : step first label last) :
    Run step first [label] last :=
  .cons taken (.nil last)

/-- Steps taken one after another by a partial step function are a run. -/
theorem of_foldlM {next : σ → ε → Option σ} {first last : σ} {history : List ε}
    (taken : history.foldlM next first = some last) :
    Run (fun state label after => next state label = some after) first history last := by
  induction history generalizing first with
  | nil =>
      cases taken
      exact .nil _
  | cons label rest ih =>
      rw [List.foldlM_cons] at taken
      obtain ⟨middle, head, onward⟩ := Option.bind_eq_some_iff.mp taken
      exact .cons head (ih onward)

theorem append {first second last : σ} {earlier later : List ε} (front : Run step first earlier second)
    (back : Run step second later last) : Run step first (earlier ++ later) last := by
  induction front with
  | nil => exact back
  | cons head _ ih => exact .cons head (ih back)

/-- A run splits wherever its history does. -/
theorem split {first last : σ} {earlier later : List ε}
    (run : Run step first (earlier ++ later) last) :
    ∃ middle, Run step first earlier middle ∧ Run step middle later last := by
  induction earlier generalizing first with
  | nil => exact ⟨first, .nil first, run⟩
  | cons label rest ih =>
      cases run with
      | cons head tail =>
          obtain ⟨middle, front, back⟩ := ih tail
          exact ⟨middle, .cons head front, back⟩

/-- The steps of a partial step function lead to one state. -/
theorem unique {next : σ → ε → Option σ} {first last other : σ} {history : List ε}
    (run : Run (fun state label after => next state label = some after) first history last)
    (again : Run (fun state label after => next state label = some after) first history other) :
    last = other := by
  induction run with
  | nil =>
      cases again
      rfl
  | cons head _ ih =>
      cases again with
      | cons same tail =>
          cases head.symm.trans same
          exact ih tail

theorem invariant_onward {motive : List ε → σ → Prop} {first state last : σ}
    {past rest history : List ε} (front : Run step first past state) (run : Run step state rest last)
    (whole : past ++ rest = history) (held : motive past state)
    (extended : ∀ {past : List ε} {state next : σ} {label : ε} (rest : List ε),
      history = past ++ label :: rest → Run step first past state → motive past state →
        step state label next → motive (past ++ [label]) next) :
    motive history last := by
  induction run generalizing past with
  | nil =>
      rw [List.append_nil] at whole
      exact whole ▸ held
  | cons head _ ih =>
      refine ih (front.append (.single head)) ?_ (extended _ whole.symm front held head)
      rw [List.append_assoc]
      exact whole

/-- **The invariant rule, with the history at hand.** What holds of the empty history at the start,
and is extended by every step that the history takes, holds of the whole history at the end. -/
theorem invariant_of_history {motive : List ε → σ → Prop} {first last : σ} {history : List ε}
    (run : Run step first history last) (start : motive [] first)
    (extended : ∀ {past : List ε} {state next : σ} {label : ε} (rest : List ε),
      history = past ++ label :: rest → Run step first past state → motive past state →
        step state label next → motive (past ++ [label]) next) :
    motive history last :=
  invariant_onward (.nil first) run rfl start extended

/-- **The invariant rule.** What holds of the empty history at the start, and is extended by
every step, holds of the whole history at the end. -/
theorem invariant {motive : List ε → σ → Prop} {first last : σ} {history : List ε}
    (run : Run step first history last) (start : motive [] first)
    (extended : ∀ {past : List ε} {state next : σ} {label : ε}, past.length < history.length →
      motive past state → step state label next → motive (past ++ [label]) next) :
    motive history last :=
  run.invariant_of_history start fun rest whole _ held taken => extended (by
    rw [whole, List.length_append, List.length_cons]
    omega) held taken

/-- A condition on states and labels holds at each step of a history. -/
def Along (next : σ → ε → Option σ) (condition : σ → ε → Prop) : σ → List ε → Prop
  | _, [] => True
  | state, label :: rest =>
    condition state label ∧ ∀ after ∈ next state label, Along next condition after rest

instance Along.decidable (next : σ → ε → Option σ) (condition : σ → ε → Prop)
    [∀ state label, Decidable (condition state label)] :
    (state : σ) → (history : List ε) → Decidable (Along next condition state history)
  | _, [] => isTrue trivial
  | state, label :: rest =>
    have : ∀ after, Decidable (Along next condition after rest) := fun after =>
      Along.decidable next condition after rest
    inferInstanceAs (Decidable (condition state label ∧
      ∀ after ∈ next state label, Along next condition after rest))

theorem Along.at {next : σ → ε → Option σ} {condition : σ → ε → Prop} {first state : σ}
    {past rest history : List ε} {label : ε} (along : Along next condition first history)
    (whole : history = past ++ label :: rest)
    (front : Run (fun state label after => next state label = some after) first past state) :
    condition state label := by
  subst whole
  induction front with
  | nil => exact along.1
  | cons head _ ih => exact ih (along.2 _ head)

end Run

/-- A history with two labels of a kind has an earlier and a later one. -/
theorem exists_split_of_one_lt_length_filter {kind : ε → Prop} [DecidablePred kind]
    {history : List ε} (twice : 1 < (history.filter fun label => kind label).length) :
    ∃ before first amid second after,
      history = before ++ first :: (amid ++ second :: after) ∧ kind first ∧ kind second := by
  match kept : history.filter fun label => kind label with
  | [] | [_] => simp [kept] at twice
  | first :: second :: rest =>
      obtain ⟨before, others, whole, -, isFirst, kept⟩ := List.filter_eq_cons_iff.mp kept
      obtain ⟨amid, after, split, -, isSecond, -⟩ := List.filter_eq_cons_iff.mp kept
      exact ⟨before, first, amid, second, after, by rw [whole, split], of_decide_eq_true isFirst,
        of_decide_eq_true isSecond⟩

end Mempulse.Library
