import Mathlib

/-!
# Programs that call operations

A program is a tree of operation calls: it calls an operation, waits for the reply and goes on
with the program the reply selects. Several programs can be interleaved call by call, since a
program holds its own future.

A protocol says which operations a program may call, given what it has done so far and which
replies it got. A program that conforms to a protocol keeps every invariant that the handler of
the operations keeps along the protocol.
-/

set_option autoImplicit false

namespace Mempulse.Library

universe u v w x y

/-- A program over operations and their replies. -/
inductive Program (Op : Type u) (Reply : Op → Type v) (α : Type w) where
  | done (value : α)
  | call (op : Op) (next : Reply op → Program Op Reply α)

namespace Program

variable {Op : Type u} {Reply : Op → Type v} {α : Type w} {β : Type w} {σ : Type x} {τ : Type y}

/-- Runs a program and goes on with its value. -/
def bind : Program Op Reply α → (α → Program Op Reply β) → Program Op Reply β
  | .done value, rest => rest value
  | .call op next, rest => .call op fun reply => (next reply).bind rest

/-- Runs a program to its end against a handler of its operations. -/
def run (handle : σ → (op : Op) → Reply op × σ) : σ → Program Op Reply α → α × σ
  | state, .done value => (value, state)
  | state, .call op next => run handle (handle state op).2 (next (handle state op).1)

/-- Every call the program can make is allowed, whatever replies it gets. -/
def Within (allowed : Op → Prop) : Program Op Reply α → Prop
  | .done _ => True
  | .call op next => allowed op ∧ ∀ reply, (next reply).Within allowed

theorem Within.bind {allowed : Op → Prop} {program : Program Op Reply α}
    {rest : α → Program Op Reply β} (within : program.Within allowed)
    (continues : ∀ value, (rest value).Within allowed) : (program.bind rest).Within allowed := by
  induction program with
  | done value => exact continues value
  | call op next ih => exact ⟨within.1, fun reply => ih reply (within.2 reply)⟩

/-- Whether a program has no call left. -/
def isDone : Program Op Reply α → Bool
  | .done _ => true
  | .call _ _ => false

end Program

/-! ## Protocols -/

/-- Which operations may be called in a phase, which replies are promised there, and the phase
after a call. -/
structure Protocol (Op : Type u) (Reply : Op → Type v) (τ : Type y) where
  permits : τ → Op → Prop
  promises : τ → (op : Op) → Reply op → Prop
  advance : τ → (op : Op) → Reply op → τ

/-- A program that calls only what the protocol permits, whatever promised replies it gets, and
ends in a final phase. -/
inductive Program.Conforms {Op : Type u} {Reply : Op → Type v} {α : Type w} {τ : Type y}
    (protocol : Protocol Op Reply τ) (final : τ → Prop) : τ → Program Op Reply α → Prop
  | done {phase : τ} (value : α) (ended : final phase) : Conforms protocol final phase (.done value)
  | call {phase : τ} {op : Op} {next : Reply op → Program Op Reply α}
      (permitted : protocol.permits phase op)
      (onward : ∀ reply, protocol.promises phase op reply →
        Conforms protocol final (protocol.advance phase op reply) (next reply)) :
      Conforms protocol final phase (.call op next)

namespace Program.Conforms

variable {Op : Type u} {Reply : Op → Type v} {α β : Type w} {σ : Type x} {τ : Type y}
  {protocol : Protocol Op Reply τ} {final last : τ → Prop}

theorem bind {phase : τ} {program : Program Op Reply α} {rest : α → Program Op Reply β}
    (conforms : Conforms protocol final phase program)
    (continues : ∀ value phase, final phase → Conforms protocol last phase (rest value)) :
    Conforms protocol last phase (program.bind rest) := by
  induction conforms with
  | done value ended => exact continues value _ ended
  | call permitted _ ih => exact .call permitted ih

/-- **The protocol rule.** An invariant of handler state and phase that every permitted call keeps
holds at the end of every conforming program. -/
theorem run {handle : σ → (op : Op) → Reply op × σ} {invariant : σ → τ → Prop}
    (kept : ∀ state phase op, invariant state phase → protocol.permits phase op →
      protocol.promises phase op (handle state op).1 ∧
        invariant (handle state op).2 (protocol.advance phase op (handle state op).1))
    {phase : τ} {program : Program Op Reply α} (conforms : Conforms protocol final phase program)
    {state : σ} (held : invariant state phase) :
    ∃ phase, final phase ∧ invariant (program.run handle state).2 phase := by
  induction conforms generalizing state with
  | done value ended => exact ⟨_, ended, held⟩
  | @call phase op next permitted _ ih =>
      obtain ⟨promised, later⟩ := kept state phase op held permitted
      exact ih _ promised later

end Program.Conforms

end Mempulse.Library
