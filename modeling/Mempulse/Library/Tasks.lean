import Mempulse.Library.Runs

/-!
# Tasks that share a state

Any number of tasks take turns. In a turn one task reads and changes the shared state and its own,
and tasks join at any time. What holds of the shared state and of each task holds in every
interleaving as soon as a turn keeps it for the task that takes it and disturbs it for no other
(`Team.invariant`). A total kept in the shared state equals the sum of what the tasks have
contributed as soon as every turn changes both alike (`Team.total_eq`).
-/

set_option autoImplicit false

namespace Mempulse.Library

universe u v w x

variable {σ : Type u} {τ : Type v} {ι : Type w} {ε : Type x}

/-- The shared state and the tasks that have joined, each at the position of its number. -/
structure Team (σ : Type u) (τ : Type v) where
  shared : σ
  tasks : List τ := []
  deriving DecidableEq

/-- A task joins, or the task of a number acts. -/
inductive TeamTurn (ι : Type w) (ε : Type x) where
  | join (seed : ι)
  | act (number : Nat) (event : ε)
  deriving DecidableEq

namespace Team

/-- One turn, when it is possible. -/
def next (enter : ι → τ) (act : σ → τ → ε → Option (σ × τ)) (crew : Team σ τ) :
    TeamTurn ι ε → Option (Team σ τ)
  | .join seed => some { crew with tasks := crew.tasks ++ [enter seed] }
  | .act number event =>
    (crew.tasks[number]?).bind fun task =>
      (act crew.shared task event).map fun after =>
        { shared := after.1, tasks := crew.tasks.set number after.2 }

/-- Turns in any order. -/
def Takes (enter : ι → τ) (act : σ → τ → ε → Option (σ × τ)) (crew : Team σ τ) (turn : TeamTurn ι ε)
    (after : Team σ τ) : Prop :=
  crew.next enter act turn = some after

variable {enter : ι → τ} {act : σ → τ → ε → Option (σ × τ)} {crew last : Team σ τ}

theorem act_eq_some {number : Nat} {event : ε}
    (taken : crew.Takes enter act (.act number event) last) :
    ∃ task after, crew.tasks[number]? = some task ∧ act crew.shared task event = some after ∧
      last = { shared := after.1, tasks := crew.tasks.set number after.2 } := by
  obtain ⟨task, held, acted⟩ := Option.bind_eq_some_iff.mp taken
  obtain ⟨after, result, same⟩ := Option.map_eq_some_iff.mp acted
  exact ⟨task, after, held, result, same.symm⟩

/-- No more tasks have joined than turns were taken. -/
theorem length_tasks_le {initial : σ} {history : List (TeamTurn ι ε)}
    (run : Run (Takes enter act) { shared := initial } history last) :
    last.tasks.length ≤ history.length := by
  refine run.invariant (motive := fun past crew => crew.tasks.length ≤ past.length) le_rfl ?_
  intro past crew after turn _ held taken
  rw [List.length_append, List.length_singleton]
  cases turn with
  | join seed =>
      cases taken
      rw [List.length_append, List.length_singleton]
      exact Nat.succ_le_succ held
  | act number event =>
      obtain ⟨task, result, -, -, rfl⟩ := act_eq_some taken
      rw [List.length_set]
      exact Nat.le_succ_of_le held

/-- **The rule for shared states, with the number of turns at hand.** A turn keeps what holds of the
shared state and of its own task, and disturbs what holds of no other. -/
theorem timed_invariant (common : Nat → σ → Prop) (own : σ → τ → Prop) {initial : σ}
    {history : List (TeamTurn ι ε)} (run : Run (Takes enter act) { shared := initial } history last)
    (start : common 0 initial) (idle : ∀ time shared, common time shared → common (time + 1) shared)
    (joined : ∀ time shared seed, common time shared → own shared (enter seed))
    (acted : ∀ {time shared task event after}, common time shared → own shared task →
      act shared task event = some after →
        common (time + 1) after.1 ∧ own after.1 after.2 ∧
          ∀ other, own shared other → own after.1 other) :
    common history.length last.shared ∧ ∀ task ∈ last.tasks, own last.shared task := by
  refine run.invariant (motive := fun past crew =>
    common past.length crew.shared ∧ ∀ task ∈ crew.tasks, own crew.shared task)
    ⟨start, fun _ held => nomatch held⟩ ?_
  intro past crew after turn _ held taken
  rw [List.length_append, List.length_singleton]
  cases turn with
  | join seed =>
      cases taken
      refine ⟨idle _ _ held.1, fun task member => ?_⟩
      rcases List.mem_append.mp member with earlier | new
      · exact held.2 task earlier
      · exact List.mem_singleton.mp new ▸ joined _ crew.shared seed held.1
  | act number event =>
      obtain ⟨task, result, found, produced, rfl⟩ := act_eq_some taken
      obtain ⟨kept, mine, others⟩ := acted held.1 (held.2 task (List.mem_of_getElem? found)) produced
      refine ⟨kept, fun other member => ?_⟩
      rcases List.mem_or_eq_of_mem_set member with stays | rfl
      · exact others other (held.2 other stays)
      · exact mine

/-- **The rule for shared states.** -/
theorem invariant (common : σ → Prop) (own : σ → τ → Prop) {initial : σ}
    {history : List (TeamTurn ι ε)} (run : Run (Takes enter act) { shared := initial } history last)
    (start : common initial) (joined : ∀ shared seed, common shared → own shared (enter seed))
    (acted : ∀ {shared task event after}, common shared → own shared task →
      act shared task event = some after →
        common after.1 ∧ own after.1 after.2 ∧ ∀ other, own shared other → own after.1 other) :
    common last.shared ∧ ∀ task ∈ last.tasks, own last.shared task :=
  timed_invariant (fun _ => common) own run start (fun _ _ => id) (fun _ => joined) acted

/-- The events that the task of a number has taken. -/
def eventsOf (number : Nat) (history : List (TeamTurn ι ε)) : List ε :=
  history.filterMap fun
    | .join _ => none
    | .act other event => if other = number then some event else none

theorem eventsOf_join (number : Nat) (history : List (TeamTurn ι ε)) (seed : ι) :
    eventsOf number (history ++ [.join seed]) = eventsOf number history := by
  rw [eventsOf, List.filterMap_append]
  exact List.append_nil _

theorem eventsOf_act (number other : Nat) (history : List (TeamTurn ι ε)) (event : ε) :
    eventsOf number (history ++ [.act other event]) =
      eventsOf number history ++ if other = number then [event] else [] := by
  rw [eventsOf, List.filterMap_append]
  congr 1
  by_cases own : other = number <;> simp [own]

/-- **The rule for tasks and what they were told.** What holds of a task may speak of the events it has
taken. -/
theorem told_invariant (common : σ → Prop) (own : List ε → σ → τ → Prop) {initial : σ}
    {history : List (TeamTurn ι ε)} (run : Run (Takes enter act) { shared := initial } history last)
    (start : common initial) (joined : ∀ shared seed, common shared → own [] shared (enter seed))
    (acted : ∀ {past shared task event after}, common shared → own past shared task →
      act shared task event = some after →
        common after.1 ∧ own (past ++ [event]) after.1 after.2 ∧
          ∀ told other, own told shared other → own told after.1 other) :
    common last.shared ∧ ∀ number task, last.tasks[number]? = some task →
      own (eventsOf number history) last.shared task := by
  suffices held : (common last.shared ∧ ∀ number task, last.tasks[number]? = some task →
      own (eventsOf number history) last.shared task) ∧
        ∀ number, last.tasks.length ≤ number → eventsOf number history = [] from held.1
  refine run.invariant (motive := fun past crew =>
    (common crew.shared ∧ ∀ number task, crew.tasks[number]? = some task →
      own (eventsOf number past) crew.shared task) ∧
        ∀ number, crew.tasks.length ≤ number → eventsOf number past = [])
    ⟨⟨start, fun _ _ held => by cases held⟩, fun _ _ => rfl⟩ ?_
  rintro past crew after turn - ⟨⟨kept, each⟩, silent⟩ taken
  cases turn with
  | join seed =>
      cases taken
      refine ⟨⟨kept, fun number task held => ?_⟩, fun number beyond => ?_⟩
      · rw [eventsOf_join]
        dsimp only at held ⊢
        rcases Nat.lt_or_ge number crew.tasks.length with earlier | late
        · rw [List.getElem?_append_left earlier] at held
          exact each number task held
        · rw [silent number late]
          rw [List.getElem?_append_right late] at held
          rw [List.mem_singleton.mp (List.mem_of_getElem? held)]
          exact joined crew.shared seed kept
      · rw [List.length_append] at beyond
        rw [eventsOf_join, silent number (by omega)]
  | act number event =>
      obtain ⟨task, result, found, produced, rfl⟩ := act_eq_some taken
      obtain ⟨still, mine, others⟩ := acted kept (each number task found) produced
      have inside := (List.getElem?_eq_some_iff.mp found).1
      refine ⟨⟨still, fun other member held => ?_⟩, fun other beyond => ?_⟩
      · rw [eventsOf_act]
        dsimp only at held ⊢
        rw [List.getElem?_set] at held
        split at held
        case isTrue same =>
          subst same
          rw [if_pos rfl, ← Option.some.inj held]
          exact mine
        case isFalse apart =>
          rw [if_neg apart, List.append_nil]
          exact others _ member (each other member held)
      · rw [List.length_set] at beyond
        rw [eventsOf_act, if_neg (by omega), silent other beyond, List.append_nil]

/-- **The rule for tasks with keys.** When nobody joins and the keys differ, a turn only has to keep
what holds of the tasks with other keys. -/
theorem keyed_invariant {κ : Type*} (key : τ → κ) (common : σ → Prop) (own : σ → τ → Prop)
    {nobody : Empty → τ} {first : Team σ τ} {history : List (TeamTurn Empty ε)}
    (run : Run (Takes nobody act) first history last) (apart : (first.tasks.map key).Nodup)
    (start : common first.shared) (each : ∀ task ∈ first.tasks, own first.shared task)
    (acted : ∀ {shared task event after}, common shared → own shared task →
      act shared task event = some after → common after.1 ∧ key after.2 = key task ∧
        own after.1 after.2 ∧ ∀ other, key other ≠ key task → own shared other → own after.1 other) :
    last.tasks.map key = first.tasks.map key ∧ common last.shared ∧
      ∀ task ∈ last.tasks, own last.shared task := by
  refine run.invariant (motive := fun _ crew => crew.tasks.map key = first.tasks.map key ∧
    common crew.shared ∧ ∀ task ∈ crew.tasks, own crew.shared task) ⟨rfl, start, each⟩ ?_
  rintro past crew after (⟨⟨⟩⟩ | ⟨number, event⟩) _ ⟨keys, held, owned⟩ taken
  obtain ⟨task, result, found, produced, rfl⟩ := act_eq_some taken
  obtain ⟨kept, sameKey, mine, others⟩ :=
    acted held (owned task (List.mem_of_getElem? found)) produced
  have unchanged : (crew.tasks.set number result.2).map key = crew.tasks.map key := by
    rw [List.map_set, sameKey]
    refine List.ext_getElem? fun position => ?_
    rw [List.getElem?_set]
    split
    case isTrue same =>
      subst same
      have within := (List.getElem?_eq_some_iff.mp found).1
      rw [if_pos (by rwa [List.length_map]), List.getElem?_map, found, Option.map_some]
    case isFalse => rfl
  refine ⟨unchanged.trans keys, kept, fun other member => ?_⟩
  obtain ⟨position, stands⟩ := List.mem_iff_getElem?.mp member
  rw [List.getElem?_set] at stands
  split at stands
  case isTrue =>
    split at stands
    case isTrue => exact Option.some.inj stands ▸ mine
    case isFalse => cases stands
  case isFalse elsewhere =>
    refine others other (fun same => elsewhere ?_) (owned other (List.mem_of_getElem? stands))
    have distinct : (crew.tasks.map key).Nodup := keys ▸ apart
    refine (List.getElem?_inj (by simpa using (List.getElem?_eq_some_iff.mp found).1) distinct).mp ?_
    rw [List.getElem?_map, List.getElem?_map, found, stands, Option.map_some, Option.map_some, same]

/-- A task that changes its contribution changes the sum by as much. -/
theorem sum_map_set (weight : τ → Nat) (after : τ) {tasks : List τ} {number : Nat} {task : τ}
    (found : tasks[number]? = some task) :
    ((tasks.set number after).map weight).sum + weight task =
      (tasks.map weight).sum + weight after := by
  induction tasks generalizing number with
  | nil => cases found
  | cons first rest ih =>
      cases number with
      | zero =>
          cases found
          simp only [List.set_cons_zero, List.map_cons, List.sum_cons]
          omega
      | succ number =>
          have onward := ih found
          simp only [List.set_cons_succ, List.map_cons, List.sum_cons]
          omega

/-- **The rule for totals.** The total is the base and what the tasks contribute, when a task joins
with nothing and every turn changes the total by what it changes the base and its task's
contribution. The turn is taken where an earlier part of the run leads. -/
theorem total_eq (weight : τ → Nat) (base total : σ → Nat) {initial : σ}
    {history : List (TeamTurn ι ε)} (run : Run (Takes enter act) { shared := initial } history last)
    (start : total initial = base initial) (joined : ∀ seed, weight (enter seed) = 0)
    (acted : ∀ {past : List (TeamTurn ι ε)} {crew : Team σ τ} {task event after},
      Run (Takes enter act) { shared := initial } past crew → past.length < history.length →
      task ∈ crew.tasks → total crew.shared = base crew.shared + (crew.tasks.map weight).sum →
      act crew.shared task event = some after →
        total after.1 + base crew.shared + weight task =
          total crew.shared + base after.1 + weight after.2) :
    total last.shared = base last.shared + (last.tasks.map weight).sum := by
  refine run.invariant_of_history (motive := fun _ crew =>
    total crew.shared = base crew.shared + (crew.tasks.map weight).sum) start ?_
  intro past crew after turn rest whole front held taken
  cases turn with
  | join seed =>
      cases taken
      rw [List.map_append, List.sum_append, List.map_singleton, List.sum_singleton, joined]
      exact held
  | act number event =>
      obtain ⟨task, result, found, produced, rfl⟩ := act_eq_some taken
      have few : past.length < history.length := by
        rw [whole, List.length_append, List.length_cons]
        omega
      have changed := acted front few (List.mem_of_getElem? found) held produced
      have exchanged := sum_map_set weight result.2 found
      dsimp only
      omega

end Team

end Mempulse.Library
