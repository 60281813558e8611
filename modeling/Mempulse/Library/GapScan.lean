import Mathlib

/-!
# Scanning a queue for its first gap

Entries stand at positions, in ascending order. A scan calls an entry *ready* while the
positions seen so far follow one another without a gap, and *blocked* from the first gap on;
a blocked entry is told the position the scan was waiting for.

The ready entries of an ascending queue are its leading run (`scan_ready`). Taking entries
out of the queue commutes with taking the leading run exactly when what is left of the run is
still a run, and is not empty while something is left of the queue (`leadingRun_filter_iff`).
-/

set_option autoImplicit false

namespace Mempulse.Library

universe u v

variable {α : Type u} {β : Type v}

/-! ## The scan -/

/-- What a scan says of one entry. -/
inductive GapVerdict (α : Type u) where
  | ready
  | blocked (expected : α)
  deriving DecidableEq

/-- The state of a scan: the position it waits for, and whether it has passed a gap. -/
structure GapCursor (α : Type u) where
  expected : Option α := none
  gapSeen : Bool := false
  deriving DecidableEq

variable [DecidableEq α]

/-- Advances the cursor over one position. -/
def GapCursor.visit (next : α → Option α) (cursor : GapCursor α) (position : α) :
    GapVerdict α × GapCursor α :=
  match cursor.expected with
  | none => (.ready, { cursor with expected := next position })
  | some expected =>
    if !cursor.gapSeen && position == expected then
      (.ready, { cursor with expected := next position })
    else
      (.blocked expected, { cursor with gapSeen := true })

/-- Scans the entries of a queue in order. -/
def GapCursor.scan (next : α → Option α) :
    GapCursor α → List (α × β) → List ((α × β) × GapVerdict α)
  | _, [] => []
  | cursor, entry :: rest =>
    let visited := cursor.visit next entry.1
    (entry, visited.1) :: visited.2.scan next rest

/-- A scan reports every entry once, in order. -/
@[simp] theorem GapCursor.map_fst_scan (next : α → Option α) (cursor : GapCursor α)
    (entries : List (α × β)) : (cursor.scan next entries).map Prod.fst = entries := by
  induction entries generalizing cursor with
  | nil => rfl
  | cons entry rest ih => simp only [scan, List.map_cons, ih]

@[simp] theorem GapCursor.length_scan (next : α → Option α) (cursor : GapCursor α)
    (entries : List (α × β)) : (cursor.scan next entries).length = entries.length := by
  rw [← List.length_map Prod.fst, GapCursor.map_fst_scan]

/-- Once a gap has been seen every entry is blocked on the same position. -/
theorem GapCursor.scan_of_gapSeen (next : α → Option α) (expected : α)
    (entries : List (α × β)) :
    GapCursor.scan next ⟨some expected, true⟩ entries =
      entries.map fun entry => (entry, .blocked expected) := by
  induction entries with
  | nil => rfl
  | cons entry rest ih =>
      have visited : GapCursor.visit next ⟨some expected, true⟩ entry.1 =
          (.blocked expected, ⟨some expected, true⟩) := by
        simp [visit]
      simp only [scan, visited, List.map_cons, ih]

/-! ## Leading runs -/

/-- Each position is the successor of the one before it. -/
def Consecutive (next : α → Option α) (entries : List (α × β)) : Prop :=
  entries.IsChain fun earlier later => next earlier.1 = some later.1

instance (next : α → Option α) (entries : List (α × β)) : Decidable (Consecutive next entries) :=
  inferInstanceAs (Decidable (entries.IsChain _))

/-- The entries that follow a position without a gap. -/
def followers (next : α → Option α) : α → List (α × β) → List (α × β)
  | _, [] => []
  | last, entry :: rest =>
    if next last = some entry.1 then entry :: followers next entry.1 rest else []

/-- The entries before the first gap. -/
def leadingRun (next : α → Option α) : List (α × β) → List (α × β)
  | [] => []
  | entry :: rest => entry :: followers next entry.1 rest

@[simp] theorem leadingRun_eq_nil (next : α → Option α) {entries : List (α × β)} :
    leadingRun next entries = [] ↔ entries = [] := by
  cases entries <;> simp [leadingRun]

/-- What comes after the run does not continue it. -/
theorem exists_append_followers (next : α → Option α) (start : α × β) (entries : List (α × β)) :
    ∃ others, entries = followers next start.1 entries ++ others ∧
      ∀ last ∈ (start :: followers next start.1 entries).getLast?, ∀ first ∈ others.head?,
        next last.1 ≠ some first.1 := by
  induction entries generalizing start with
  | nil => exact ⟨[], rfl, by simp⟩
  | cons entry rest ih =>
      by_cases follows : next start.1 = some entry.1
      · obtain ⟨others, split, stops⟩ := ih entry
        refine ⟨others, ?_, ?_⟩
        · rw [followers, if_pos follows, List.cons_append, ← split]
        · rw [followers, if_pos follows, List.getLast?_cons_cons]
          exact stops
      · refine ⟨entry :: rest, ?_, ?_⟩
        · rw [followers, if_neg follows, List.nil_append]
        · rw [followers, if_neg follows]
          simpa using follows

/-- The run is how the entries begin. -/
theorem leadingRun_isInitial (next : α → Option α) (entries : List (α × β)) :
    leadingRun next entries <+: entries := by
  cases entries with
  | nil => exact List.prefix_rfl
  | cons entry rest =>
      obtain ⟨others, split, -⟩ := exists_append_followers next entry rest
      exact ⟨others, congrArg (entry :: ·) split.symm⟩

theorem consecutive_followers (next : α → Option α) (start : α × β) (entries : List (α × β)) :
    Consecutive next (start :: followers next start.1 entries) := by
  induction entries generalizing start with
  | nil => exact .singleton _
  | cons entry rest ih =>
      rw [followers]
      split
      case isTrue follows => exact .cons_cons follows (ih entry)
      case isFalse gap => exact .singleton _

theorem consecutive_leadingRun (next : α → Option α) (entries : List (α × β)) :
    Consecutive next (leadingRun next entries) := by
  cases entries with
  | nil => exact .nil
  | cons entry rest => exact consecutive_followers next entry rest

theorem followers_append (next : α → Option α) {start : α × β} {run others : List (α × β)}
    (consecutive : Consecutive next (start :: run))
    (stops : ∀ last ∈ (start :: run).getLast?, ∀ first ∈ others.head?,
      next last.1 ≠ some first.1) :
    followers next start.1 (run ++ others) = run := by
  induction run generalizing start with
  | nil =>
      cases others with
      | nil => rfl
      | cons first others =>
          have gap : next start.1 ≠ some first.1 := stops start rfl first rfl
          rw [List.nil_append, followers, if_neg gap]
  | cons entry run ih =>
      obtain ⟨follows, tail⟩ := List.isChain_cons_cons.mp consecutive
      rw [List.cons_append, followers, if_pos follows, ih tail]
      rwa [List.getLast?_cons_cons] at stops

/-- A run followed by entries that do not continue it is the leading run of the whole. -/
theorem leadingRun_append (next : α → Option α) {run others : List (α × β)}
    (consecutive : Consecutive next run) (nonempty : run ≠ [])
    (stops : ∀ last ∈ run.getLast?, ∀ first ∈ others.head?, next last.1 ≠ some first.1) :
    leadingRun next (run ++ others) = run := by
  cases run with
  | nil => exact absurd rfl nonempty
  | cons entry run =>
      rw [List.cons_append, leadingRun, followers_append next consecutive stops]

/-! ## Ascending queues -/

/-- The positions are numbered: the successor of a position is the one numbered one higher,
and only the last position has none. -/
structure Numbering (next : α → Option α) (rank : α → Nat) : Prop where
  successor : ∀ {position follower : α},
    next position = some follower ↔ rank follower = rank position + 1
  onward : ∀ {position later : α}, rank position < rank later → next position ≠ none

/-- The entries stand at strictly ascending positions. -/
def Ascending (rank : α → Nat) (entries : List (α × β)) : Prop :=
  entries.Pairwise fun earlier later => rank earlier.1 < rank later.1

section Ascending

variable {next : α → Option α} {rank : α → Nat}

/-- A scan that has just passed `start` calls the entries that follow it ready. -/
theorem GapCursor.scan_ready_after (numbering : Numbering next rank) {start : α × β}
    {entries : List (α × β)} (ascending : Ascending rank (start :: entries)) :
    ((GapCursor.scan next ⟨next start.1, false⟩ entries).filter (·.2 = .ready)).map Prod.fst =
      followers next start.1 entries := by
  induction entries generalizing start with
  | nil => rfl
  | cons entry rest ih =>
      obtain ⟨beyond, ascending⟩ := List.pairwise_cons.mp ascending
      obtain ⟨expected, waiting⟩ :=
        Option.ne_none_iff_exists'.mp (numbering.onward (beyond entry (by simp)))
      by_cases meets : entry.1 = expected
      · have visited : GapCursor.visit next ⟨next start.1, false⟩ entry.1 =
            (.ready, ⟨next entry.1, false⟩) := by
          simp [visit, waiting, meets]
        have follows : next start.1 = some entry.1 := by rw [waiting, meets]
        simp only [scan, visited, followers, if_pos follows, decide_true, List.filter_cons_of_pos,
          List.map_cons, ih ascending]
      · have visited : GapCursor.visit next ⟨next start.1, false⟩ entry.1 =
            (.blocked expected, ⟨some expected, true⟩) := by
          simp [visit, waiting, meets]
        have gap : next start.1 ≠ some entry.1 := by
          rw [waiting, ne_eq, Option.some.injEq]
          exact fun same => meets same.symm
        have blocked : (GapCursor.scan next ⟨some expected, true⟩ rest).filter (·.2 = .ready) = [] := by
          rw [scan_of_gapSeen, List.filter_map, List.map_eq_nil_iff, List.filter_eq_nil_iff]
          simp
        simp [scan, visited, followers, gap, blocked]

/-- **The ready entries of an ascending queue are its leading run.** -/
theorem GapCursor.scan_ready (numbering : Numbering next rank) {entries : List (α × β)}
    (ascending : Ascending rank entries) :
    ((GapCursor.scan next {} entries).filter (·.2 = .ready)).map Prod.fst =
      leadingRun next entries := by
  cases entries with
  | nil => rfl
  | cons entry rest =>
      have visited : GapCursor.visit next {} entry.1 = (.ready, ⟨next entry.1, false⟩) := rfl
      simp only [scan, visited, leadingRun, decide_true, List.filter_cons_of_pos, List.map_cons,
        scan_ready_after numbering ascending]

omit [DecidableEq α] in
/-- Between a run and what comes after it at least one position is missing. -/
theorem rank_succ_lt_of_stops (numbering : Numbering next rank) {run others : List (α × β)}
    (ascending : Ascending rank (run ++ others))
    (stops : ∀ last ∈ run.getLast?, ∀ first ∈ others.head?, next last.1 ≠ some first.1)
    {earlier later : α × β} (inRun : earlier ∈ run) (inOthers : later ∈ others) :
    rank earlier.1 + 1 < rank later.1 := by
  obtain ⟨runAscending, othersAscending, across⟩ := List.pairwise_append.mp ascending
  obtain ⟨front, top, rfl⟩ := List.eq_nil_or_concat' run |>.resolve_left (List.ne_nil_of_mem inRun)
  obtain ⟨first, rest, rfl⟩ := List.exists_cons_of_ne_nil (List.ne_nil_of_mem inOthers)
  have gap : rank first.1 ≠ rank top.1 + 1 := fun follows =>
    stops top (by simp) first rfl (numbering.successor.mpr follows)
  have above : rank top.1 < rank first.1 := across top (by simp) first (by simp)
  have low : rank earlier.1 ≤ rank top.1 := by
    rcases List.mem_append.mp inRun with member | member
    · exact ((List.pairwise_append.mp runAscending).2.2 earlier member top (by simp)).le
    · rw [List.mem_singleton.mp member]
  have high : rank first.1 ≤ rank later.1 := by
    rcases List.mem_cons.mp inOthers with rfl | member
    · exact le_rfl
    · exact ((List.pairwise_cons.mp othersAscending).1 later member).le
  omega

/-- **Taking entries out of a queue commutes with taking its leading run exactly when what is
left of the run is a run, and is not empty while something is left of the queue.** -/
theorem leadingRun_filter_iff (numbering : Numbering next rank) {entries : List (α × β)}
    (ascending : Ascending rank entries) (keep : α × β → Bool) :
    leadingRun next (entries.filter keep) = (leadingRun next entries).filter keep ↔
      Consecutive next ((leadingRun next entries).filter keep) ∧
        ((leadingRun next entries).filter keep = [] → entries.filter keep = []) := by
  constructor
  · intro same
    rw [← same]
    exact ⟨consecutive_leadingRun next _, fun empty => (leadingRun_eq_nil next).mp empty⟩
  · rintro ⟨consecutive, exhausted⟩
    by_cases empty : (leadingRun next entries).filter keep = []
    · rw [empty, exhausted empty, leadingRun]
    · cases entries with
      | nil => rfl
      | cons entry rest =>
          obtain ⟨others, split, stops⟩ := exists_append_followers next entry rest
          have whole : entry :: rest = leadingRun next (entry :: rest) ++ others := by
            rw [leadingRun, List.cons_append, ← split]
          have filtered : (entry :: rest).filter keep =
              (leadingRun next (entry :: rest)).filter keep ++ others.filter keep := by
            rw [← List.filter_append, ← whole]
          rw [filtered]
          refine leadingRun_append next consecutive empty ?_
          intro last lastMember first firstMember follows
          have inRun : last ∈ leadingRun next (entry :: rest) :=
            List.mem_of_mem_filter (List.mem_of_getLast? lastMember)
          have inOthers : first ∈ others :=
            List.mem_of_mem_filter (List.mem_of_head? firstMember)
          have apart := rank_succ_lt_of_stops numbering (whole ▸ ascending) stops inRun inOthers
          have step := numbering.successor.mp follows
          omega

omit [DecidableEq α] in
/-- The entries up to a rank are how an ascending queue begins. -/
theorem filter_rank_le_isInitial {entries : List (α × β)} (ascending : Ascending rank entries)
    (top : Nat) : entries.filter (fun entry => rank entry.1 ≤ top) <+: entries := by
  induction entries with
  | nil => exact List.prefix_rfl
  | cons entry rest ih =>
      obtain ⟨beyond, ascending⟩ := List.pairwise_cons.mp ascending
      by_cases below : rank entry.1 ≤ top
      · rw [List.filter_cons_of_pos (by simpa using below)]
        exact List.cons_prefix_cons.mpr ⟨rfl, ih ascending⟩
      · have none : (entry :: rest).filter (fun entry => rank entry.1 ≤ top) = [] := by
          rw [List.filter_eq_nil_iff]
          intro other member within
          have reached : rank other.1 ≤ top := of_decide_eq_true within
          rcases List.mem_cons.mp member with rfl | later
          · exact below reached
          · have above := beyond other later
            omega
        rw [none]
        exact List.nil_prefix

end Ascending

/-! ## What the verdicts say -/

/-- Every number of a range is the rank of an entry. -/
def Filled (rank : α → Nat) (entries : List (α × β)) (low high : Nat) : Prop :=
  ∀ number, low ≤ number → number ≤ high → ∃ entry ∈ entries, rank entry.1 = number

/-- The verdict on a position, over a queue whose lowest rank is `low`: it is ready when no rank
is missing up to it, and blocked on the first missing one otherwise. -/
def GapVerdict.Accurate (rank : α → Nat) (entries : List (α × β)) (low : Nat) (position : α) :
    GapVerdict α → Prop
  | .ready => Filled rank entries low (rank position)
  | .blocked expected => low < rank expected ∧ rank expected < rank position ∧
      (∀ entry ∈ entries, entry.1 ≠ expected) ∧ Filled rank entries low (rank expected - 1)

section Accurate

variable {next : α → Option α} {rank : α → Nat}

omit [DecidableEq α] in
theorem Filled.cons {start entry : α × β} {rest : List (α × β)} {high : Nat}
    (follows : rank entry.1 = rank start.1 + 1)
    (filled : Filled rank (entry :: rest) (rank entry.1) high) :
    Filled rank (start :: entry :: rest) (rank start.1) high := by
  intro number above below
  rcases above.eq_or_lt with same | higher
  · exact ⟨start, List.mem_cons_self, same⟩
  · obtain ⟨other, member, ranked⟩ := filled number (by omega) below
    exact ⟨other, List.mem_cons_of_mem _ member, ranked⟩

omit [DecidableEq α] in
/-- A verdict stays accurate when the queue begins one position earlier. -/
theorem GapVerdict.Accurate.cons {start entry : α × β} {rest : List (α × β)} {position : α}
    {verdict : GapVerdict α} (follows : rank entry.1 = rank start.1 + 1)
    (accurate : verdict.Accurate rank (entry :: rest) (rank entry.1) position) :
    verdict.Accurate rank (start :: entry :: rest) (rank start.1) position := by
  cases verdict with
  | ready => exact Filled.cons follows accurate
  | blocked expected =>
      obtain ⟨above, below, missing, filled⟩ := accurate
      refine ⟨by omega, below, ?_, filled.cons follows⟩
      intro other member
      rcases List.mem_cons.mp member with rfl | later
      · rintro rfl
        omega
      · exact missing other later

theorem GapCursor.scan_accurate_after (numbering : Numbering next rank) {start : α × β}
    {entries : List (α × β)} (ascending : Ascending rank (start :: entries)) :
    ∀ visited ∈ GapCursor.scan next ⟨next start.1, false⟩ entries,
      visited.2.Accurate rank (start :: entries) (rank start.1) visited.1.1 := by
  induction entries generalizing start with
  | nil => exact fun visited member => nomatch member
  | cons entry rest ih =>
      obtain ⟨beyond, later⟩ := List.pairwise_cons.mp ascending
      obtain ⟨expected, waiting⟩ :=
        Option.ne_none_iff_exists'.mp (numbering.onward (beyond entry (by simp)))
      have successor := numbering.successor.mp waiting
      by_cases meets : entry.1 = expected
      · have follows : rank entry.1 = rank start.1 + 1 := by rw [meets, successor]
        have visit : GapCursor.visit next ⟨next start.1, false⟩ entry.1 =
            (.ready, ⟨next entry.1, false⟩) := by
          simp [GapCursor.visit, waiting, meets]
        intro visited member
        simp only [scan, visit, List.mem_cons] at member
        rcases member with rfl | member
        · refine Filled.cons follows fun number above below => ?_
          exact ⟨entry, List.mem_cons_self, above.antisymm below⟩
        · exact (ih later visited member).cons follows
      · have visit : GapCursor.visit next ⟨next start.1, false⟩ entry.1 =
            (.blocked expected, ⟨some expected, true⟩) := by
          simp [GapCursor.visit, waiting, meets]
        have differs : rank entry.1 ≠ rank expected := by
          intro same
          have follows := numbering.successor.mpr (same.trans successor)
          exact meets (Option.some.inj (follows.symm.trans waiting))
        have aboveStart := beyond entry (by simp)
        have above : ∀ other ∈ entry :: rest, rank expected < rank other.1 := by
          intro other member
          rcases List.mem_cons.mp member with rfl | inRest
          · omega
          · have := (List.pairwise_cons.mp later).1 other inRest
            omega
        have blocked : ∀ other ∈ entry :: rest,
            (GapVerdict.blocked expected).Accurate rank (start :: entry :: rest) (rank start.1)
              other.1 := by
          intro other member
          refine ⟨by omega, above other member, ?_, ?_⟩
          · intro present inQueue
            rintro rfl
            rcases List.mem_cons.mp inQueue with rfl | inOthers
            · omega
            · exact (above present inOthers).false
          · intro number low high
            exact ⟨start, List.mem_cons_self, by omega⟩
        intro visited member
        simp only [scan, visit, scan_of_gapSeen, List.mem_cons, List.mem_map] at member
        rcases member with rfl | ⟨other, inRest, rfl⟩
        · exact blocked entry List.mem_cons_self
        · exact blocked other (List.mem_cons_of_mem _ inRest)

/-- **Every verdict of a scan is accurate.** -/
theorem GapCursor.scan_accurate (numbering : Numbering next rank) {first : α × β}
    {rest : List (α × β)} (ascending : Ascending rank (first :: rest)) :
    ∀ visited ∈ GapCursor.scan next {} (first :: rest),
      visited.2.Accurate rank (first :: rest) (rank first.1) visited.1.1 := by
  intro visited member
  have visit : GapCursor.visit next {} first.1 = (.ready, ⟨next first.1, false⟩) := rfl
  simp only [scan, visit, List.mem_cons] at member
  rcases member with rfl | member
  · exact fun number above below => ⟨first, List.mem_cons_self, above.antisymm below⟩
  · exact GapCursor.scan_accurate_after numbering ascending visited member

end Accurate

end Mempulse.Library
