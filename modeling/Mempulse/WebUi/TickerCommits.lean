import Mempulse.WebUi.StreamStore

/-!
# Commits of rows to the stream store

Commits are handed to the store faster than it shows them: a commit waits for the next animation
frame and a later one takes its place. What is shown moves forward along the commits that were handed
in, and a waiting commit always has a frame to come (`run_ticker`).
-/

set_option autoImplicit false

namespace Mempulse.WebUi

open Library

section Ticker

variable {Row Detail : Type} {hashOf : Row → JsValue}

/-- The recent rows of a commit and its transaction rows. -/
def TickerCommit.rows (commit : TickerCommit Row) : List Row × List Row :=
  (normalizeRows commit.recentTxRows, normalizeRows commit.transactionRows)

namespace StreamStore

/-- What the store shows. -/
def shownRows (store : StreamStore Row Detail) : List Row × List Row :=
  (store.recentTxRows, store.transactionRows)

/-- A waiting commit has its frame. -/
structure Ticking (store : StreamStore Row Detail) : Prop where
  awaited : store.pendingTickerCommit.isSome = true → store.rafHandle.isSome = true
  requested : ∀ handle, store.rafHandle = some handle → handle ∈ store.frames

theorem Ticking.of_idle {store : StreamStore Row Detail} (settled : store.pendingTickerCommit = none)
    (idle : store.rafHandle = none) : store.Ticking where
  awaited waiting := by
    rw [settled] at waiting
    cases waiting
  requested handle same := by
    rw [idle] at same
    cases same

theorem enqueueTickerCommit_ticker (store : StreamStore Row Detail)
    (commit : Option (TickerCommit Row)) :
    (store.enqueueTickerCommit commit).shownRows = store.shownRows ∧
      (store.enqueueTickerCommit commit).pendingTickerCommit = commit := by
  unfold enqueueTickerCommit
  dsimp only
  split <;> exact ⟨rfl, rfl⟩

theorem Ticking.enqueue {store : StreamStore Row Detail} (ticking : store.Ticking)
    (commit : Option (TickerCommit Row)) : (store.enqueueTickerCommit commit).Ticking := by
  unfold enqueueTickerCommit
  dsimp only
  split
  case isTrue requested => exact ⟨fun _ => requested, ticking.requested⟩
  case isFalse =>
    refine ⟨fun _ => rfl, fun handle same => ?_⟩
    cases same
    exact List.mem_append_right _ (List.mem_singleton_self _)

/-- What a prune that is scheduled leaves as it is. -/
theorem schedulePrune_ticker (store : StreamStore Row Detail) (rows : List Row) :
    let after := store.scheduleTransactionDetailCachePrune rows
    after.shownRows = store.shownRows ∧ after.pendingTickerCommit = store.pendingTickerCommit ∧
      after.rafHandle = store.rafHandle ∧ after.frames = store.frames := by
  unfold scheduleTransactionDetailCachePrune
  split <;> exact ⟨rfl, rfl, rfl, rfl⟩

theorem commitTickerRows_some (hashOf : Row → JsValue) (store : StreamStore Row Detail) (commit : TickerCommit Row) :
    let after := store.commitTickerRows hashOf (some commit)
    after.shownRows = commit.rows ∧ after.pendingTickerCommit = none ∧ after.rafHandle = none := by
  obtain ⟨shown, waiting, idle, -⟩ := schedulePrune_ticker
    { store with
      transactionRows := normalizeRows commit.transactionRows
      recentTxRows := normalizeRows commit.recentTxRows
      activeSelectedTxId := resolveNextSelectedHash hashOf store.activeSelectedTxId
        (normalizeRows commit.transactionRows)
      pendingTickerCommit := none
      rafHandle := none } (normalizeRows commit.transactionRows)
  exact ⟨shown, waiting, idle⟩

theorem cancelFrame_ticker (store : StreamStore Row Detail) :
    store.cancelFrame.shownRows = store.shownRows ∧
      store.cancelFrame.pendingTickerCommit = store.pendingTickerCommit ∧
      store.cancelFrame.rafHandle = none := by
  unfold cancelFrame
  split
  case h_1 => exact ⟨rfl, rfl, rfl⟩
  case h_2 idle => exact ⟨rfl, rfl, idle⟩

/-- Showing what waits. -/
theorem commitPending_ticker (hashOf : Row → JsValue) (store : StreamStore Row Detail) (idle : store.rafHandle = none) :
    let after := store.commitTickerRows hashOf store.pendingTickerCommit
    after.shownRows = (store.pendingTickerCommit.map TickerCommit.rows).getD store.shownRows ∧
      after.pendingTickerCommit = none ∧ after.rafHandle = none := by
  cases waiting : store.pendingTickerCommit with
  | none => exact ⟨rfl, waiting, idle⟩
  | some commit => exact commitTickerRows_some hashOf store commit

theorem flushTickerCommit_ticker (hashOf : Row → JsValue) (store : StreamStore Row Detail) :
    let after := store.flushTickerCommit hashOf
    after.shownRows = (store.pendingTickerCommit.map TickerCommit.rows).getD store.shownRows ∧
      after.pendingTickerCommit = none ∧
      (store.pendingTickerCommit.isSome = true → after.rafHandle = none) := by
  unfold flushTickerCommit
  split
  case isTrue settled =>
    rw [Option.isNone_iff_eq_none] at settled
    rw [settled]
    exact ⟨rfl, settled, fun waiting => by cases waiting⟩
  case isFalse =>
    obtain ⟨kept, waits, idle⟩ := cancelFrame_ticker store
    obtain ⟨shown, waiting, still⟩ := commitPending_ticker hashOf store.cancelFrame idle
    refine ⟨shown.trans ?_, waiting, fun _ => still⟩
    rw [kept, waits]

end StreamStore

/-- What one event does to the shown rows and the waiting commit. -/
theorem ticker_of_steps {store after : StreamStore Row Detail} {event : StoreEvent Row Detail}
    (taken : store.Steps hashOf event after) :
    (after.shownRows, after.pendingTickerCommit) =
      match event with
      | .enqueueTickerCommit commit => (store.shownRows, commit)
      | .frame _ | .flushTickerCommit =>
        ((store.pendingTickerCommit.map TickerCommit.rows).getD store.shownRows, none)
      | .cancelTickerCommit => (store.shownRows, none)
      | .commitTickerRows (some commit) => (commit.rows, none)
      | .reset => (([], []), none)
      | _ => (store.shownRows, store.pendingTickerCommit) := by
  unfold StreamStore.Steps StreamStore.next at taken
  cases event with
  | enqueueTickerCommit commit =>
      cases taken
      obtain ⟨shown, waiting⟩ := StreamStore.enqueueTickerCommit_ticker store commit
      exact Prod.ext shown waiting
  | frame handle =>
      dsimp only at taken
      split at taken
      · cases taken
        obtain ⟨shown, waiting, -⟩ := StreamStore.commitPending_ticker hashOf
          { store with frames := store.frames.erase handle, rafHandle := none } rfl
        exact Prod.ext shown waiting
      · cases taken
  | flushTickerCommit =>
      cases taken
      obtain ⟨shown, waiting, -⟩ := StreamStore.flushTickerCommit_ticker hashOf store
      exact Prod.ext shown waiting
  | cancelTickerCommit =>
      cases taken
      obtain ⟨kept, waits, -⟩ := StreamStore.cancelFrame_ticker
        { store with pendingTickerCommit := none }
      exact Prod.ext kept waits
  | commitTickerRows commit =>
      cases taken
      cases commit with
      | none => rfl
      | some commit =>
          obtain ⟨shown, waiting, -⟩ :=
            StreamStore.commitTickerRows_some hashOf store commit
          exact Prod.ext shown waiting
  | setActiveSelectedTxId hash =>
      cases taken
      rfl
  | setTransactionDetailByHash hash detail limit =>
      cases taken
      unfold StreamStore.setTransactionDetailByHash
      split <;> rfl
  | pruneTimer =>
      dsimp only at taken
      split at taken
      · cases taken
        unfold StreamStore.pruneTimer
        dsimp only [StreamStore.pruneTransactionDetailCache]
        split <;> rfl
      · cases taken
  | clearTransactionDetailCache =>
      cases taken
      unfold StreamStore.clearTransactionDetailCache
      split <;> rfl
  | reset =>
      cases taken
      obtain ⟨-, waits, -⟩ := StreamStore.cancelFrame_ticker
        { store with pendingTickerCommit := none }
      exact Prod.ext rfl waits

/-- Every event leaves a waiting commit its frame. -/
theorem StreamStore.Ticking.step {store after : StreamStore Row Detail}
    {event : StoreEvent Row Detail} (ticking : store.Ticking)
    (taken : store.Steps hashOf event after) : after.Ticking := by
  unfold StreamStore.Steps StreamStore.next at taken
  cases event with
  | enqueueTickerCommit commit =>
      cases taken
      exact ticking.enqueue commit
  | frame handle =>
      dsimp only at taken
      split at taken
      · cases taken
        obtain ⟨-, waiting, idle⟩ := StreamStore.commitPending_ticker hashOf
          { store with frames := store.frames.erase handle, rafHandle := none } rfl
        exact .of_idle waiting idle
      · cases taken
  | flushTickerCommit =>
      cases taken
      obtain ⟨-, waiting, idle⟩ := StreamStore.flushTickerCommit_ticker hashOf store
      by_cases waited : store.pendingTickerCommit.isSome = true
      · exact .of_idle waiting (idle waited)
      · unfold StreamStore.flushTickerCommit
        rw [if_pos (by simpa using waited)]
        exact ticking
  | cancelTickerCommit =>
      cases taken
      obtain ⟨-, waiting, idle⟩ := StreamStore.cancelFrame_ticker
        { store with pendingTickerCommit := none }
      exact .of_idle waiting idle
  | commitTickerRows commit =>
      cases taken
      cases commit with
      | none => exact ticking
      | some commit =>
          obtain ⟨-, waiting, idle⟩ :=
            StreamStore.commitTickerRows_some hashOf store commit
          exact .of_idle waiting idle
  | setActiveSelectedTxId hash =>
      cases taken
      exact ⟨ticking.awaited, ticking.requested⟩
  | setTransactionDetailByHash hash detail limit =>
      cases taken
      unfold StreamStore.setTransactionDetailByHash
      split
      · exact ⟨ticking.awaited, ticking.requested⟩
      · exact ticking
  | pruneTimer =>
      dsimp only at taken
      split at taken
      · cases taken
        unfold StreamStore.pruneTimer
        dsimp only [StreamStore.pruneTransactionDetailCache]
        split <;> exact ⟨ticking.awaited, ticking.requested⟩
      · cases taken
  | clearTransactionDetailCache =>
      cases taken
      unfold StreamStore.clearTransactionDetailCache
      split
      · exact ticking
      · exact ⟨ticking.awaited, ticking.requested⟩
  | reset =>
      cases taken
      obtain ⟨-, waiting, idle⟩ := StreamStore.cancelFrame_ticker
        { store with pendingTickerCommit := none }
      exact .of_idle waiting idle

/-- The commits that are handed in. -/
def handedIn (history : List (StoreEvent Row Detail)) : List (TickerCommit Row) :=
  history.filterMap fun event =>
    match event with
    | .enqueueTickerCommit commit | .commitTickerRows commit => commit
    | _ => none

/-- Whether an event drops a waiting commit unseen. -/
def StoreEvent.drops : StoreEvent Row Detail → Bool
  | .enqueueTickerCommit none | .cancelTickerCommit | .reset => true
  | _ => false

/-- The rows of the last of some commits. -/
def lastRows (commits : List (TickerCommit Row)) : List Row × List Row :=
  (commits.getLast?.map TickerCommit.rows).getD ([], [])

/-- A store shows the last of the commits up to a number, and what waits is the newest commit. -/
structure StreamStore.ShowsUpTo (store : StreamStore Row Detail) (commits : List (TickerCommit Row))
    (passed : Nat) : Prop where
  bounded : passed ≤ commits.length
  shown : store.shownRows = lastRows (commits.take passed)
  newest : ∀ commit, store.pendingTickerCommit = some commit →
    passed < commits.length ∧ commits.getLast? = some commit

namespace StreamStore.ShowsUpTo

variable {store after : StreamStore Row Detail} {commits : List (TickerCommit Row)} {passed : Nat}

theorem initial : ({} : StreamStore Row Detail).ShowsUpTo [] 0 :=
  ⟨le_rfl, rfl, fun _ waiting => by cases waiting⟩

theorem kept (shows : store.ShowsUpTo commits passed) (shown : after.shownRows = store.shownRows)
    (waiting : after.pendingTickerCommit = store.pendingTickerCommit ∨
      after.pendingTickerCommit = none) : after.ShowsUpTo commits passed := by
  refine ⟨shows.bounded, shown.trans shows.shown, fun commit waits => ?_⟩
  rcases waiting with same | dropped
  · exact shows.newest commit (same.symm.trans waits)
  · rw [dropped] at waits
    cases waits

/-- A commit that waits in place of the others. -/
theorem enqueued (shows : store.ShowsUpTo commits passed) (shown : after.shownRows = store.shownRows)
    {commit : TickerCommit Row} (waiting : after.pendingTickerCommit = some commit) :
    after.ShowsUpTo (commits ++ [commit]) passed := by
  refine ⟨?_, ?_, fun other waits => ⟨?_, ?_⟩⟩
  · rw [List.length_append]
    exact Nat.le_trans shows.bounded (Nat.le_add_right _ _)
  · rw [shown, shows.shown, List.take_append_of_le_length shows.bounded]
  · rw [List.length_append, List.length_singleton]
    exact Nat.lt_succ_of_le shows.bounded
  · cases waiting.symm.trans waits
    exact List.getLast?_concat

/-- The newest commit is shown. -/
theorem caughtUp {commit : TickerCommit Row} (newest : commits.getLast? = some commit)
    (shown : after.shownRows = commit.rows) (settled : after.pendingTickerCommit = none) :
    after.ShowsUpTo commits commits.length := by
  refine ⟨le_rfl, ?_, fun other waits => ?_⟩
  · rw [shown, List.take_length, lastRows, newest]
    rfl
  · rw [settled] at waits
    cases waits

/-- A frame or a flush shows what waits. -/
theorem showPending (shows : store.ShowsUpTo commits passed)
    (shown : after.shownRows =
      (store.pendingTickerCommit.map TickerCommit.rows).getD store.shownRows)
    (settled : after.pendingTickerCommit = none) :
    ∃ later, passed ≤ later ∧ after.ShowsUpTo commits later ∧
      ((store.pendingTickerCommit = none → passed = commits.length) → later = commits.length) := by
  cases waiting : store.pendingTickerCommit with
  | none =>
      rw [waiting] at shown
      exact ⟨passed, le_rfl, shows.kept shown (.inr settled), fun caught => caught rfl⟩
  | some commit =>
      rw [waiting] at shown
      exact ⟨commits.length, shows.bounded, caughtUp (shows.newest commit waiting).2 shown settled,
        fun _ => rfl⟩

/-- **One event shows later commits only**, and unless it drops one, all of them are shown when none
waits. -/
theorem step {event : StoreEvent Row Detail} (shows : store.ShowsUpTo commits passed)
    (taken : store.Steps hashOf event after) (unreset : event ≠ .reset) :
    ∃ later, passed ≤ later ∧ after.ShowsUpTo (commits ++ handedIn [event]) later ∧
      (event.drops = false → (store.pendingTickerCommit = none → passed = commits.length) →
        after.pendingTickerCommit = none → later = (commits ++ handedIn [event]).length) := by
  have effect := ticker_of_steps taken
  have silent : handedIn [event] = [] → after.shownRows = store.shownRows →
      after.pendingTickerCommit = store.pendingTickerCommit →
      ∃ later, passed ≤ later ∧ after.ShowsUpTo (commits ++ handedIn [event]) later ∧
        (event.drops = false → (store.pendingTickerCommit = none → passed = commits.length) →
          after.pendingTickerCommit = none → later = (commits ++ handedIn [event]).length) := by
    intro nothing shown waiting
    rw [nothing, List.append_nil]
    exact ⟨passed, le_rfl, shows.kept shown (.inl waiting), fun _ caught settled =>
      caught (waiting.symm.trans settled)⟩
  cases event with
  | enqueueTickerCommit commit =>
      obtain ⟨shown, waiting⟩ := Prod.mk.inj effect
      cases commit with
      | none =>
          rw [show handedIn [StoreEvent.enqueueTickerCommit none] = [] from rfl, List.append_nil]
          exact ⟨passed, le_rfl, shows.kept shown (.inr waiting), fun kept => by cases kept⟩
      | some commit =>
          exact ⟨passed, le_rfl, shows.enqueued shown waiting, fun _ _ settled => by
            rw [waiting] at settled
            cases settled⟩
  | frame handle =>
      obtain ⟨shown, settled⟩ := Prod.mk.inj effect
      obtain ⟨later, onward, showsLater, caught⟩ := shows.showPending shown settled
      rw [show handedIn [StoreEvent.frame handle] = [] from rfl, List.append_nil]
      exact ⟨later, onward, showsLater, fun _ before _ => caught before⟩
  | flushTickerCommit =>
      obtain ⟨shown, settled⟩ := Prod.mk.inj effect
      obtain ⟨later, onward, showsLater, caught⟩ := shows.showPending shown settled
      rw [show handedIn [StoreEvent.flushTickerCommit] = [] from rfl, List.append_nil]
      exact ⟨later, onward, showsLater, fun _ before _ => caught before⟩
  | cancelTickerCommit =>
      obtain ⟨shown, settled⟩ := Prod.mk.inj effect
      rw [show handedIn [StoreEvent.cancelTickerCommit] = [] from rfl, List.append_nil]
      exact ⟨passed, le_rfl, shows.kept shown (.inr settled), fun kept => by cases kept⟩
  | commitTickerRows commit =>
      obtain ⟨shown, waiting⟩ := Prod.mk.inj effect
      cases commit with
      | none => exact silent rfl shown waiting
      | some commit =>
          refine ⟨_, ?_, caughtUp List.getLast?_concat shown waiting, fun _ _ _ => rfl⟩
          rw [List.length_append]
          exact Nat.le_trans shows.bounded (Nat.le_add_right _ _)
  | reset => exact absurd rfl unreset
  | _ =>
      obtain ⟨shown, waiting⟩ := Prod.mk.inj effect
      exact silent rfl shown waiting

end StreamStore.ShowsUpTo

theorem handedIn_append (earlier later : List (StoreEvent Row Detail)) :
    handedIn (earlier ++ later) = handedIn earlier ++ handedIn later :=
  List.filterMap_append

/-- A run shows later commits only. -/
theorem run_showsUpTo {first last : StreamStore Row Detail} {history : List (StoreEvent Row Detail)}
    {commits : List (TickerCommit Row)} {passed : Nat}
    (run : Run (StreamStore.Steps hashOf) first history last) (unreset : .reset ∉ history)
    (shows : first.ShowsUpTo commits passed) :
    ∃ later, passed ≤ later ∧ last.ShowsUpTo (commits ++ handedIn history) later ∧
      ((∀ event ∈ history, event.drops = false) →
        (first.pendingTickerCommit = none → passed = commits.length) →
        last.pendingTickerCommit = none → later = (commits ++ handedIn history).length) := by
  induction run generalizing commits passed with
  | nil state =>
      rw [show handedIn ([] : List (StoreEvent Row Detail)) = [] from rfl, List.append_nil]
      exact ⟨passed, le_rfl, shows, fun _ caught settled => caught settled⟩
  | @cons state middle final event rest head tail ih =>
      have named : event ≠ .reset := fun same => unreset (same ▸ List.mem_cons_self)
      obtain ⟨between, onward, showsNext, caughtNext⟩ := shows.step head named
      obtain ⟨later, further, showsLast, caughtLast⟩ :=
        ih (fun member => unreset (List.mem_cons_of_mem _ member)) showsNext
      have whole : handedIn (event :: rest) = handedIn [event] ++ handedIn rest :=
        handedIn_append [event] rest
      rw [whole, ← List.append_assoc]
      refine ⟨later, Nat.le_trans onward further, showsLast, fun keeps caught settled => ?_⟩
      exact caughtLast (fun other member => keeps other (List.mem_cons_of_mem _ member))
        (caughtNext (keeps event List.mem_cons_self) caught) settled

/-- **What is shown moves forward along the commits**: the store shows the last of the commits up to a
number, and from any such number on, a later moment has one that is not smaller. As long as nothing
dropped a waiting commit, all are shown when none waits. What waits is the newest commit and any frame
to come shows it, and there is one. -/
theorem run_ticker {store last : StreamStore Row Detail}
    {history onward : List (StoreEvent Row Detail)}
    (run : Run (StreamStore.Steps hashOf) {} history store)
    (later : Run (StreamStore.Steps hashOf) store onward last)
    (unreset : .reset ∉ history ++ onward) :
    (∃ before, store.ShowsUpTo (handedIn history) before) ∧
      (∀ before, store.ShowsUpTo (handedIn history) before →
        ∃ after, before ≤ after ∧ last.ShowsUpTo (handedIn (history ++ onward)) after ∧
          ((∀ event ∈ history ++ onward, event.drops = false) → last.pendingTickerCommit = none →
            after = (handedIn (history ++ onward)).length)) ∧
      ∀ commit, last.pendingTickerCommit = some commit →
        ∃ handle ∈ last.frames, last.rafHandle = some handle ∧
          ∀ any ∈ last.frames, (last.frame hashOf any).shownRows = commit.rows := by
  obtain ⟨number, -, shows, -⟩ := run_showsUpTo run
    (fun member => unreset (List.mem_append_left _ member)) .initial
  obtain ⟨whole, -, showsWhole, caught⟩ := run_showsUpTo (run.append later) unreset .initial
  rw [List.nil_append] at shows showsWhole caught
  refine ⟨⟨number, shows⟩, fun before showsBefore => ?_, fun commit waiting => ?_⟩
  · obtain ⟨after, onwards, showsLast, -⟩ := run_showsUpTo later
      (fun member => unreset (List.mem_append_right _ member)) showsBefore
    rw [← handedIn_append] at showsLast
    by_cases all : (∀ event ∈ history ++ onward, event.drops = false) ∧
        last.pendingTickerCommit = none
    · -- Nothing was dropped and nothing waits, so the number of all commits will do.
      have reached := caught all.1 (fun _ => rfl) all.2
      exact ⟨whole, onwards.trans (reached ▸ showsLast.bounded), showsWhole, fun _ _ => reached⟩
    · exact ⟨after, onwards, showsLast, fun keeps settled => absurd ⟨keeps, settled⟩ all⟩
  · have ticking : last.Ticking := (run.append later).invariant
      (motive := fun _ state => StreamStore.Ticking state)
      (.of_idle rfl rfl) fun _ held taken => held.step taken
    obtain ⟨handle, requested⟩ := Option.isSome_iff_exists.mp
      (ticking.awaited (by rw [waiting]; rfl))
    refine ⟨handle, ticking.requested handle requested, requested, fun any _ => ?_⟩
    obtain ⟨shown, -⟩ := StreamStore.commitPending_ticker hashOf
      { last with frames := last.frames.erase any, rafHandle := none } rfl
    rw [StreamStore.frame, shown, waiting]
    rfl

end Ticker

/-! ## A sample run -/

/-- The rows of the second commit are shown at once, so the frame of the first one shows the third. -/
def staleFrame : List (StoreEvent String (Option Nat)) :=
  [.enqueueTickerCommit (some (sampleCommit ["0x1"])),
    .commitTickerRows (some (sampleCommit ["0x2"])),
    .enqueueTickerCommit (some (sampleCommit ["0x3"]))]

theorem staleFrame_shows :
    (sampleStore staleFrame).pendingTickerCommit = some (sampleCommit ["0x3"]) ∧
      (sampleStore (staleFrame ++ [.frame 1])).shownRows = (["0x3"], ["0x3"]) := by
  have reached : Run (StreamStore.Steps JsValue.string) {} staleFrame (sampleStore staleFrame) :=
    Run.of_foldlM (by decide +kernel)
  obtain ⟨⟨before, showsBefore⟩, onwards, -⟩ := run_ticker reached
    (.single (show (sampleStore staleFrame).next JsValue.string (.frame 1) =
      some (sampleStore (staleFrame ++ [.frame 1])) by decide +kernel)) (by decide)
  obtain ⟨after, -, shows, caught⟩ := onwards before showsBefore
  refine ⟨by decide +kernel, shows.shown.trans ?_⟩
  rw [caught (by decide) (by decide +kernel)]
  decide

end Mempulse.WebUi
