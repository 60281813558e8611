import Mempulse.Library.Splits
import Mempulse.LiveRpc.Sessions

/-!
# Fetching a hash again

The cache of seen hashes is the window of the hashes that were accepted. A hash is accepted again
once `maxSeenHashes` others were accepted after it (`accepted_again_iff`), and whether the fetch of
its batch succeeded makes no difference. So a worker loses no hash exactly when no batch fails that it
has to fetch.
-/

set_option autoImplicit false

namespace Mempulse.LiveRpc

open Std EventLog Library

/-! ## The cache is a window -/

/-- The cache after the hashes were accepted, in this order. -/
structure Recalls (maxSeenHashes : Nat) (accepted : List TxHash) (cache : SeenCache) : Prop where
  order : cache.seenOrder = window maxSeenHashes accepted
  holds : ∀ hash, cache.seenHashes.contains hash = true ↔ hash ∈ cache.seenOrder
  nodup : cache.seenOrder.Nodup

theorem Recalls.empty (maxSeenHashes : Nat) : Recalls maxSeenHashes [] .empty where
  order := (window_nil maxSeenHashes).symm
  holds _ := by simp [SeenCache.empty]
  nodup := List.nodup_nil

theorem forgetOldest_spec (maxSeenHashes : Nat) {seenHashes : ExtTreeSet TxHash}
    {order : List TxHash} (holds : ∀ hash, seenHashes.contains hash = true ↔ hash ∈ order)
    (nodup : order.Nodup) :
    (Ingest.forgetOldest maxSeenHashes seenHashes order).1 = window maxSeenHashes order ∧
      ∀ hash, (Ingest.forgetOldest maxSeenHashes seenHashes order).2.contains hash = true ↔
        hash ∈ window maxSeenHashes order := by
  have forgotten : (Ingest.forgetOldest maxSeenHashes seenHashes order).1 = window maxSeenHashes order ∧
      (∀ hash, (Ingest.forgetOldest maxSeenHashes seenHashes order).2.contains hash = true ↔
        hash ∈ window maxSeenHashes order) ∧ (window maxSeenHashes order).Nodup := by
    refine evict_invariant maxSeenHashes
      (fun (seenHashes : ExtTreeSet TxHash) order =>
        (∀ hash, seenHashes.contains hash = true ↔ hash ∈ order) ∧ order.Nodup) ?_ ⟨holds, nodup⟩
    rintro seenHashes oldest rest ⟨holds, nodup⟩
    obtain ⟨fresh, distinct⟩ := List.nodup_cons.mp nodup
    refine ⟨fun hash => ?_, distinct⟩
    rw [ExtTreeSet.contains_erase, Bool.and_eq_true, holds, List.mem_cons, bne_iff_ne, ne_eq,
      Std.compare_eq_iff_eq]
    constructor
    · rintro ⟨other, rfl | member⟩
      · exact absurd rfl other
      · exact member
    · intro member
      exact ⟨fun same => fresh (same ▸ member), .inr member⟩
  exact ⟨forgotten.1, forgotten.2.1⟩

namespace Recalls

variable {maxSeenHashes : Nat} {accepted : List TxHash} {cache : SeenCache}

/-- A hash that is remembered already changes nothing. -/
theorem rememberHash_of_contains {hash : TxHash} (seen : cache.seenHashes.contains hash = true) :
    rememberHash maxSeenHashes hash cache = (false, cache) :=
  if_pos seen

theorem rememberHash_of_fresh (recalls : Recalls maxSeenHashes accepted cache) {hash : TxHash}
    (fresh : ¬ cache.seenHashes.contains hash = true) :
    (rememberHash maxSeenHashes hash cache).1 = true ∧
      Recalls maxSeenHashes (accepted ++ [hash]) (rememberHash maxSeenHashes hash cache).2 := by
  have absent : hash ∉ cache.seenOrder := fun member => fresh ((recalls.holds hash).mpr member)
  have holds : ∀ other, (cache.seenHashes.insert hash).contains other = true ↔
      other ∈ cache.seenOrder ++ [hash] := by
    intro other
    rw [ExtTreeSet.contains_insert, Bool.or_eq_true, beq_iff_eq, Std.compare_eq_iff_eq,
      recalls.holds, List.mem_append, List.mem_singleton, or_comm, eq_comm]
  have nodup : (cache.seenOrder ++ [hash]).Nodup := by
    rw [List.nodup_append_comm]
    exact List.nodup_cons.mpr ⟨absent, recalls.nodup⟩
  obtain ⟨order, kept⟩ := forgetOldest_spec maxSeenHashes holds nodup
  rw [rememberHash, if_neg fresh]
  refine ⟨rfl, ?_, ?_, ?_⟩
  · rw [← window_window_append, ← recalls.order]
    exact order
  · intro other
    dsimp only
    rw [kept, order]
  · dsimp only
    rw [order]
    exact nodup.sublist (window_isSuffix _ _).sublist

/-- **A hash is accepted again once the window is filled with later ones.** -/
theorem accepted_again_iff {earlier later : List TxHash} {hash : TxHash}
    (recalls : Recalls maxSeenHashes (earlier ++ hash :: later) cache) (absent : hash ∉ later) :
    (rememberHash maxSeenHashes hash cache).1 = true ↔ maxSeenHashes ≤ later.length := by
  have held : cache.seenHashes.contains hash = true ↔ later.length < maxSeenHashes := by
    rw [recalls.holds, recalls.order, mem_window_append_cons_iff earlier absent]
  by_cases seen : cache.seenHashes.contains hash = true
  · rw [rememberHash_of_contains seen]
    have room := held.mp seen
    constructor
    · intro accepted
      cases accepted
    · intro full
      omega
  · have full : ¬ later.length < maxSeenHashes := fun room => seen (held.mpr room)
    exact ⟨fun _ => Nat.le_of_not_lt full, fun _ => (recalls.rememberHash_of_fresh seen).1⟩

/-- A batch adds the hashes it accepts. -/
theorem dedupBatch (recalls : Recalls maxSeenHashes accepted cache) {batch : List PendingHash}
    {deduped : List (PendingHash × TxHash)} {after : SeenCache}
    (reads : LiveRpc.dedupBatch maxSeenHashes batch cache = .returned (deduped, after)) :
    Recalls maxSeenHashes (accepted ++ deduped.map (·.2)) after := by
  induction batch generalizing accepted cache deduped with
  | nil =>
      cases reads
      simpa using recalls
  | cons pending rest ih =>
      rw [LiveRpc.dedupBatch] at reads
      cases read : Slicing.parseFixedHex 32 pending.hashHex with
      | panicked =>
          rw [read] at reads
          cases reads
      | returned result =>
          rw [read] at reads
          cases result with
          | none => exact ih recalls reads
          | some bytes =>
              obtain ⟨⟨later, final⟩, onward, same⟩ := Outcome.map_eq_returned_iff.mp reads
              obtain ⟨kept, rfl⟩ := Prod.mk.inj same
              by_cases seen : cache.seenHashes.contains (hashOfBytes bytes) = true
              · rw [rememberHash_of_contains seen] at kept onward
                rw [← kept]
                exact ih recalls onward
              · obtain ⟨isNew, remembers⟩ := recalls.rememberHash_of_fresh seen
                rw [if_pos isNew] at kept
                rw [← kept, List.map_cons, List.append_cons]
                exact ih remembers onward

end Recalls

/-! ## Calls of a run -/

section Calls

variable (limits : SessionLimits)

namespace BatchCall

variable (call : BatchCall)

/-- What is left of the batch, and the cache behind it. -/
def deduped : Outcome (List (PendingHash × TxHash) × SeenCache) :=
  dedupBatch limits.maxSeenHashes call.hashBatch call.before

/-- The hashes the call accepts, and asks the endpoint for. One that panics before asks for none. -/
def accepted : List TxHash :=
  match call.deduped limits with
  | .returned deduped => deduped.1.map (·.2)
  | .panicked => []

/-- The result of the call, and the cache behind it. -/
def outcome : Outcome (Except String Unit × SeenCache) :=
  processPendingHashBatch limits.maxSeenHashes call.replies call.hashBatch call.before

/-- The hashes the batch announces. -/
def announced : List TxHash :=
  call.hashBatch.filterMap fun pending => spelledHash pending.hashHex

/-- The endpoint and the pipeline answer what the call asks them, unless it panics. -/
def Answered : Prop :=
  ∀ deduped after, call.deduped limits = .returned (deduped, after) → deduped ≠ [] →
    call.replies.fetch (deduped.map (·.1.hashHex)) = .panicked ∨ ∃ fetched,
      call.replies.fetch (deduped.map (·.1.hashHex)) = .returned (.ok fetched) ∧
        processFetched call.replies (deduped.zip fetched).zipIdx = .ok ()

/-- The cache is as if the hashes of the batch had not been seen. -/
def Unmarked (after : SeenCache) : Prop :=
  after = call.before ∧ ∀ hash ∈ call.accepted limits, ¬ after.seenHashes.contains hash = true

variable {limits call}

theorem outcome_eq_returned_iff {result : Except String Unit} {after : SeenCache} :
    call.outcome limits = .returned (result, after) ↔ ∃ deduped,
      call.deduped limits = .returned (deduped, after) ∧
        fetchAndProcess call.replies deduped = .returned result := by
  rw [outcome, processPendingHashBatch, ← BatchCall.deduped]
  cases call.deduped limits with
  | panicked =>
      constructor
      · intro same
        cases same
      · rintro ⟨_, same, -⟩
        cases same
  | returned found =>
      obtain ⟨deduped, cache⟩ := found
      change (fetchAndProcess call.replies deduped >>= fun result => pure (result, cache)) = _ ↔ _
      cases processed : fetchAndProcess call.replies deduped with
      | panicked =>
          constructor
          · intro same
            cases same
          · rintro ⟨other, same, again⟩
            cases same
            cases processed.symm.trans again
      | returned other =>
          constructor
          · intro same
            cases same
            exact ⟨deduped, rfl, processed⟩
          · rintro ⟨same, again, also⟩
            cases again
            cases processed.symm.trans also
            rfl

/-- A call fails exactly when it is not answered. -/
theorem answered_iff : call.Answered limits ↔
    ∀ error after, call.outcome limits ≠ .returned (.error error, after) := by
  constructor
  · intro answered error after failed
    obtain ⟨deduped, reads, processed⟩ := outcome_eq_returned_iff.mp failed
    unfold fetchAndProcess at processed
    split at processed
    case isTrue => cases processed
    case isFalse some =>
      rw [List.isEmpty_iff] at some
      rcases answered deduped after reads some with panics | ⟨fetched, fetches, processes⟩
      · rw [panics] at processed
        cases processed
      · rw [fetches] at processed
        change Outcome.returned (processFetched call.replies (deduped.zip fetched).zipIdx) = _
          at processed
        rw [processes] at processed
        cases processed
  · intro succeeds deduped after reads some
    have processed : ∀ error, fetchAndProcess call.replies deduped ≠ .returned (.error error) :=
      fun error failed => succeeds error after (outcome_eq_returned_iff.mpr ⟨deduped, reads, failed⟩)
    unfold fetchAndProcess at processed
    rw [if_neg (by rwa [List.isEmpty_iff])] at processed
    cases fetches : call.replies.fetch (deduped.map (·.1.hashHex)) with
    | panicked => exact .inl rfl
    | returned fetched =>
        rw [fetches] at processed
        cases fetched with
        | error error => exact absurd rfl (processed error)
        | ok fetched =>
            refine .inr ⟨fetched, rfl, ?_⟩
            cases result : processFetched call.replies (deduped.zip fetched).zipIdx with
            | ok => rfl
            | error error => exact absurd (congrArg Outcome.returned result) (processed error)

theorem accepted_of_deduped {deduped : List (PendingHash × TxHash)} {after : SeenCache}
    (reads : call.deduped limits = .returned (deduped, after)) :
    call.accepted limits = deduped.map (·.2) := by
  rw [accepted, reads]

theorem recalls_outcome {accepted : List TxHash} {result : Except String Unit} {after : SeenCache}
    (recalls : Recalls limits.maxSeenHashes accepted call.before)
    (returns : call.outcome limits = .returned (result, after)) :
    Recalls limits.maxSeenHashes (accepted ++ call.accepted limits) after := by
  obtain ⟨deduped, reads, -⟩ := outcome_eq_returned_iff.mp returns
  rw [accepted_of_deduped reads]
  exact recalls.dedupBatch reads

/-- A call that fails has accepted a hash. -/
theorem accepted_ne_nil {error : String} {after : SeenCache}
    (failed : call.outcome limits = .returned (.error error, after)) :
    call.accepted limits ≠ [] := by
  obtain ⟨deduped, reads, processed⟩ := outcome_eq_returned_iff.mp failed
  rw [accepted_of_deduped reads, Ne, List.map_eq_nil_iff]
  rintro rfl
  cases processed

/-- The last hash that a failing call accepts is remembered. -/
theorem not_unmarked {accepted : List TxHash} {error : String} {after : SeenCache}
    (recalls : Recalls limits.maxSeenHashes accepted call.before)
    (failed : call.outcome limits = .returned (.error error, after)) :
    ¬ call.Unmarked limits after := by
  rintro ⟨-, unseen⟩
  obtain ⟨front, last, split⟩ :=
    (List.eq_nil_or_concat (call.accepted limits)).resolve_left (accepted_ne_nil failed)
  have later := recalls_outcome recalls failed
  have fresh := unseen last (by rw [split]; simp)
  rw [split, List.concat_eq_append, ← List.append_assoc] at later
  have again := (later.accepted_again_iff List.not_mem_nil).mp (later.rememberHash_of_fresh fresh).1
  exact absurd again (Nat.not_le_of_lt limits.seenHashes_pos)

end BatchCall

/-- Each call of a worker that is alive starts from the cache its predecessor leaves. -/
inductive Chained : ChainWorker → Prop where
  | start : Chained .start
  | call {worker : ChainWorker} {after : SeenCache} (hashBatch : List PendingHash)
      (replies : BatchReplies) (result : Except String Unit) (chained : Chained worker)
      (returns : BatchCall.outcome limits ⟨hashBatch, replies, worker.cache⟩ =
        .returned (result, after)) :
      Chained ⟨after, worker.calls ++ [⟨hashBatch, replies, worker.cache⟩]⟩

/-- The worker is alive, or its last call has panicked. -/
inductive Worked : ChainWorker → Prop where
  | alive {worker : ChainWorker} (chained : Chained limits worker) : Worked worker
  | died {worker : ChainWorker} (cache : SeenCache) (hashBatch : List PendingHash)
      (replies : BatchReplies) (chained : Chained limits worker)
      (panics : BatchCall.outcome limits ⟨hashBatch, replies, worker.cache⟩ = .panicked) :
      Worked ⟨cache, worker.calls ++ [⟨hashBatch, replies, worker.cache⟩]⟩

variable {limits} {worker : ChainWorker}

theorem Chained.recalls (chained : Chained limits worker) :
    Recalls limits.maxSeenHashes (worker.calls.flatMap (·.accepted limits)) worker.cache := by
  induction chained with
  | start => exact .empty _
  | call hashBatch replies result chained returns ih =>
      rw [List.flatMap_append, List.flatMap_singleton]
      exact BatchCall.recalls_outcome ih returns

/-- A call starts with the window of the hashes that the calls before it have accepted. -/
theorem Chained.recalls_before {earlier later : List BatchCall} {call : BatchCall}
    (chained : Chained limits worker) (made : worker.calls = earlier ++ call :: later) :
    Recalls limits.maxSeenHashes (earlier.flatMap (·.accepted limits)) call.before := by
  induction chained generalizing later with
  | start => simp [ChainWorker.start] at made
  | call hashBatch replies result chained returns ih =>
      rcases split_append_singleton made with ⟨same, rfl, rfl⟩ | ⟨rest, rfl, shorter⟩
      · rw [← same]
        exact chained.recalls
      · exact ih shorter

theorem Worked.recalls_before {earlier later : List BatchCall} {call : BatchCall}
    (worked : Worked limits worker) (made : worker.calls = earlier ++ call :: later) :
    Recalls limits.maxSeenHashes (earlier.flatMap (·.accepted limits)) call.before := by
  cases worked with
  | alive chained => exact chained.recalls_before made
  | died cache hashBatch replies chained panics =>
      rcases split_append_singleton made with ⟨same, rfl, rfl⟩ | ⟨rest, rfl, shorter⟩
      · rw [← same]
        exact chained.recalls
      · exact chained.recalls_before shorter

/-- A worker whose code has returned is alive. -/
def Goes {α : Type} (limits : SessionLimits) (result : Outcome α × ChainWorker) : Prop :=
  Worked limits result.2 ∧ ∀ value, result.1 = .returned value → Chained limits result.2

theorem Goes.alive {α : Type} {value : α} (chained : Chained limits worker) :
    Goes limits (Outcome.returned value, worker) :=
  ⟨.alive chained, fun _ _ => chained⟩

theorem Goes.panicked {α : Type} (worked : Worked limits worker) :
    Goes limits ((Outcome.panicked : Outcome α), worker) :=
  ⟨worked, nofun⟩

variable {replies : Nat → BatchReplies}

theorem Chained.flushBatches (replies : Nat → BatchReplies) (chained : Chained limits worker)
    (count : Nat) (pendingHashes : List PendingHash) :
    Goes limits (flushBatches limits replies count pendingHashes worker) := by
  induction count generalizing pendingHashes worker with
  | zero => exact .alive chained
  | succ count ih =>
      rw [LiveRpc.flushBatches]
      dsimp only
      split
      case h_1 panics => exact .panicked (.died _ _ _ chained panics)
      case h_2 error after failed => exact .alive (.call _ _ _ chained failed)
      case h_3 after returns => exact ih (.call _ _ _ chained returns) _

theorem Chained.sessionLoop (chained : Chained limits worker) (steps : List SessionStep)
    (ending : SessionEnd) (pendingHashes : List PendingHash) :
    Goes limits (sessionLoop limits replies steps ending pendingHashes worker) := by
  induction steps generalizing pendingHashes worker with
  | nil =>
      cases ending with
      | failed error => exact .alive chained
      | closed =>
          obtain ⟨worked, alive⟩ := chained.flushBatches replies
            (dispatchableBatchCount pendingHashes.length limits.batchSize limits.maxInFlight)
            pendingHashes
          refine ⟨worked, fun value returns => ?_⟩
          obtain ⟨left, flushed, -⟩ := Outcome.map_eq_returned_iff.mp returns
          exact alive left flushed
  | cons step rest ih =>
      have flushed : Goes limits (flushPendingHashBatches limits replies
          (pendingHashes ++ step.queued) worker) := chained.flushBatches replies _ _
      rw [LiveRpc.sessionLoop]
      split
      case h_1 after result =>
        rw [result] at flushed
        exact .panicked flushed.1
      case h_2 error after result =>
        rw [result] at flushed
        exact .alive (flushed.2 _ rfl)
      case h_3 left after result =>
        rw [result] at flushed
        exact ih (flushed.2 _ rfl) left

theorem worked_runChainWorker (sessions : List WsSession) :
    Worked limits (runChainWorker limits replies sessions) := by
  have runs : ∀ worker, Chained limits worker →
      Worked limits (runSessions limits replies sessions worker).2 := by
    intro worker chained
    induction sessions generalizing worker with
    | nil => exact .alive chained
    | cons session rest ih =>
        have ran : Goes limits (runWsSession limits replies session worker) :=
          chained.sessionLoop _ _ _
        rw [runSessions]
        split
        case h_1 after result =>
          rw [result] at ran
          exact ran.1
        case h_2 value after result =>
          rw [result] at ran
          exact ih after (ran.2 value rfl)
  exact runs _ .start

/-! ## Lost hashes -/

/-- A hash of a failed call is accepted by the next call that announces it. -/
def Refetched (limits : SessionLimits) (calls : List BatchCall) : Prop :=
  ∀ earlier failed between again later hash error after,
    calls = earlier ++ failed :: (between ++ again :: later) →
    failed.outcome limits = .returned (.error error, after) → hash ∈ failed.accepted limits →
    (∀ call ∈ between, hash ∉ call.announced) → hash ∈ again.announced →
    hash ∈ again.accepted limits

/-- A failed call leaves the cache as if the hashes of its batch had not been seen, and they are
fetched when they are announced again. -/
def LosesNoHash (limits : SessionLimits) (calls : List BatchCall) : Prop :=
  (∀ call ∈ calls, ∀ error after, call.outcome limits = .returned (.error error, after) →
    call.Unmarked limits after) ∧ Refetched limits calls

/-- The hashes accepted after one of a call, up to a place in a later batch. -/
def acceptedSince (limits : SessionLimits) (rest : List TxHash) (between : List BatchCall)
    (ahead : List (PendingHash × TxHash)) : List TxHash :=
  rest ++ between.flatMap (·.accepted limits) ++ ahead.map (·.2)

/-- When a hash is announced again, it is accepted exactly if `maxSeenHashes` others were accepted
since, whether or not the call failed that accepted it before. -/
theorem Worked.accepted_again_iff {earlier between later : List BatchCall}
    {first again : BatchCall} {front rest : List TxHash} {hash : TxHash}
    (worked : Worked limits worker)
    (made : worker.calls = earlier ++ first :: (between ++ again :: later))
    (accepted : first.accepted limits = front ++ hash :: rest) {announced : List PendingHash}
    {ahead : List (PendingHash × TxHash)} {cache : SeenCache}
    (reads : dedupBatch limits.maxSeenHashes announced again.before = .returned (ahead, cache))
    (absent : hash ∉ acceptedSince limits rest between ahead) :
    (rememberHash limits.maxSeenHashes hash cache).1 = true ↔
      limits.maxSeenHashes ≤ (acceptedSince limits rest between ahead).length := by
  rw [← List.cons_append, ← List.append_assoc] at made
  have recalls := (worked.recalls_before made).dedupBatch reads
  rw [List.flatMap_append, List.flatMap_cons, accepted] at recalls
  have split : earlier.flatMap (·.accepted limits) ++
        ((front ++ hash :: rest) ++ between.flatMap (·.accepted limits)) ++ ahead.map (·.2) =
      (earlier.flatMap (·.accepted limits) ++ front) ++
        hash :: acceptedSince limits rest between ahead := by
    simp only [acceptedSince, List.append_assoc, List.cons_append]
  rw [split] at recalls
  exact recalls.accepted_again_iff absent

/-- **A worker loses no hash exactly when the endpoint and the pipeline answer every call.** -/
theorem losesNoHash_iff_answered (limits : SessionLimits) (replies : Nat → BatchReplies)
    (sessions : List WsSession) :
    LosesNoHash limits (runChainWorker limits replies sessions).calls ↔
      ∀ call ∈ (runChainWorker limits replies sessions).calls, call.Answered limits := by
  have worked : Worked limits (runChainWorker limits replies sessions) :=
    worked_runChainWorker sessions
  constructor
  · rintro ⟨unmarked, -⟩ call made
    refine BatchCall.answered_iff.mpr fun error after failed => ?_
    obtain ⟨earlier, later, split⟩ := List.append_of_mem made
    exact BatchCall.not_unmarked (worked.recalls_before split) failed
      (unmarked call made error after failed)
  · intro answered
    refine ⟨fun call made error after failed => ?_, ?_⟩
    · exact absurd failed (BatchCall.answered_iff.mp (answered call made) error after)
    · intro earlier failed between again later hash error after split failing
      have made : failed ∈ (runChainWorker limits replies sessions).calls := by
        rw [split]
        simp
      exact absurd failing (BatchCall.answered_iff.mp (answered failed made) error after)

end Calls

/-! ## A hash that is lost -/

/-- A hash that is announced a second time. -/
def reannounced : PendingHash :=
  { hashHex := "0x00000000000000000000000000000000000000000000000000000000000000aa"
    observation := { observedAtUnixMs := 1700000000000, observedAtMonoNs := 1 } }

/-- An endpoint whose first fetch times out. -/
def firstFetchFails (call : Nat) : BatchReplies where
  fetch hashes := .returned (if call = 0 then .error "timeout" else .ok (hashes.map fun _ => none))
  process _ _ _ _ := .ok ()

/-- The hash is announced in two sessions. The fetch of the first one fails, and in the second one
it is taken for a duplicate. -/
theorem losesNoHash_firstFetchFails :
    ¬ LosesNoHash (.fromEnv none none none)
      (runChainWorker (.fromEnv none none none) firstFetchFails
        [⟨[.notified reannounced], .closed⟩, ⟨[.notified reannounced], .closed⟩]).calls := by
  generalize run : (runChainWorker (.fromEnv none none none) firstFetchFails
    [⟨[.notified reannounced], .closed⟩, ⟨[.notified reannounced], .closed⟩]).calls = calls
  have seen : calls.map (fun call => (call.announced, call.accepted (.fromEnv none none none),
      (call.outcome (.fromEnv none none none)).map Prod.fst)) =
      [([0xaa], [0xaa], .returned (.error "timeout")), ([0xaa], [], .returned (.ok ()))] := by
    rw [← run]
    decide +kernel
  have two : calls.length = 2 := by
    have lengths := congrArg List.length seen
    rwa [List.length_map] at lengths
  obtain ⟨failed, again, rfl⟩ := List.length_eq_two.mp two
  simp only [List.map_cons, List.map_nil, List.cons.injEq, Prod.mk.injEq, and_true] at seen
  obtain ⟨⟨-, accepted, failing⟩, announced, dropped, -⟩ := seen
  obtain ⟨⟨_, after⟩, returns, rfl⟩ := Outcome.map_eq_returned_iff.mp failing
  rintro ⟨-, refetched⟩
  have lost := refetched [] failed [] again [] 0xaa "timeout" after rfl returns
    (by rw [accepted]; exact List.mem_singleton_self _) nofun
    (by rw [announced]; exact List.mem_singleton_self _)
  rw [dropped] at lost
  cases lost

end Mempulse.LiveRpc
