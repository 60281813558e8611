import Mempulse.Library.Strides
import Mempulse.Replay.QueueReport

/-!
# A stride thins a replay without changing it

A replay at a larger stride emits fewer of the same frames: the frame that closes each block of
`stride` events, and the last one. So the last frame shows the final state at every stride and in
both modes.
-/

set_option autoImplicit false

namespace Mempulse.Replay

open Std EventLog Library

/-! ## Frames by position -/

theorem getElem?_trace (state : MempoolState) (events : List EventEnvelope) (position : Nat) :
    (trace state events)[position]? = (events[position]?).map fun event =>
      (event, state.replay ((events.take (position + 1)).map (·.payload))) := by
  induction events generalizing state position with
  | nil => rfl
  | cons event rest ih =>
      rw [trace]
      cases position with
      | zero => rfl
      | succ position =>
          rw [List.getElem?_cons_succ, List.getElem?_cons_succ, ih, List.take_succ_cons,
            List.map_cons]
          rfl

/-- The frame after the first events of a sorted stream. -/
def framesAt (sorted : List EventEnvelope) (position : Nat) : Option ReplayFrame :=
  (sorted[position]?).map fun event =>
    frameOf (event, MempoolState.replay {} ((sorted.take (position + 1)).map (·.payload)))

/-- The deterministic loop samples the frames of all events. -/
theorem replayDeterministicLoop_eq_sampled (iteration : MapIteration) (stride total idx : Nat)
    (state : MempoolState) (events : List EventEnvelope) :
    iteration.replayDeterministicLoop stride total idx state events =
      sampled stride total idx ((trace state events).map frameOf) := by
  induction events generalizing idx state with
  | nil => rfl
  | cons event rest ih =>
      rw [MapIteration.replayDeterministicLoop, MapIteration.frame_eq, ih, trace, List.map_cons,
        sampled]

theorem length_trace (state : MempoolState) (events : List EventEnvelope) :
    (trace state events).length = events.length := by
  rw [← List.length_map Prod.fst, map_fst_trace]

theorem length_sortDeterministic (events : List EventEnvelope) :
    (sortDeterministic events).length = events.length :=
  (stableSort_perm cmpDeterministic events).length_eq

/-- The frames of all events of a stream. -/
def everyFrame (events : List EventEnvelope) : List ReplayFrame :=
  (trace {} (sortDeterministic events)).map frameOf

theorem length_everyFrame (events : List EventEnvelope) :
    (everyFrame events).length = events.length := by
  rw [everyFrame, List.length_map, length_trace, length_sortDeterministic]

theorem getElem?_everyFrame (events : List EventEnvelope) (position : Nat) :
    (everyFrame events)[position]? = framesAt (sortDeterministic events) position := by
  rw [everyFrame, List.getElem?_map, getElem?_trace, Option.map_map]
  rfl

section Frames

variable (iteration : MapIteration) (events : List EventEnvelope) (mode : ReplayMode) (stride : Nat)

theorem replayFrames_eq_sampled :
    iteration.replayFrames events mode stride =
      sampled (max stride 1) (everyFrame events).length 0 (everyFrame events) := by
  rw [replayFrames_eq iteration iteration events mode .deterministicEventReplay,
    MapIteration.replayFrames, MapIteration.replayDeterministic,
    replayDeterministicLoop_eq_sampled, length_everyFrame, length_sortDeterministic, everyFrame]

/-- The frames of a replay by position. -/
theorem getElem?_replayFrames (position : Nat) :
    (iteration.replayFrames events mode stride)[position]? =
      if position * max stride 1 < events.length then
        framesAt (sortDeterministic events)
          (min ((position + 1) * max stride 1) events.length - 1)
      else none := by
  rw [replayFrames_eq_sampled, getElem?_sampled (by omega), getElem?_everyFrame, length_everyFrame]

theorem length_replayFrames :
    (iteration.replayFrames events mode stride).length =
      (events.length + max stride 1 - 1) / max stride 1 := by
  rw [replayFrames_eq_sampled, length_sampled (by omega), length_everyFrame]

/-- The last frame is the frame of the whole stream. -/
theorem getLast?_replayFrames :
    (iteration.replayFrames events mode stride).getLast? =
      framesAt (sortDeterministic events) (events.length - 1) := by
  rw [replayFrames_eq_sampled, getLast?_sampled (by omega), List.getLast?_eq_getElem?,
    getElem?_everyFrame, length_everyFrame]

/-- What the last frame shows pending is what is pending after all events. -/
theorem mem_getLast?_replayFrames_iff (hash : TxHash) :
    (∃ frame, (iteration.replayFrames events mode stride).getLast? = some frame ∧
        hash ∈ frame.pending) ↔ currentLifecycle events hash = some .pending := by
  rw [getLast?_replayFrames, currentLifecycle, framesAt, ← length_sortDeterministic]
  generalize sortDeterministic events = sorted
  cases sorted with
  | nil =>
      refine iff_of_false ?_ ?_
      · rintro ⟨frame, none, -⟩
        cases none
      · intro pending
        cases pending
  | cons event rest =>
      have last : (event :: rest).length - 1 < (event :: rest).length := Nat.lt_succ_self _
      have whole : (event :: rest).take ((event :: rest).length - 1 + 1) = event :: rest :=
        List.take_of_length_le (Nat.le_of_eq (by rw [List.length_cons, Nat.add_sub_cancel]))
      rw [List.getElem?_eq_getElem last, whole]
      constructor
      · rintro ⟨frame, shown, pending⟩
        cases shown
        exact MempoolState.mem_sortedPending.mp pending
      · exact fun pending => ⟨_, rfl, MempoolState.mem_sortedPending.mpr pending⟩

end Frames

/-- **A stride thins a replay without changing it**: in both modes the frames at a stride are the
frames that close its blocks of events, one for each block, and the hashes are the hashes of these
frames. The last frame shows pending what is pending after all events. -/
theorem replayFrames_thinned (sha256 : List UInt8 → Digest) (iteration other : MapIteration)
    (events : List EventEnvelope) (mode : ReplayMode) (stride : Nat) :
    let step := max stride 1
    let blocks := (events.length + step - 1) / step
    let closing := fun block => min ((block + 1) * step) events.length - 1
    (∀ position, (other.replayFrames events .deterministicEventReplay 1)[position]? =
      framesAt (sortDeterministic events) position) ∧
    (iteration.replayFrames events mode stride).length = blocks ∧
    (∀ block < blocks, (iteration.replayFrames events mode stride)[block]? =
      (other.replayFrames events .deterministicEventReplay 1)[closing block]?) ∧
    (∀ block < blocks, (iteration.deterministicCheckpointHashes sha256 events stride)[block]? =
      (other.deterministicCheckpointHashes sha256 events 1)[closing block]?) ∧
    (∀ hash, (∃ frame, (iteration.replayFrames events mode stride).getLast? = some frame ∧
        hash ∈ frame.pending) ↔ currentLifecycle events hash = some .pending) := by
  intro step blocks closing
  have positive : 0 < step := Nat.lt_of_lt_of_le Nat.zero_lt_one (Nat.le_max_right _ _)
  have every : ∀ position, (other.replayFrames events .deterministicEventReplay 1)[position]? =
      framesAt (sortDeterministic events) position := by
    intro position
    rw [getElem?_replayFrames, Nat.max_self, Nat.mul_one, Nat.mul_one]
    by_cases inside : position < events.length
    · rw [if_pos inside, Nat.min_eq_left (by omega), Nat.add_sub_cancel]
    · have short : (sortDeterministic events).length ≤ position := by
        rw [length_sortDeterministic]
        exact Nat.le_of_not_lt inside
      rw [if_neg inside, framesAt, List.getElem?_eq_none short]
      rfl
  have begun : ∀ block < blocks, block * step < events.length := by
    intro block below
    have reached := (Nat.le_div_iff_mul_le positive).mp (Nat.succ_le_of_lt below)
    rw [Nat.succ_mul] at reached
    omega
  have thinned : ∀ either : ReplayMode, ∀ block < blocks,
      (iteration.replayFrames events either stride)[block]? =
        (other.replayFrames events .deterministicEventReplay 1)[closing block]? := by
    intro either block below
    rw [every, getElem?_replayFrames, if_pos (begun block below)]
  refine ⟨every, length_replayFrames iteration events mode stride, thinned mode, ?_,
    mem_getLast?_replayFrames_iff iteration events mode stride⟩
  intro block below
  have same := thinned .deterministicEventReplay block below
  have idle : iteration.replayFrames events .deterministicEventReplay (max stride 1) =
      iteration.replayFrames events .deterministicEventReplay stride := by
    rw [MapIteration.replayFrames, MapIteration.replayFrames, Nat.max_eq_left positive]
  rw [MapIteration.deterministicCheckpointHashes, MapIteration.deterministicCheckpointHashes, idle,
    Nat.max_self, List.getElem?_map, List.getElem?_map, same]

end Mempulse.Replay
