import Mempulse.Replay.Frames

/-!
# Replay does not depend on the order of its input

Sorting is canonical on events with different order keys, and what a run emits is sorted or read
from ordered maps. So permuted inputs give the same frames, checkpoints, hashes and lifecycles,
whatever order each run's hash map lists its keys in.
-/

set_option autoImplicit false

namespace Mempulse.Replay

open Std EventLog Library

/-! ## What a run emits -/

/-- The pending hashes in order. -/
def MempoolState.sortedPending (state : MempoolState) : List TxHash := sortHashes state.pendingHashes

/-- The frame of an event and the state after it. -/
def frameOf (step : EventEnvelope × MempoolState) : ReplayFrame where
  seqHi := step.1.seqId
  timestampUnixMs := step.1.ingestTsUnixMs
  pending := step.2.sortedPending
  senderQueues := step.2.senderQueuesReport

/-- The checkpoint of an event and the state after it. -/
def checkpointOf (step : EventEnvelope × MempoolState) : LifecycleCheckpoint where
  seqId := step.1.seqId
  pendingHashes := step.2.sortedPending
  senderQueues := step.2.senderQueuesReport

/-- The events of a run, each with the state after it. -/
def trace : MempoolState → List EventEnvelope → List (EventEnvelope × MempoolState)
  | _, [] => []
  | state, event :: rest =>
    let state := (state.applyEvent event.payload).2
    (event, state) :: trace state rest

theorem sortHashes_eq_of_perm {hashes other : List TxHash} (same : hashes.Perm other) :
    sortHashes hashes = sortHashes other :=
  stableSort_eq_of_perm same fun _ _ _ _ equal => Std.compare_eq_iff_eq.mp equal

namespace MapIteration

variable (iteration : MapIteration)

theorem sortHashes_pendingHashes (applied : Nat) (state : MempoolState) :
    sortHashes (iteration.pendingHashes applied state) = state.sortedPending :=
  sortHashes_eq_of_perm (iteration.perm applied state)

theorem frame_eq (applied : Nat) (event : EventEnvelope) (state : MempoolState) :
    iteration.frame applied event state = frameOf (event, state) := by
  simp only [frame, frameOf, sortHashes_pendingHashes]

end MapIteration

/-! ## The loops -/

section Loops

variable (iteration : MapIteration)

theorem replayDeterministicLoop_eq (other : MapIteration) (stride total idx : Nat)
    (state : MempoolState) (events : List EventEnvelope) :
    iteration.replayDeterministicLoop stride total idx state events =
      other.replayDeterministicLoop stride total idx state events := by
  induction events generalizing idx state with
  | nil => rfl
  | cons event rest ih => simp only [MapIteration.replayDeterministicLoop, MapIteration.frame_eq, ih]

/-- The snapshot loop pushes at the same events as the deterministic loop. -/
theorem replaySnapshotLoop_eq {stride : Nat} (positive : 0 < stride) (total count : Nat)
    (state : MempoolState) (events : List EventEnvelope) :
    iteration.replaySnapshotLoop stride total count state events =
      iteration.replayDeterministicLoop stride total count state events := by
  induction events generalizing count state with
  | nil => rfl
  | cons event rest ih =>
      have multiple : MapIteration.isMultipleOf (count + 1) stride =
          decide ((count + 1) % stride = 0) := by
        unfold MapIteration.isMultipleOf
        split
        · omega
        · rfl
      simp only [MapIteration.replaySnapshotLoop, MapIteration.replayDeterministicLoop, multiple, ih]
      split <;> rfl

/-- With stride one every event gets its frame. -/
theorem replayDeterministicLoop_one (total idx : Nat) (state : MempoolState)
    (events : List EventEnvelope) :
    iteration.replayDeterministicLoop 1 total idx state events = (trace state events).map frameOf := by
  induction events generalizing idx state with
  | nil => rfl
  | cons event rest ih =>
      simp only [MapIteration.replayDeterministicLoop, MapIteration.frame_eq, Nat.mod_one,
        decide_true, Bool.true_or, if_true, ih, trace, List.map_cons, List.singleton_append]

theorem lifecycleCheckpointsLoop_eq (checkpoints : ExtTreeSet UInt64) (applied : Nat)
    (state : MempoolState) (events : List EventEnvelope) :
    iteration.lifecycleCheckpointsLoop checkpoints applied state events =
      ((trace state events).filter fun step => checkpoints.contains step.1.seqId).map
        checkpointOf := by
  induction events generalizing applied state with
  | nil => rfl
  | cons event rest ih =>
      simp only [MapIteration.lifecycleCheckpointsLoop, MapIteration.sortHashes_pendingHashes, ih,
        trace, List.filter_cons]
      split <;> rfl

end Loops

/-! ## The reports -/

section Reports

variable {iteration other : MapIteration} {events permuted : List EventEnvelope}

theorem replayFrames_eq (iteration other : MapIteration) (events : List EventEnvelope)
    (mode otherMode : ReplayMode) (stride : Nat) :
    iteration.replayFrames events mode stride = other.replayFrames events otherMode stride := by
  have deterministic : ∀ run : MapIteration, ∀ either : ReplayMode,
      run.replayFrames events either stride =
        run.replayDeterministic events (max stride 1) := by
    intro run either
    cases either with
    | deterministicEventReplay => rfl
    | snapshotReplay => exact replaySnapshotLoop_eq run (by omega) _ _ _ _
  rw [deterministic iteration mode, deterministic other otherMode]
  exact replayDeterministicLoop_eq iteration other _ _ _ _ _

theorem lifecycleCheckpoints_eq (iteration : MapIteration) (events : List EventEnvelope)
    (checkpointSeqIds : List UInt64) :
    iteration.lifecycleCheckpoints events checkpointSeqIds =
      ((trace {} (sortDeterministic events)).filter fun step =>
        (ExtTreeSet.ofList checkpointSeqIds).contains step.1.seqId).map checkpointOf :=
  lifecycleCheckpointsLoop_eq iteration _ _ _ _

/-- What a run emits depends on the sorted events only. -/
theorem replayFrames_congr (sorted : sortDeterministic events = sortDeterministic permuted)
    (mode : ReplayMode) (stride : Nat) :
    iteration.replayFrames events mode stride = other.replayFrames permuted mode stride := by
  rw [replayFrames_eq iteration other events mode mode stride]
  cases mode <;>
    simp only [MapIteration.replayFrames, MapIteration.replayDeterministic,
      MapIteration.replaySnapshot, sorted]

theorem lifecycleCheckpoints_congr (sorted : sortDeterministic events = sortDeterministic permuted)
    (checkpointSeqIds : List UInt64) :
    iteration.lifecycleCheckpoints events checkpointSeqIds =
      other.lifecycleCheckpoints permuted checkpointSeqIds := by
  rw [lifecycleCheckpoints_eq, lifecycleCheckpoints_eq, sorted]

theorem lifecycleSnapshot_congr (sorted : sortDeterministic events = sortDeterministic permuted)
    (checkpointSeqId : UInt64) :
    iteration.lifecycleSnapshot events checkpointSeqId =
      other.lifecycleSnapshot permuted checkpointSeqId :=
  congrArg List.head? (lifecycleCheckpoints_congr sorted [checkpointSeqId])

end Reports

/-! ## Parity -/

section Parity

variable {events : List EventEnvelope}

theorem map_fst_trace (state : MempoolState) (events : List EventEnvelope) :
    (trace state events).map Prod.fst = events := by
  induction events generalizing state with
  | nil => rfl
  | cons event rest ih => rw [trace, List.map_cons, ih]

/-- A map that is built from a list with distinct keys holds the list's entries. -/
theorem getElem?_ofList_iff {ν : Type} {entries : List (UInt64 × ν)}
    (distinct : (entries.map Prod.fst).Nodup) {key : UInt64} {value : ν} :
    (ExtTreeMap.ofList entries : ExtTreeMap UInt64 ν)[key]? = some value ↔
      (key, value) ∈ entries := by
  have unequal : entries.Pairwise fun left right => ¬ compare left.1 right.1 = .eq := by
    refine (List.pairwise_map.mp distinct).imp fun different same => different ?_
    exact Std.compare_eq_iff_eq.mp same
  constructor
  · intro held
    have present : key ∈ (ExtTreeMap.ofList entries : ExtTreeMap UInt64 ν) :=
      ExtTreeMap.mem_iff_isSome_getElem?.mpr (by rw [held]; rfl)
    obtain ⟨⟨_, stored⟩, member, rfl⟩ :=
      List.mem_map.mp (List.contains_iff_mem.mp (ExtTreeMap.mem_ofList.mp present))
    rw [ExtTreeMap.getElem?_ofList_of_mem ReflCmp.compare_self unequal member] at held
    cases held
    exact member
  · exact fun member => ExtTreeMap.getElem?_ofList_of_mem ReflCmp.compare_self unequal member

/-- Every entry of the parity report is true. -/
theorem lifecycleParity_true (iteration replayed : MapIteration)
    (distinct : (events.map (·.seqId)).Nodup) (checkpointSeqIds : List UInt64) {seqId : UInt64}
    {parity : Bool}
    (reported : (iteration.lifecycleParity replayed events checkpointSeqIds)[seqId]? = some parity) :
    parity = true := by
  let steps := trace {} (sortDeterministic events)
  have sequence : (steps.map fun step => step.1.seqId).Nodup := by
    have same := congrArg (List.map (·.seqId)) (map_fst_trace {} (sortDeterministic events))
    rw [List.map_map] at same
    change (steps.map ((·.seqId) ∘ Prod.fst)).Nodup
    rw [same]
    exact ((stableSort_perm cmpDeterministic events).map (·.seqId)).nodup_iff.mpr distinct
  have frames : replayed.replayFrames events .deterministicEventReplay 1 = steps.map frameOf :=
    replayDeterministicLoop_one replayed _ _ _ _
  unfold MapIteration.lifecycleParity at reported
  rw [frames, lifecycleCheckpoints_eq] at reported
  dsimp only at reported
  rw [List.map_map, List.map_map, getElem?_ofList_iff] at reported
  · obtain ⟨step, kept, entry⟩ := List.mem_map.mp reported
    have frame : (step.1.seqId, step.2.sortedPending) ∈
        steps.map ((fun frame => (frame.seqHi, frame.pending)) ∘ frameOf) :=
      List.mem_map.mpr ⟨step, List.mem_of_mem_filter kept, rfl⟩
    have held := (getElem?_ofList_iff (by rw [List.map_map]; exact sequence)).mpr frame
    simp only [Function.comp_apply, checkpointOf, held, Option.getD_some, decide_true] at entry
    exact (congrArg Prod.snd entry).symm
  · rw [List.map_map]
    exact (List.filter_sublist.map _).nodup sequence

end Parity

/-- **Replay does not depend on the order of its input**: permuted events with different order keys
give the same reports, whichever orders the hash maps of the runs list their keys in. Both modes
give the same frames, and with distinct sequence ids the parity report is true throughout. -/
theorem replay_of_perm (sha256 : List UInt8 → Digest) {events permuted : List EventEnvelope}
    (same : events.Perm permuted) (keys : (events.map (·.orderKey)).Nodup)
    (iteration other later otherLater : MapIteration) :
    (∀ mode stride, iteration.replayFrames events mode stride =
      other.replayFrames permuted mode stride) ∧
    (∀ checkpointSeqIds, iteration.lifecycleCheckpoints events checkpointSeqIds =
      other.lifecycleCheckpoints permuted checkpointSeqIds) ∧
    (∀ fromSeqId toSeqId, iteration.replayDiffSummary sha256 later events fromSeqId toSeqId =
      other.replayDiffSummary sha256 otherLater permuted fromSeqId toSeqId) ∧
    (∀ stride, iteration.deterministicCheckpointHashes sha256 events stride =
      other.deterministicCheckpointHashes sha256 permuted stride) ∧
    (∀ hash, currentLifecycle events hash = currentLifecycle permuted hash) ∧
    (∀ stride, iteration.replayFrames events .deterministicEventReplay stride =
      other.replayFrames events .snapshotReplay stride) ∧
    ((events.map (·.seqId)).Nodup → ∀ (checkpointSeqIds : List UInt64) (seqId : UInt64)
      (parity : Bool),
      (iteration.lifecycleParity later events checkpointSeqIds)[seqId]? = some parity →
        parity = true) := by
  have sorted := sortDeterministic_eq_of_perm same keys
  refine ⟨fun mode stride => replayFrames_congr sorted mode stride,
    fun checkpointSeqIds => lifecycleCheckpoints_congr sorted checkpointSeqIds,
    fun fromSeqId toSeqId => ?_, fun stride => ?_, fun hash => ?_,
    fun stride => replayFrames_eq iteration other events _ _ stride,
    fun distinct ids seqId parity reported =>
      lifecycleParity_true iteration later distinct ids reported⟩
  · have first := @lifecycleSnapshot_congr iteration other events permuted sorted
    have second := @lifecycleSnapshot_congr later otherLater events permuted sorted
    simp only [MapIteration.replayDiffSummary, first, second]
  · have frames := @replayFrames_congr iteration other events permuted sorted
    simp only [MapIteration.deterministicCheckpointHashes, frames]
  · simp only [currentLifecycle, sorted]

/-- Two decoded transactions and the confirmation of the first. -/
def decodedAndConfirmed : List EventEnvelope :=
  [sampleEnvelope 1 (.txDecoded (Scheduler.sampleValidatedTx 10 1 0 100).decoded),
    sampleEnvelope 2 (.txDecoded (Scheduler.sampleValidatedTx 11 1 1 100).decoded),
    sampleEnvelope 3 (.txConfirmedFinal { hash := 10, blockNumber := 7, blockHash := 70 })]

theorem decodedAndConfirmed_replay_of_perm :
    MapIteration.increasing.replayFrames decodedAndConfirmed .deterministicEventReplay 2 =
        MapIteration.decreasing.replayFrames decodedAndConfirmed.reverse .deterministicEventReplay 2 ∧
      currentLifecycle decodedAndConfirmed 10 = currentLifecycle decodedAndConfirmed.reverse 10 := by
  have reports := replay_of_perm (fun _ => List.Vector.replicate 32 0)
    (List.reverse_perm decodedAndConfirmed).symm (by decide)
    .increasing .decreasing .increasing .decreasing
  exact ⟨reports.1 .deterministicEventReplay 2, reports.2.2.2.2.1 10⟩

end Mempulse.Replay
