import Mathlib.Data.Finset.Card
import Mempulse.Replay.QueueReport

/-!
# Diffs of two checkpoints compose

A diff between two sequence ids lists the hashes that became pending and those that ceased to be.
Two adjacent diffs determine the diff across both, whichever order each run's hash map lists its
keys in and whichever order the two ids are given in.
-/

set_option autoImplicit false

namespace Mempulse.Replay

open Std EventLog Library

/-! ## Diffs of lists without repetitions -/

/-- The entries of `now` that are not in `before`, in order, as two ordered sets list them. -/
def appearing (before now : List TxHash) : List TxHash :=
  (ExtTreeSet.ofList now : ExtTreeSet TxHash).toList.filter fun hash =>
    !(ExtTreeSet.ofList before : ExtTreeSet TxHash).contains hash

section Appearing

variable {before now : List TxHash} {hash : TxHash}

theorem mem_appearing : hash ∈ appearing before now ↔ hash ∈ now ∧ hash ∉ before := by
  rw [appearing, List.mem_filter, ExtTreeSet.mem_toList, ExtTreeSet.mem_ofList,
    ExtTreeSet.contains_ofList, List.contains_iff_mem, Bool.not_eq_true', List.contains_eq_mem,
    decide_eq_false_iff_not]

theorem increasing_appearing (before now : List TxHash) :
    (appearing before now).Pairwise fun earlier later => compare earlier later = .lt :=
  ExtTreeSet.ordered_toList.filter _

theorem nodup_appearing (before now : List TxHash) : (appearing before now).Nodup :=
  (increasing_appearing before now).imp fun below same => by
    have equal := Std.compare_eq_iff_eq.mpr same
    rw [below] at equal
    cases equal

/-- What was there and what appeared is what is there and what disappeared. -/
theorem length_add_length_appearing (distinct : before.Nodup) (nowDistinct : now.Nodup) :
    before.length + (appearing before now).length =
      now.length + (appearing now before).length := by
  have appeared : ∀ old new : List TxHash, (appearing old new).toFinset = new.toFinset \ old.toFinset := by
    intro old new
    ext hash
    rw [List.mem_toFinset, mem_appearing, Finset.mem_sdiff, List.mem_toFinset, List.mem_toFinset]
  have joined := Finset.card_sdiff_add_card now.toFinset before.toFinset
  have joinedBack := Finset.card_sdiff_add_card before.toFinset now.toFinset
  rw [← appeared, List.toFinset_card_of_nodup (nodup_appearing _ _),
    List.toFinset_card_of_nodup distinct] at joined
  rw [← appeared, List.toFinset_card_of_nodup (nodup_appearing _ _),
    List.toFinset_card_of_nodup nowDistinct, Finset.union_comm] at joinedBack
  omega

end Appearing

/-! ## Summaries -/

section Summaries

variable (sha256 : List UInt8 → Digest)

/-- The summary of the diff between two checkpoints. -/
def summarize (fromSeqId toSeqId : UInt64) (fromCheckpoint toCheckpoint : LifecycleCheckpoint) :
    ReplayDiffSummary where
  fromSeqId := fromSeqId
  toSeqId := toSeqId
  fromPendingCount := fromCheckpoint.pendingHashes.length
  toPendingCount := toCheckpoint.pendingHashes.length
  fromCheckpointHash := lifecycleCheckpointHash sha256 fromCheckpoint
  toCheckpointHash := lifecycleCheckpointHash sha256 toCheckpoint
  addedPending := appearing fromCheckpoint.pendingHashes toCheckpoint.pendingHashes
  removedPending := appearing toCheckpoint.pendingHashes fromCheckpoint.pendingHashes

/-- The checkpoint of a sequence id, in any run. -/
def checkpointAt (events : List EventEnvelope) (seqId : UInt64) : Option LifecycleCheckpoint :=
  MapIteration.increasing.lifecycleSnapshot events seqId

variable {sha256} {events : List EventEnvelope} {fromSeqId toSeqId : UInt64}

theorem lifecycleSnapshot_eq (iteration : MapIteration) (events : List EventEnvelope)
    (seqId : UInt64) : iteration.lifecycleSnapshot events seqId = checkpointAt events seqId :=
  lifecycleSnapshot_congr rfl seqId

theorem replayDiffSummary_of_checkpointAt (earlier later : MapIteration)
    (ordered : fromSeqId ≤ toSeqId) {fromCheckpoint toCheckpoint : LifecycleCheckpoint}
    (found : checkpointAt events fromSeqId = some fromCheckpoint)
    (foundTo : checkpointAt events toSeqId = some toCheckpoint) :
    earlier.replayDiffSummary sha256 later events fromSeqId toSeqId =
      some (summarize sha256 fromSeqId toSeqId fromCheckpoint toCheckpoint) := by
  rw [MapIteration.replayDiffSummary, if_pos ordered]
  dsimp only
  rw [lifecycleSnapshot_eq, lifecycleSnapshot_eq, found, foundTo]
  rfl

/-- The order in which the ids are given does not matter. -/
theorem replayDiffSummary_comm (earlier later : MapIteration) (events : List EventEnvelope)
    (fromSeqId toSeqId : UInt64) :
    earlier.replayDiffSummary sha256 later events fromSeqId toSeqId =
      earlier.replayDiffSummary sha256 later events toSeqId fromSeqId := by
  unfold MapIteration.replayDiffSummary
  by_cases ordered : fromSeqId ≤ toSeqId
  · by_cases reversed : toSeqId ≤ fromSeqId
    · rw [UInt64.le_antisymm ordered reversed]
    · rw [if_pos ordered, if_neg reversed]
  · rw [if_neg ordered, if_pos (UInt64.le_of_lt (UInt64.not_le.mp ordered))]

theorem nodup_of_checkpointAt {seqId : UInt64} {checkpoint : LifecycleCheckpoint}
    (found : checkpointAt events seqId = some checkpoint) : checkpoint.pendingHashes.Nodup := by
  rw [checkpointAt, MapIteration.lifecycleSnapshot, lifecycleCheckpoints_eq] at found
  obtain ⟨step, -, rfl⟩ := List.mem_map.mp (List.mem_of_head? found)
  exact (stableSort_perm compare _).nodup_iff.mpr (MempoolState.nodup_pendingHashes step.2)

/-- The id of an event has a checkpoint. -/
theorem exists_checkpointAt {seqId : UInt64} (carried : seqId ∈ events.map (·.seqId)) :
    ∃ checkpoint, checkpointAt events seqId = some checkpoint := by
  obtain ⟨event, member, own⟩ := List.mem_map.mp carried
  have sorted : event ∈ (trace {} (sortDeterministic events)).map Prod.fst := by
    rw [map_fst_trace]
    exact (stableSort_perm cmpDeterministic events).mem_iff.mpr member
  obtain ⟨step, traced, rfl⟩ := List.mem_map.mp sorted
  have kept : step ∈ (trace {} (sortDeterministic events)).filter fun step =>
      (ExtTreeSet.ofList [seqId]).contains step.1.seqId := by
    refine List.mem_filter.mpr ⟨traced, ?_⟩
    rw [ExtTreeSet.contains_ofList, List.contains_iff_mem, List.mem_singleton, own]
  rw [checkpointAt, MapIteration.lifecycleSnapshot, lifecycleCheckpoints_eq]
  exact ⟨_, List.head?_eq_some_head (List.ne_nil_of_mem (List.mem_map_of_mem kept))⟩

end Summaries

/-- **Diffs of two checkpoints compose**: for the ids of three events in order, two adjacent diffs
give the diff across both, in every run. What appears across both appeared in one of them and did
not disappear in the other. Every diff balances. -/
theorem replayDiffSummary_compose (sha256 : List UInt8 → Digest) {events : List EventEnvelope}
    {start middle stop : UInt64} (forward : start ≤ middle) (onward : middle ≤ stop)
    (carried : start ∈ events.map (·.seqId)) (halfway : middle ∈ events.map (·.seqId))
    (reached : stop ∈ events.map (·.seqId)) :
    ∃ first second whole : ReplayDiffSummary,
      (∀ earlier later : MapIteration,
        earlier.replayDiffSummary sha256 later events start middle = some first ∧
        earlier.replayDiffSummary sha256 later events middle stop = some second ∧
        earlier.replayDiffSummary sha256 later events start stop = some whole ∧
        earlier.replayDiffSummary sha256 later events stop start = some whole) ∧
      first.toCheckpointHash = second.fromCheckpointHash ∧
      whole.fromCheckpointHash = first.fromCheckpointHash ∧
      whole.toCheckpointHash = second.toCheckpointHash ∧
      (∀ hash, hash ∈ whole.addedPending ↔
        (hash ∈ first.addedPending ∧ hash ∉ second.removedPending) ∨
          (hash ∈ second.addedPending ∧ hash ∉ first.removedPending)) ∧
      (∀ hash, hash ∈ whole.removedPending ↔
        (hash ∈ first.removedPending ∧ hash ∉ second.addedPending) ∨
          (hash ∈ second.removedPending ∧ hash ∉ first.addedPending)) ∧
      ∀ summary ∈ [first, second, whole],
        summary.fromPendingCount + summary.addedPending.length =
          summary.toPendingCount + summary.removedPending.length := by
  obtain ⟨early, foundStart⟩ := exists_checkpointAt carried
  obtain ⟨central, foundMiddle⟩ := exists_checkpointAt halfway
  obtain ⟨late, foundStop⟩ := exists_checkpointAt reached
  have across := UInt64.le_trans forward onward
  refine ⟨summarize sha256 start middle early central, summarize sha256 middle stop central late,
    summarize sha256 start stop early late, fun earlier later => ⟨?_, ?_, ?_, ?_⟩, rfl, rfl, rfl,
    fun hash => ?_, fun hash => ?_, ?_⟩
  · exact replayDiffSummary_of_checkpointAt earlier later forward foundStart foundMiddle
  · exact replayDiffSummary_of_checkpointAt earlier later onward foundMiddle foundStop
  · exact replayDiffSummary_of_checkpointAt earlier later across foundStart foundStop
  · rw [replayDiffSummary_comm]
    exact replayDiffSummary_of_checkpointAt earlier later across foundStart foundStop
  · simp only [summarize, mem_appearing]
    tauto
  · simp only [summarize, mem_appearing]
    tauto
  · have balances : ∀ {fromSeqId toSeqId : UInt64} {fromCheckpoint toCheckpoint},
        checkpointAt events fromSeqId = some fromCheckpoint →
        checkpointAt events toSeqId = some toCheckpoint →
        fromCheckpoint.pendingHashes.length +
            (appearing fromCheckpoint.pendingHashes toCheckpoint.pendingHashes).length =
          toCheckpoint.pendingHashes.length +
            (appearing toCheckpoint.pendingHashes fromCheckpoint.pendingHashes).length :=
      fun found foundTo => length_add_length_appearing (nodup_of_checkpointAt found)
        (nodup_of_checkpointAt foundTo)
    intro summary listed
    rcases List.mem_cons.mp listed with rfl | listed
    · exact balances foundStart foundMiddle
    rcases List.mem_cons.mp listed with rfl | listed
    · exact balances foundMiddle foundStop
    · rw [List.mem_singleton.mp listed]
      exact balances foundStart foundStop

theorem decodedAndConfirmed_diffs_compose : ∃ whole : ReplayDiffSummary,
    MapIteration.increasing.replayDiffSummary (fun _ => List.Vector.replicate 32 0)
        MapIteration.decreasing decodedAndConfirmed 3 1 = some whole ∧
      whole.fromPendingCount + whole.addedPending.length =
        whole.toPendingCount + whole.removedPending.length := by
  obtain ⟨first, second, whole, made, -, -, -, -, -, balanced⟩ :=
    replayDiffSummary_compose (fun _ => List.Vector.replicate 32 0) (by decide : (1 : UInt64) ≤ 2)
      (by decide : (2 : UInt64) ≤ 3) (show 1 ∈ decodedAndConfirmed.map (·.seqId) by decide)
      (by decide) (by decide)
  exact ⟨whole, (made _ _).2.2.2, balanced whole (by simp)⟩

end Mempulse.Replay
