import Mempulse.Library.Wire
import Mempulse.Replay.Frames

/-!
# Checkpoint hashes

A checkpoint is hashed as one stream: numbers and hashes of fixed width, every list after its
length, and a tag before the state of a queued transaction. The stream can be read back, so two
checkpoints with one digest are the same, unless their streams collide.
-/

set_option autoImplicit false

namespace Mempulse.Replay

open EventLog Library

/-! ## Words -/

/-- A number is known from its bytes. -/
theorem eq_of_extractLsb' {width count : Nat} (whole : width ≤ 8 * count)
    {value other : BitVec width} (same : ∀ position < count,
      value.extractLsb' (8 * position) 8 = other.extractLsb' (8 * position) 8) : value = other := by
  apply BitVec.eq_of_getLsbD_eq
  intro bit inside
  have byte := congrArg (fun read : BitVec 8 => read.getLsbD (bit % 8)) (same (bit / 8) (by omega))
  have small : bit % 8 < 8 := Nat.mod_lt _ (by decide)
  simpa [BitVec.getLsbD_extractLsb', small, Nat.div_add_mod] using byte

theorem eq_of_map_bytes {width : Nat} (count : Nat) (whole : width ≤ 8 * count)
    {positions : List Nat} (every : ∀ position < count, position ∈ positions)
    {value other : BitVec width}
    (same : (positions.map fun position => UInt8.ofBitVec (value.extractLsb' (8 * position) 8)) =
      positions.map fun position => UInt8.ofBitVec (other.extractLsb' (8 * position) 8)) :
    value = other := by
  refine eq_of_extractLsb' whole fun position small => ?_
  have byte := List.map_inj_left.mp same position (every position small)
  exact congrArg UInt8.toBitVec byte

theorem delimits_leBytes : DelimitsOn (fun _ => True) leBytes := by
  refine .of_length 8 (fun _ => by simp [leBytes]) fun value other _ _ same => ?_
  exact eq_of_map_bytes 8 (by decide) (fun _ small => List.mem_range.mpr small) same

theorem delimits_lenBytes : DelimitsOn (· < 2 ^ 64) lenBytes := by
  intro length other fits otherFits rest more same
  obtain ⟨number, tail⟩ := delimits_leBytes _ _ trivial trivial rest more same
  have numbers := congrArg BitVec.toNat number
  rw [BitVec.toNat_ofNat, BitVec.toNat_ofNat, Nat.mod_eq_of_lt fits, Nat.mod_eq_of_lt otherFits]
    at numbers
  exact ⟨numbers, tail⟩

theorem delimits_arrayBytes {width : Nat} (whole : width ≤ 8 * (width / 8)) :
    DelimitsOn (fun _ => True) (@arrayBytes width) := by
  refine .of_length (width / 8) (fun _ => by simp [arrayBytes])
    fun value other _ _ same => ?_
  exact eq_of_map_bytes (width / 8) whole
    (fun _ small => List.mem_reverse.mpr (List.mem_range.mpr small)) same

theorem delimits_queueStateBytes : DelimitsOn (fun _ => True) queueStateBytes := by
  intro state other _ _ rest more same
  cases state with
  | ready =>
      cases other with
      | ready => exact ⟨rfl, (List.cons.inj same).2⟩
      | blocked expected => cases (List.cons.inj same).1
  | blocked expected =>
      cases other with
      | ready => cases (List.cons.inj same).1
      | blocked otherExpected =>
          obtain ⟨nonce, tail⟩ :=
            delimits_leBytes _ _ trivial trivial rest more (List.cons.inj same).2
          exact ⟨congrArg GapVerdict.blocked (UInt64.toBitVec_inj.mp nonce), tail⟩

/-! ## Queues -/

theorem delimits_entry : DelimitsOn (fun _ => True) fun entry : ReplaySenderQueueEntry =>
    arrayBytes entry.hash ++ leBytes entry.nonce.toBitVec ++ queueStateBytes entry.state := by
  intro entry other _ _ rest more same
  simp only [List.append_assoc] at same
  obtain ⟨hash, same⟩ := delimits_arrayBytes (by decide) _ _ trivial trivial _ _ same
  obtain ⟨nonce, same⟩ := delimits_leBytes _ _ trivial trivial _ _ same
  obtain ⟨state, tail⟩ := delimits_queueStateBytes _ _ trivial trivial _ _ same
  refine ⟨?_, tail⟩
  cases entry
  cases other
  cases hash
  cases UInt64.toBitVec_inj.mp nonce
  cases state
  rfl

/-- The queues are as short as vectors are. -/
def QueuesFit (senderQueues : List ReplaySenderQueue) : Prop :=
  senderQueues.length < 2 ^ 64 ∧ ∀ queue ∈ senderQueues, queue.queued.length < 2 ^ 64

theorem delimits_queue : DelimitsOn (fun queue => queue.queued.length < 2 ^ 64)
    fun queue : ReplaySenderQueue => arrayBytes queue.sender ++ lenBytes queue.queued.length ++
      queue.queued.flatMap fun entry =>
        arrayBytes entry.hash ++ leBytes entry.nonce.toBitVec ++ queueStateBytes entry.state := by
  intro queue other fits otherFits rest more same
  rw [List.append_assoc, List.append_assoc, List.append_assoc, List.append_assoc] at same
  obtain ⟨sender, same⟩ := delimits_arrayBytes (by decide) _ _ trivial trivial _ _ same
  rw [← List.append_assoc, ← List.append_assoc] at same
  obtain ⟨queued, tail⟩ := delimits_lenBytes.counted delimits_entry queue.queued other.queued
    ⟨fits, fun _ _ => trivial⟩ ⟨otherFits, fun _ _ => trivial⟩ rest more same
  refine ⟨?_, tail⟩
  cases queue
  cases other
  cases sender
  cases queued
  rfl

theorem delimits_senderQueuesBytes : DelimitsOn QueuesFit senderQueuesBytes :=
  delimits_lenBytes.counted delimits_queue

theorem delimits_hashes : DelimitsOn (fun hashes : List TxHash => hashes.length < 2 ^ 64)
    fun hashes => lenBytes hashes.length ++ hashes.flatMap arrayBytes := by
  intro hashes others fits otherFits
  exact delimits_lenBytes.counted (delimits_arrayBytes (by decide)) hashes others
    ⟨fits, fun _ _ => trivial⟩ ⟨otherFits, fun _ _ => trivial⟩

/-! ## Checkpoints -/

/-- The stream a checkpoint is hashed from. -/
def checkpointBytes (checkpoint : LifecycleCheckpoint) : List UInt8 :=
  let pendingHashes := sortHashes checkpoint.pendingHashes
  leBytes checkpoint.seqId.toBitVec ++ lenBytes pendingHashes.length ++
    pendingHashes.flatMap arrayBytes ++ senderQueuesBytes checkpoint.senderQueues

/-- The stream a frame is hashed from. -/
def frameBytes (frame : ReplayFrame) : List UInt8 :=
  leBytes frame.seqHi.toBitVec ++ leBytes frame.timestampUnixMs.toBitVec ++
    lenBytes frame.pending.length ++ frame.pending.flatMap arrayBytes ++
    senderQueuesBytes frame.senderQueues

/-- A vector has fewer elements than an address has values. -/
def LifecycleCheckpoint.Fits (checkpoint : LifecycleCheckpoint) : Prop :=
  checkpoint.pendingHashes.length < 2 ^ 64 ∧ QueuesFit checkpoint.senderQueues

/-- The lengths of the frame fit their length fields. -/
def ReplayFrame.Fits (frame : ReplayFrame) : Prop :=
  frame.pending.length < 2 ^ 64 ∧ QueuesFit frame.senderQueues

/-- The checkpoints have one sequence id, the same pending hashes up to their order and the same
queues. -/
def SameCheckpoint (checkpoint other : LifecycleCheckpoint) : Prop :=
  checkpoint.seqId = other.seqId ∧ checkpoint.pendingHashes.Perm other.pendingHashes ∧
    checkpoint.senderQueues = other.senderQueues

theorem sortHashes_eq_iff {hashes others : List TxHash} :
    sortHashes hashes = sortHashes others ↔ hashes.Perm others := by
  constructor
  · intro same
    have listed : (sortHashes hashes).Perm others := same ▸ stableSort_perm compare others
    exact (stableSort_perm compare hashes).symm.trans listed
  · intro perm
    exact stableSort_eq_of_perm perm fun _ _ _ _ equal => Std.compare_eq_iff_eq.mp equal

theorem checkpointBytes_eq_iff {checkpoint other : LifecycleCheckpoint} (fits : checkpoint.Fits)
    (otherFits : other.Fits) :
    checkpointBytes checkpoint = checkpointBytes other ↔ SameCheckpoint checkpoint other := by
  have length : ∀ hashes : List TxHash, (sortHashes hashes).length = hashes.length :=
    fun hashes => (stableSort_perm compare hashes).length_eq
  constructor
  · intro same
    have same := congrArg (· ++ ([] : List UInt8)) same
    simp only [checkpointBytes, List.append_assoc] at same
    obtain ⟨seqId, same⟩ := delimits_leBytes _ _ trivial trivial _ _ same
    rw [← List.append_assoc, ← List.append_assoc (lenBytes (sortHashes other.pendingHashes).length)]
      at same
    obtain ⟨pending, same⟩ := delimits_hashes _ _ ((length _).trans_lt fits.1)
      ((length _).trans_lt otherFits.1) _ _ same
    obtain ⟨queues, -⟩ := delimits_senderQueuesBytes _ _ fits.2 otherFits.2 _ _ same
    exact ⟨UInt64.toBitVec_inj.mp seqId, sortHashes_eq_iff.mp pending, queues⟩
  · rintro ⟨seqId, pending, queues⟩
    rw [checkpointBytes, checkpointBytes, seqId, sortHashes_eq_iff.mpr pending, queues]

theorem frameBytes_eq_iff {frame other : ReplayFrame} (fits : frame.Fits) (otherFits : other.Fits) :
    frameBytes frame = frameBytes other ↔ frame = other := by
  refine ⟨fun same => ?_, congrArg frameBytes⟩
  have same := congrArg (· ++ ([] : List UInt8)) same
  simp only [frameBytes, List.append_assoc] at same
  obtain ⟨seqHi, same⟩ := delimits_leBytes _ _ trivial trivial _ _ same
  obtain ⟨timestamp, same⟩ := delimits_leBytes _ _ trivial trivial _ _ same
  rw [← List.append_assoc, ← List.append_assoc (lenBytes other.pending.length)] at same
  obtain ⟨pending, same⟩ := delimits_hashes _ _ fits.1 otherFits.1 _ _ same
  obtain ⟨queues, -⟩ := delimits_senderQueuesBytes _ _ fits.2 otherFits.2 _ _ same
  cases frame
  cases other
  cases UInt64.toBitVec_inj.mp seqHi
  cases Int64.toBitVec_inj.mp timestamp
  cases pending
  cases queues
  rfl

section Digests

variable (sha256 : List UInt8 → Digest)

theorem lifecycleCheckpointHash_eq_iff {checkpoint other : LifecycleCheckpoint}
    (fits : checkpoint.Fits) (otherFits : other.Fits)
    (apart : ¬ Collides sha256 (checkpointBytes checkpoint) (checkpointBytes other)) :
    lifecycleCheckpointHash sha256 checkpoint = lifecycleCheckpointHash sha256 other ↔
      SameCheckpoint checkpoint other :=
  (digest_eq_iff apart).trans (checkpointBytes_eq_iff fits otherFits)

theorem frameCheckpointHash_eq_iff {frame other : ReplayFrame} (fits : frame.Fits)
    (otherFits : other.Fits)
    (apart : ¬ Collides sha256 (frameBytes frame) (frameBytes other)) :
    frameCheckpointHash sha256 frame = frameCheckpointHash sha256 other ↔ frame = other :=
  (digest_eq_iff apart).trans (frameBytes_eq_iff fits otherFits)

/-- **Checkpoint hashes identify checkpoints**, and the entries of two replays the frames they were
made from. -/
theorem checkpointHashes_identify :
    (∀ checkpoint other : LifecycleCheckpoint, checkpoint.Fits → other.Fits →
      ¬ Collides sha256 (checkpointBytes checkpoint) (checkpointBytes other) →
        (lifecycleCheckpointHash sha256 checkpoint = lifecycleCheckpointHash sha256 other ↔
          SameCheckpoint checkpoint other)) ∧
      ∀ (iteration otherIteration : MapIteration) (events others : List EventEnvelope)
        (stride otherStride index place : Nat) (frame other : ReplayFrame)
        (entry otherEntry : CheckpointHash),
        (iteration.replayFrames events .deterministicEventReplay (max stride 1))[index]? =
            some frame →
          (otherIteration.replayFrames others .deterministicEventReplay
              (max otherStride 1))[place]? = some other →
          (iteration.deterministicCheckpointHashes sha256 events stride)[index]? = some entry →
          (otherIteration.deterministicCheckpointHashes sha256 others otherStride)[place]? =
              some otherEntry →
          frame.Fits → other.Fits → ¬ Collides sha256 (frameBytes frame) (frameBytes other) →
            (entry.checkpointHash = otherEntry.checkpointHash ↔ frame = other) := by
  constructor
  · exact fun _ _ fits otherFits => lifecycleCheckpointHash_eq_iff sha256 fits otherFits
  · intro iteration otherIteration events others stride otherStride index place frame other entry
      otherEntry emitted otherEmitted hashed otherHashed fits otherFits apart
    rw [MapIteration.deterministicCheckpointHashes, List.getElem?_map, emitted] at hashed
    rw [MapIteration.deterministicCheckpointHashes, List.getElem?_map, otherEmitted] at otherHashed
    cases hashed
    cases otherHashed
    exact frameCheckpointHash_eq_iff sha256 fits otherFits apart

end Digests

/-! ## Samples -/

/-- A checkpoint with a transaction that waits for a nonce. -/
def blockedCheckpoint (expectedNonce : UInt64) : LifecycleCheckpoint where
  seqId := 7
  pendingHashes := [2, 1]
  senderQueues :=
    [{ sender := 9
       queued := [{ hash := 1, nonce := 5, state := .ready },
         { hash := 2, nonce := 7, state := .blocked expectedNonce }] }]

/-- A log with one decoded transaction. -/
def decodedLog (timestampUnixMs : Int64) : List EventEnvelope :=
  [{ sampleEnvelope 1 (.txDecoded (Scheduler.sampleValidatedTx 10 1 7 100).decoded) with
    ingestTsUnixMs := timestampUnixMs }]

/-- The frame of that log. -/
def decodedFrame (timestampUnixMs : Int64) : ReplayFrame where
  seqHi := 1
  timestampUnixMs := timestampUnixMs
  pending := [10]
  senderQueues := [{ sender := 1, queued := [{ hash := 10, nonce := 7, state := .ready }] }]

/-- The digests of the samples. -/
def sampleSha256 (message : List UInt8) : Digest :=
  let digest : BitVec 256 :=
    if message = checkpointBytes (blockedCheckpoint 6) then
      0xd74625b6c7d82438cb6871bdd95bffb0b193224e3a8578fb4efcca81ae9766de
    else if message = checkpointBytes (blockedCheckpoint 5) then
      0x018a950ad3264c1de6be032c486be4dc37b4d45e098dde62fc19912a85ea000e
    else if message = frameBytes (decodedFrame 100) then
      0x7e8f1ac0a7dd9b4ed7d41ca6417049eb04bcd9f7c87b000ac1ecdda7c29ef1c5
    else 0x29ef523001b45d4d636748790f9d6b04e46854b049db9fbd29f85d841fbf5d8e
  ⟨arrayBytes digest, rfl⟩

/-- Another expected nonce changes the digest of the checkpoint, and a later event that of the
frame. -/
theorem sampleHashes_differ :
    lifecycleCheckpointHash sampleSha256 (blockedCheckpoint 6) ≠
        lifecycleCheckpointHash sampleSha256 (blockedCheckpoint 5) ∧
      ((MapIteration.increasing.deterministicCheckpointHashes sampleSha256 (decodedLog 100) 1).map
          (·.checkpointHash))[0]? ≠
        ((MapIteration.increasing.deterministicCheckpointHashes sampleSha256 (decodedLog 101) 1).map
          (·.checkpointHash))[0]? := by
  obtain ⟨checkpoints, frames⟩ := checkpointHashes_identify sampleSha256
  constructor
  · intro same
    have agree := (checkpoints (blockedCheckpoint 6) (blockedCheckpoint 5)
      ⟨by decide, by decide, by decide⟩ ⟨by decide, by decide, by decide⟩
      (by unfold Collides; decide +kernel)).mp same
    exact absurd agree.2.2 (by decide)
  · have early : (MapIteration.increasing.replayFrames (decodedLog 100) .deterministicEventReplay
        (max 1 1))[0]? = some (decodedFrame 100) := by decide +kernel
    have late : (MapIteration.increasing.replayFrames (decodedLog 101) .deterministicEventReplay
        (max 1 1))[0]? = some (decodedFrame 101) := by decide +kernel
    intro same
    rw [List.getElem?_map, List.getElem?_map, MapIteration.deterministicCheckpointHashes,
      MapIteration.deterministicCheckpointHashes, List.getElem?_map, List.getElem?_map, early, late]
      at same
    have agree := (frames .increasing .increasing (decodedLog 100) (decodedLog 101) 1 1 0 0
      (decodedFrame 100) (decodedFrame 101) _ _ early late
      (by rw [MapIteration.deterministicCheckpointHashes, List.getElem?_map, early]; rfl)
      (by rw [MapIteration.deterministicCheckpointHashes, List.getElem?_map, late]; rfl)
      ⟨by decide, by decide, by decide⟩ ⟨by decide, by decide, by decide⟩
      (by unfold Collides; decide +kernel)).mp (Option.some.inj same)
    exact absurd (congrArg ReplayFrame.timestampUnixMs agree) (by decide)

end Mempulse.Replay
