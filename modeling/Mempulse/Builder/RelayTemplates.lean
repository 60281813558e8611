import Mempulse.Builder.Assembly
import Mempulse.HexParsers
import Mempulse.Replay.CheckpointHashes

/-!
# Relay templates

The template of a block has an identifier, the hash of the slot, the two texts of the context and
the selected candidates. The texts and the lists are written without their lengths, so bytes can
move from one field to the next: two blocks of different layouts may be written alike.
-/

set_option autoImplicit false

namespace Mempulse.Builder

open Library Replay

/-! ## The template -/

/-- Context used to build a relay template. -/
structure RelayBuildContext where
  slot : UInt64
  parentHash : String
  builderPubkey : String
  deriving DecidableEq

/-- Block template sent to relays. -/
structure BlockTemplate where
  slot : UInt64
  parentHash : String
  blockHash : String
  builderPubkey : String
  txCount : UInt32
  gasUsed : Nat
  deriving DecidableEq

/-- `as_bytes`. -/
def asBytes (text : String) : List UInt8 := text.toUTF8.data.toList

/-- `to_le_bytes` of a four-byte integer. -/
def leBytes4 (value : BitVec 32) : List UInt8 :=
  (List.range 4).map fun position => UInt8.ofBitVec (value.extractLsb' (8 * position) 8)

/-- What is fed to the digest. -/
def blockBytes (context : RelayBuildContext) (candidates : List AssemblyCandidate) : List UInt8 :=
  leBytes context.slot.toBitVec ++ asBytes context.parentHash ++ asBytes context.builderPubkey ++
    candidates.flatMap fun candidate =>
      asBytes candidate.candidateId ++ leBytes4 candidate.priorityScore.toBitVec ++
        leBytes candidate.gasUsed.toBitVec ++ candidate.txHashes.flatMap arrayBytes

section Digests

variable (sha256 : List UInt8 → Digest) (encode : List UInt8 → String)

/-- The encoder is `hex::encode`. -/
def computeBlockHash (context : RelayBuildContext) (candidates : List AssemblyCandidate) : String :=
  "0x" ++ encode (sha256 (blockBytes context candidates)).toList

/-- Builds a relay-facing block template from the currently selected candidates. -/
def AssemblyEngine.buildRelayTemplate (engine : AssemblyEngine) (context : RelayBuildContext) :
    Option BlockTemplate :=
  if engine.candidates.isEmpty then none
  else
    let txCount := engine.candidates.foldl (fun acc candidate =>
      saturatingAdd (2 ^ 32 - 1) acc (candidate.txHashes.length % 2 ^ 32)) 0
    some
      { slot := context.slot
        parentHash := context.parentHash
        blockHash := computeBlockHash sha256 encode context engine.candidates
        builderPubkey := context.builderPubkey
        txCount := .ofNat txCount
        gasUsed := engine.liveObjective.totalGasUsed }

end Digests

/-! ## What is hashed -/

/-- What is hashed of a candidate. -/
structure HashedCandidate where
  candidateId : CandidateId
  priorityScore : UInt32
  gasUsed : UInt64
  txHashes : List TxHash
  deriving DecidableEq

/-- What is hashed of a block. -/
structure HashedBlock where
  slot : UInt64
  parentHash : String
  builderPubkey : String
  candidates : List HashedCandidate
  deriving DecidableEq

/-- The part of a candidate that is hashed. -/
def AssemblyCandidate.hashed (candidate : AssemblyCandidate) : HashedCandidate where
  candidateId := candidate.candidateId
  priorityScore := candidate.priorityScore
  gasUsed := candidate.gasUsed
  txHashes := candidate.txHashes

/-- The part of a block that is hashed. -/
def hashedBlock (context : RelayBuildContext) (candidates : List AssemblyCandidate) :
    HashedBlock where
  slot := context.slot
  parentHash := context.parentHash
  builderPubkey := context.builderPubkey
  candidates := candidates.map AssemblyCandidate.hashed

/-- How long the fields of a block are: its two texts in bytes, and for each candidate its id in
bytes and the number of its transactions. -/
structure BlockLayout where
  parentHash : Nat
  builderPubkey : Nat
  candidates : List (Nat × Nat)
  deriving DecidableEq

/-- The lengths of the fields that are written without a length. -/
def HashedBlock.layout (block : HashedBlock) : BlockLayout where
  parentHash := (asBytes block.parentHash).length
  builderPubkey := (asBytes block.builderPubkey).length
  candidates := block.candidates.map fun candidate =>
    ((asBytes candidate.candidateId).length, candidate.txHashes.length)

/-- The bytes of a block of this layout. -/
def BlockLayout.size (layout : BlockLayout) : Nat :=
  8 + layout.parentHash + layout.builderPubkey +
    (layout.candidates.map fun lengths => lengths.1 + 12 + 32 * lengths.2).sum

/-- The fields of a candidate, in the order they are written. -/
def HashedCandidate.words (candidate : HashedCandidate) : List (List UInt8) :=
  [asBytes candidate.candidateId, leBytes4 candidate.priorityScore.toBitVec,
    leBytes candidate.gasUsed.toBitVec, candidate.txHashes.flatMap arrayBytes]

/-- The fields of a block, in the order they are written. -/
def HashedBlock.words (block : HashedBlock) : List (List UInt8) :=
  leBytes block.slot.toBitVec :: asBytes block.parentHash :: asBytes block.builderPubkey ::
    block.candidates.flatMap HashedCandidate.words

theorem asBytes_injective : Function.Injective asBytes := by
  intro text other same
  have arrays : text.toUTF8.data = other.toUTF8.data := Array.toList_inj.mp same
  exact String.toByteArray_inj.mp (ByteArray.ext arrays)

theorem delimits_leBytes4 : DelimitsOn (fun _ => True) leBytes4 := by
  refine .of_length 4 (fun _ => by simp [leBytes4]) fun value other _ _ same => ?_
  exact eq_of_map_bytes 4 (by decide) (fun _ small => List.mem_range.mpr small) same

theorem length_leBytes (value : BitVec 64) : (leBytes value).length = 8 := by simp [leBytes]

theorem length_flatMap_arrayBytes (hashes : List TxHash) :
    (hashes.flatMap arrayBytes).length = 32 * hashes.length := by
  induction hashes with
  | nil => rfl
  | cons hash rest ih =>
      have one : (arrayBytes hash).length = 32 := by simp [arrayBytes]
      rw [List.flatMap_cons, List.length_append, ih, List.length_cons, one]
      omega

/-- The lengths of the words of a candidate. -/
def candidateLengths (lengths : Nat × Nat) : List Nat := [lengths.1, 4, 8, 32 * lengths.2]

theorem map_length_words (block : HashedBlock) :
    block.words.map List.length = 8 :: block.layout.parentHash :: block.layout.builderPubkey ::
      block.layout.candidates.flatMap candidateLengths := by
  have each : ∀ candidate : HashedCandidate, candidate.words.map List.length =
      candidateLengths ((asBytes candidate.candidateId).length, candidate.txHashes.length) := by
    intro candidate
    have hashes := length_flatMap_arrayBytes candidate.txHashes
    simp only [HashedCandidate.words, List.map_cons, List.map_nil, length_leBytes, hashes,
      candidateLengths, leBytes4, List.length_map, List.length_range]
  rw [HashedBlock.words, List.map_cons, List.map_cons, List.map_cons, length_leBytes,
    List.map_flatMap]
  simp only [each, HashedBlock.layout, List.flatMap_map]

/-- The words of a candidate say what it is. -/
theorem delimits_words : DelimitsOn (fun _ => True) HashedCandidate.words := by
  refine .of_length 4 (fun _ => rfl) fun candidate other _ _ same => ?_
  obtain ⟨id, same⟩ := List.cons.inj same
  obtain ⟨score, same⟩ := List.cons.inj same
  obtain ⟨gas, same⟩ := List.cons.inj same
  have hashes := (List.cons.inj same).1
  have lengths := congrArg List.length hashes
  rw [length_flatMap_arrayBytes, length_flatMap_arrayBytes] at lengths
  have txHashes := ((delimits_arrayBytes (by decide)).flatMap (fun _ _ => trivial)
    (fun _ _ => trivial) (Nat.eq_of_mul_eq_mul_left (by decide) lengths)
    (congrArg (· ++ []) hashes)).1
  cases candidate
  cases other
  cases asBytes_injective id
  cases UInt32.toBitVec_inj.mp (delimits_leBytes4.eq_of_eq trivial trivial score)
  cases UInt64.toBitVec_inj.mp (delimits_leBytes.eq_of_eq trivial trivial gas)
  cases txHashes
  rfl

/-- How blocks are hashed. -/
def blockCode : Unframed HashedBlock UInt8 BlockLayout where
  words := HashedBlock.words
  layout := HashedBlock.layout
  lengths block other layouts := by rw [map_length_words, map_length_words, layouts]
  known block other layouts same := by
    obtain ⟨slot, same⟩ := List.cons.inj same
    obtain ⟨parentHash, same⟩ := List.cons.inj same
    obtain ⟨builderPubkey, same⟩ := List.cons.inj same
    have lengths := congrArg (fun layout => layout.candidates.length) layouts
    simp only [HashedBlock.layout, List.length_map] at lengths
    have candidates := (delimits_words.flatMap (fun _ _ => trivial) (fun _ _ => trivial) lengths
      (congrArg (· ++ []) same)).1
    cases block
    cases other
    cases UInt64.toBitVec_inj.mp (delimits_leBytes.eq_of_eq trivial trivial slot)
    cases asBytes_injective parentHash
    cases asBytes_injective builderPubkey
    cases candidates
    rfl

theorem stream_blockCode (context : RelayBuildContext) (candidates : List AssemblyCandidate) :
    blockCode.stream (hashedBlock context candidates) = blockBytes context candidates := by
  have each : ∀ candidates : List AssemblyCandidate,
      ((candidates.map AssemblyCandidate.hashed).flatMap HashedCandidate.words).flatten =
        candidates.flatMap fun candidate =>
          asBytes candidate.candidateId ++ leBytes4 candidate.priorityScore.toBitVec ++
            leBytes candidate.gasUsed.toBitVec ++ candidate.txHashes.flatMap arrayBytes := by
    intro candidates
    induction candidates with
    | nil => rfl
    | cons candidate rest ih =>
        rw [List.map_cons, List.flatMap_cons, List.flatten_append, ih, List.flatMap_cons]
        simp [HashedCandidate.words, AssemblyCandidate.hashed]
  rw [blockBytes, ← each]
  simp [Unframed.stream, blockCode, HashedBlock.words, hashedBlock]

/-! ## Identification -/

/-- **The hash identifies a block** as against another one, unless the digest collides on what is
written of the two, whichever encoder does what the `hex` crate says. -/
def Identifies (sha256 : List UInt8 → Digest) (context : RelayBuildContext)
    (candidates : List AssemblyCandidate) (other : RelayBuildContext)
    (others : List AssemblyCandidate) : Prop :=
  ¬ Collides sha256 (blockBytes context candidates) (blockBytes other others) →
    ∀ encode, HexEncodes encode →
      computeBlockHash sha256 encode context candidates =
          computeBlockHash sha256 encode other others →
        hashedBlock context candidates = hashedBlock other others

section Layouts

variable (sha256 : List UInt8 → Digest)

theorem computeBlockHash_eq_iff {encode : List UInt8 → String} (documented : HexEncodes encode)
    {context other : RelayBuildContext} {candidates others : List AssemblyCandidate}
    (apart : ¬ Collides sha256 (blockBytes context candidates) (blockBytes other others)) :
    computeBlockHash sha256 encode context candidates = computeBlockHash sha256 encode other others ↔
      blockBytes context candidates = blockBytes other others := by
  rw [← digest_eq_iff apart]
  constructor
  · intro same
    have read := congrArg (LiveRpc.Slicing.parseFixedHex 32) same
    rw [computeBlockHash, computeBlockHash, documented.marked, documented.marked,
      parseFixedHex_formatFixedHex, parseFixedHex_formatFixedHex] at read
    exact Option.some.inj (Outcome.returned.inj read)
  · intro same
    rw [computeBlockHash, computeBlockHash, same]

theorem identifies_iff_tells (context other : RelayBuildContext)
    (candidates others : List AssemblyCandidate) :
    Identifies sha256 context candidates other others ↔
      (blockBytes context candidates = blockBytes other others →
        hashedBlock context candidates = hashedBlock other others) := by
  constructor
  · intro identifies same
    have apart : ¬ Collides sha256 (blockBytes context candidates) (blockBytes other others) :=
      fun collides => collides.1 same
    exact identifies apart hexEncode hexEncodes_hexEncode
      ((computeBlockHash_eq_iff sha256 hexEncodes_hexEncode apart).mpr same)
  · exact fun tells apart encode documented same =>
      tells ((computeBlockHash_eq_iff sha256 documented apart).mp same)

end Layouts

/-! ## Blocks of zeros -/

/-- A text of zero bytes. -/
def zeroText (length : Nat) : String := String.ofList (List.replicate length (Char.ofNat 0))

theorem asBytes_zeroText (length : Nat) : asBytes (zeroText length) = List.replicate length 0 := by
  have encoded : ∀ length, (List.replicate length (Char.ofNat 0)).flatMap String.utf8EncodeChar =
      List.replicate length 0 := by
    intro length
    induction length with
    | zero => rfl
    | succ length ih =>
        rw [List.replicate_succ, List.flatMap_cons, ih]
        rfl
  rw [asBytes, zeroText, String.toUTF8_eq_toByteArray, String.toByteArray_ofList, List.utf8Encode,
    List.toList_data_toByteArray, encoded]

namespace BlockLayout

/-- A context of the given layout, all zeros. -/
def zeroContext (layout : BlockLayout) : RelayBuildContext where
  slot := 0
  parentHash := zeroText layout.parentHash
  builderPubkey := zeroText layout.builderPubkey

/-- Candidates of the given layout, all zeros. -/
def zeroCandidates (layout : BlockLayout) : List AssemblyCandidate :=
  layout.candidates.map fun lengths =>
    { candidateId := zeroText lengths.1
      txHashes := List.replicate lengths.2 0
      priorityScore := 0
      gasUsed := 0
      kind := .bundle
      simulation := { simId := "", blockNumber := 0, approved := true } }

theorem layout_zero (layout : BlockLayout) :
    (hashedBlock layout.zeroContext layout.zeroCandidates).layout = layout := by
  have text : ∀ length, (asBytes (zeroText length)).length = length := fun length => by
    rw [asBytes_zeroText, List.length_replicate]
  cases layout with
  | mk parentHash builderPubkey candidates =>
      simp only [HashedBlock.layout, hashedBlock, zeroContext, zeroCandidates, text, List.map_map,
        BlockLayout.mk.injEq, true_and]
      refine (List.map_congr_left fun lengths _ => ?_).trans (List.map_id candidates)
      simp [AssemblyCandidate.hashed, text]

/-- All blocks of zeros of one size are written alike. -/
theorem blockBytes_zero (layout : BlockLayout) :
    blockBytes layout.zeroContext layout.zeroCandidates = List.replicate layout.size 0 := by
  have number : leBytes (0 : UInt64).toBitVec = List.replicate 8 0 := by decide
  have score : leBytes4 (0 : UInt32).toBitVec = List.replicate 4 0 := by decide
  have hash : arrayBytes (0 : TxHash) = List.replicate 32 0 := by decide
  have hashes : ∀ count : Nat, (List.replicate count (0 : TxHash)).flatMap arrayBytes =
      List.replicate (32 * count) 0 := by
    intro count
    induction count with
    | zero => rfl
    | succ count ih =>
        rw [List.replicate_succ, List.flatMap_cons, ih, hash, List.replicate_append_replicate,
          Nat.mul_succ, Nat.add_comm]
  have written : ∀ candidates : List (Nat × Nat),
      (({ layout with candidates := candidates } : BlockLayout).zeroCandidates.flatMap
        fun candidate => asBytes candidate.candidateId ++
          leBytes4 candidate.priorityScore.toBitVec ++ leBytes candidate.gasUsed.toBitVec ++
            candidate.txHashes.flatMap arrayBytes) =
        List.replicate (candidates.map fun lengths => lengths.1 + 12 + 32 * lengths.2).sum 0 := by
    intro candidates
    induction candidates with
    | nil => rfl
    | cons lengths rest ih =>
        rw [zeroCandidates, List.map_cons, List.flatMap_cons]
        rw [zeroCandidates] at ih
        rw [ih, asBytes_zeroText, score, number, hashes, List.replicate_append_replicate,
          List.replicate_append_replicate, List.replicate_append_replicate,
          List.replicate_append_replicate, List.map_cons, List.sum_cons]
  rw [blockBytes, written layout.candidates]
  simp only [zeroContext, number, asBytes_zeroText, List.replicate_append_replicate]
  rfl

/-- A block is written with as many bytes as its layout says. -/
theorem length_blockBytes (context : RelayBuildContext) (candidates : List AssemblyCandidate) :
    (blockBytes context candidates).length = (hashedBlock context candidates).layout.size := by
  have words := map_length_words (hashedBlock context candidates)
  have sums : ∀ lengths : List (Nat × Nat), (lengths.flatMap candidateLengths).sum =
      (lengths.map fun lengths => lengths.1 + 12 + 32 * lengths.2).sum := by
    intro lengths
    induction lengths with
    | nil => rfl
    | cons first rest ih =>
        rw [List.flatMap_cons, List.sum_append, ih, List.map_cons, List.sum_cons]
        simp [candidateLengths]
        omega
  rw [← stream_blockCode, Unframed.stream, List.length_flatten]
  change (List.map List.length (HashedBlock.words _)).sum = _
  rw [words, List.sum_cons, List.sum_cons, List.sum_cons, sums, size]
  omega

end BlockLayout

/-- **When the hash of a template identifies it.** Against a given block it does exactly when the
two have one layout or are written differently, and for all blocks of two layouts exactly when these
are the same or of different sizes. -/
theorem identifies_iff (sha256 : List UInt8 → Digest) :
    (∀ (context other : RelayBuildContext) (candidates others : List AssemblyCandidate),
      Identifies sha256 context candidates other others ↔
        (hashedBlock context candidates).layout = (hashedBlock other others).layout ∨
          blockBytes context candidates ≠ blockBytes other others) ∧
      ∀ layout otherLayout : BlockLayout,
        (∀ (context other : RelayBuildContext) (candidates others : List AssemblyCandidate),
          (hashedBlock context candidates).layout = layout →
            (hashedBlock other others).layout = otherLayout →
              Identifies sha256 context candidates other others) ↔
          layout = otherLayout ∨ layout.size ≠ otherLayout.size := by
  have pointwise : ∀ (context other : RelayBuildContext)
      (candidates others : List AssemblyCandidate),
      Identifies sha256 context candidates other others ↔
        (hashedBlock context candidates).layout = (hashedBlock other others).layout ∨
          blockBytes context candidates ≠ blockBytes other others := by
    intro context other candidates others
    rw [identifies_iff_tells, ← stream_blockCode, ← stream_blockCode]
    exact blockCode.tells_iff _ _
  refine ⟨pointwise, fun layout otherLayout => ⟨fun identifies => ?_, ?_⟩⟩
  · -- Two blocks of zeros are written alike when their sizes are equal.
    by_cases sizes : layout.size = otherLayout.size
    · have zeros := (pointwise _ _ _ _).mp (identifies layout.zeroContext otherLayout.zeroContext
        layout.zeroCandidates otherLayout.zeroCandidates layout.layout_zero otherLayout.layout_zero)
      rw [layout.layout_zero, otherLayout.layout_zero, layout.blockBytes_zero,
        otherLayout.blockBytes_zero, sizes] at zeros
      exact .inl (zeros.resolve_right fun differs => differs rfl)
    · exact .inr sizes
  · rintro (rfl | sizes) context other candidates others own otherOwn
    · exact (pointwise context other candidates others).mpr (.inl (own.trans otherOwn.symm))
    · refine (pointwise context other candidates others).mpr (.inr fun same => sizes ?_)
      rw [← own, ← otherOwn, ← BlockLayout.length_blockBytes, ← BlockLayout.length_blockBytes, same]

theorem blockHash_of_buildRelayTemplate {sha256 : List UInt8 → Digest}
    {encode : List UInt8 → String} {engine : AssemblyEngine} {context : RelayBuildContext} {template : BlockTemplate}
    (built : engine.buildRelayTemplate sha256 encode context = some template) :
    template.blockHash = computeBlockHash sha256 encode context engine.candidates := by
  unfold AssemblyEngine.buildRelayTemplate at built
  split at built
  · cases built
  · cases built
    rfl

/-- Templates with one block hash were built from one block when their layouts are the same. -/
theorem hashedBlock_eq_of_templates {sha256 : List UInt8 → Digest}
    {encode : List UInt8 → String} (documented : HexEncodes encode) {engine other : AssemblyEngine}
    {context otherContext : RelayBuildContext} {template otherTemplate : BlockTemplate}
    (built : engine.buildRelayTemplate sha256 encode context = some template)
    (otherBuilt : other.buildRelayTemplate sha256 encode otherContext = some otherTemplate)
    (layouts : (hashedBlock context engine.candidates).layout =
      (hashedBlock otherContext other.candidates).layout)
    (apart : ¬ Collides sha256 (blockBytes context engine.candidates)
      (blockBytes otherContext other.candidates))
    (same : template.blockHash = otherTemplate.blockHash) :
    hashedBlock context engine.candidates = hashedBlock otherContext other.candidates := by
  rw [blockHash_of_buildRelayTemplate built, blockHash_of_buildRelayTemplate otherBuilt,
    computeBlockHash_eq_iff sha256 documented apart] at same
  refine blockCode.eq_of_stream layouts ?_
  rw [stream_blockCode, stream_blockCode, same]

/-! ## Samples -/

/-- A candidate of one transaction. -/
def sampleCandidate : AssemblyCandidate where
  candidateId := "cand-1"
  txHashes := [1]
  priorityScore := 10
  gasUsed := 21000
  kind := .transaction
  simulation := { simId := "sim-1", blockNumber := 1, approved := true }

/-- A context of slot `1` with the given two texts. -/
def sampleContext (parentHash builderPubkey : String) : RelayBuildContext where
  slot := 1
  parentHash := parentHash
  builderPubkey := builderPubkey

/-- Two contexts that differ in where the parent hash ends have one hash, whatever the digest is. -/
theorem movedByte_not_identifies :
    ¬ ∃ sha256 : List UInt8 → Digest,
      ∀ (context other : RelayBuildContext) (candidates others : List AssemblyCandidate),
        Identifies sha256 context candidates other others := by
  rintro ⟨sha256, identifies⟩
  have written : blockBytes (sampleContext "0xab" "0xc") [sampleCandidate] =
      blockBytes (sampleContext "0xa" "b0xc") [sampleCandidate] := by decide +kernel
  have blocks := (identifies_iff_tells sha256 _ _ _ _).mp (identifies (sampleContext "0xab" "0xc")
    (sampleContext "0xa" "b0xc") [sampleCandidate] [sampleCandidate]) written
  exact absurd (congrArg HashedBlock.parentHash blocks) (by decide)

end Mempulse.Builder
