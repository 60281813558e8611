import Mempulse.Library.Sorting
import Mempulse.Library.TextFiles
import Mempulse.LiveRpc.Handoffs
import Mempulse.LiveRpc.LiveLog

/-!
# Simulation and bundle ids

The id of a simulation and that of a bundle spell eight hex digits of a transaction hash and the
millisecond in which the opportunity was detected. Tasks are told apart by their transaction and all
their members, and candidates by their strategy and transaction, so different ones can get one id:
those of one step and transaction, and those of one millisecond whose hashes begin alike.
-/

set_option autoImplicit false

namespace Mempulse.LiveRpc

open Std EventLog Library Scheduler Storage Searcher Builder

/-! ## What a key spells -/

/-- A hash is spelled without a comma. -/
theorem formatFixedHex_part (hash : TxHash) :
    formatFixedHex hash ≠ "" ∧ ',' ∉ (formatFixedHex hash).toList := by
  constructor
  · intro empty
    have length := length_formatFixedHex hash
    rw [empty] at length
    cases length
  · simp [formatFixedHex, hexText, hexString]

/-- **Tasks are told apart by their transaction and their members.** -/
theorem simulationTaskKey_eq_iff {first second : RemoteSimulationRequest} :
    simulationTaskKey first = simulationTaskKey second ↔
      first.txHash = second.txHash ∧ first.memberTxHashes.Perm second.memberTxHashes := by
  have parts : ∀ request : RemoteSimulationRequest,
      ∀ text ∈ sortBy compare (request.memberTxHashes.map formatFixedHex),
        text ≠ "" ∧ ',' ∉ text.toList := by
    intro request text member
    obtain ⟨hash, -, rfl⟩ := List.mem_map.mp ((stableSort_perm compare _).mem_iff.mp member)
    exact formatFixedHex_part hash
  constructor
  · intro same
    have hash := txHash_of_simulationTaskKey same
    refine ⟨hash, ?_⟩
    unfold simulationTaskKey at same
    dsimp only at same
    rw [hash] at same
    have members := intercalate_inj (parts first) (parts second)
      (String.toList_inj.mp (by simpa [← String.toList_inj] using same))
    refine (List.map_perm_map_iff fun _ _ => formatFixedHex_inj).mp ?_
    calc first.memberTxHashes.map formatFixedHex
        |>.Perm (sortBy compare (first.memberTxHashes.map formatFixedHex)) :=
          (stableSort_perm compare _).symm
      List.Perm _ (second.memberTxHashes.map formatFixedHex) :=
          members ▸ stableSort_perm compare _
  · rintro ⟨hash, members⟩
    have sorted : sortBy compare (first.memberTxHashes.map formatFixedHex) =
        sortBy compare (second.memberTxHashes.map formatFixedHex) :=
      stableSort_eq_of_perm (members.map formatFixedHex)
        fun left _ right _ same => LawfulEqCmp.eq_of_compare same
    unfold simulationTaskKey
    dsimp only
    rw [hash]
    exact congrArg (fun members => _ ++ ",".intercalate members) sorted

/-! ## What an id spells -/

/-- What the ids of a request spell: the first four bytes of the hash, and the millisecond. -/
def stamp (request : RemoteSimulationRequest) : BitVec 32 × Int64 :=
  (request.txHash.extractLsb' 224 32, request.detectedUnixMs)

theorem toList_hashPrefix (hash : TxHash) :
    (hashPrefix hash).toList =
      (List.range 8).reverse.map fun position =>
        Nat.digitChar (hash.toNat / 16 ^ (56 + position) % 16) := by
  simp [hashPrefix, formatFixedHex, hexText, hexString, List.range_succ]

theorem toNat_extractLsb'_224 (hash : TxHash) :
    (hash.extractLsb' 224 32).toNat = hash.toNat / 16 ^ 56 := by
  have below : hash.toNat / 2 ^ 224 < 2 ^ 32 := by
    have bound := hash.isLt
    omega
  rw [BitVec.extractLsb'_toNat, Nat.shiftRight_eq_div_pow, Nat.mod_eq_of_lt below]
  norm_num

/-- The digits are those of the first four bytes. -/
theorem hashPrefix_eq_iff {left right : TxHash} :
    hashPrefix left = hashPrefix right ↔
      left.extractLsb' 224 32 = right.extractLsb' 224 32 := by
  rw [← String.toList_inj, toList_hashPrefix, toList_hashPrefix, List.map_inj_left,
    ← BitVec.toNat_inj, toNat_extractLsb'_224, toNat_extractLsb'_224]
  have shifted : ∀ (number position : Nat),
      number / 16 ^ (56 + position) = number / 16 ^ 56 / 16 ^ position := by
    intro number position
    rw [pow_add, Nat.div_div_eq_div_mul]
  constructor
  · intro digits
    have whole : left.toNat / 16 ^ 56 % 16 ^ 8 = right.toNat / 16 ^ 56 % 16 ^ 8 := by
      refine mod_pow_eq_of_digits fun position below => ?_
      have digit := digits position (List.mem_reverse.mpr (List.mem_range.mpr below))
      rw [shifted, shifted] at digit
      exact congrArg Fin.val (digitChar_inj ⟨_, Nat.mod_lt _ (by decide)⟩
        ⟨_, Nat.mod_lt _ (by decide)⟩ digit)
    have leftBound := left.isLt
    have rightBound := right.isLt
    omega
  · intro same position _
    rw [shifted, shifted, same]

theorem toString_int64_inj {left right : Int64} (same : toString left = toString right) :
    left = right := Int64.toInt_inj.mp (Int.repr_injective same)

/-- Two ids that begin alike agree in their digits and in their milliseconds. -/
theorem id_eq_iff {kind : String} {left right : TxHash} {leftMs rightMs : Int64} :
    kind ++ hashPrefix left ++ "-" ++ toString leftMs =
        kind ++ hashPrefix right ++ "-" ++ toString rightMs ↔
      (left.extractLsb' 224 32, leftMs) = (right.extractLsb' 224 32, rightMs) := by
  rw [Prod.mk.injEq, ← hashPrefix_eq_iff]
  refine ⟨fun same => ?_, fun ⟨digits, time⟩ => by rw [digits, time]⟩
  have characters := congrArg String.toList same
  simp only [String.toList_append, List.append_assoc, List.append_cancel_left_eq] at characters
  have length : ∀ hash : TxHash, (hashPrefix hash).toList.length = 8 := by
    intro hash
    rw [toList_hashPrefix]
    simp
  obtain ⟨digits, rest⟩ := List.append_inj characters ((length left).trans (length right).symm)
  exact ⟨String.toList_inj.mp digits,
    toString_int64_inj (String.toList_inj.mp (List.append_cancel_left rest))⟩

theorem simIdForRequest_eq_iff {first second : RemoteSimulationRequest} :
    simIdForRequest first = simIdForRequest second ↔ stamp first = stamp second := id_eq_iff

theorem buildBundleId_eq_iff {first second : RemoteSimulationRequest} :
    buildBundleId first.txHash first.detectedUnixMs =
        buildBundleId second.txHash second.detectedUnixMs ↔
      stamp first = stamp second := id_eq_iff

/-! ## Ids that identify -/

/-- The candidate for which a simulation worker emitted an event. -/
def LogEntry.subject (entry : LogEntry) : Option CandidateId := entry.origin.bind (·.2)

/-- The statuses still have, for each simulation, the one recorded last for a task of its key. -/
def StatusesKept (recorded : List (SimulationTask × LiveRpcSimulationStatusSnapshot))
    (byId : ExtTreeMap String LiveRpcSimulationStatusSnapshot) : Prop :=
  ∀ earlier task snapshot later, recorded = earlier ++ (task, snapshot) :: later →
    (∀ pair ∈ later, simulationTaskKey pair.1.request ≠ simulationTaskKey task.request) →
      byId[snapshot.id]? = some snapshot

/-- **Simulation and bundle ids identify their request.** -/
structure LiveSystem.IdsIdentify (system : LiveSystem) : Prop where
  simIds : ∀ first ∈ system.live.simulationQueue, ∀ second ∈ system.live.simulationQueue,
    simIdForRequest first.request = simIdForRequest second.request →
      simulationTaskKey first.request = simulationTaskKey second.request
  statuses : StatusesKept system.recorded system.statuses.byId
  bundleIds : ∀ first ∈ system.log, ∀ second ∈ system.log, ∀ one other,
    first.payload = .bundleSubmitted one → second.payload = .bundleSubmitted other →
      one.bundleId = other.bundleId → first.subject = second.subject

/-- Two tasks whose hashes have the same first four bytes, and that are of the same millisecond, are
of the same transaction and members, and no two candidates that were submitted have such hashes. -/
structure LiveSystem.StampsIdentify (system : LiveSystem) : Prop where
  tasks : ∀ first ∈ system.live.simulationQueue, ∀ second ∈ system.live.simulationQueue,
    stamp first.request = stamp second.request →
      first.request.txHash = second.request.txHash ∧
        first.request.memberTxHashes.Perm second.request.memberTxHashes
  bundles : ∀ first ∈ system.log, ∀ second ∈ system.log, ∀ one other,
    first.payload = .bundleSubmitted one → second.payload = .bundleSubmitted other →
      first.origin.map (stamp ·.1.request) = second.origin.map (stamp ·.1.request) →
        first.subject = second.subject

/-- The status of an id is the one recorded last under it. -/
theorem getElem?_statusesOf {recorded later : List (SimulationTask × LiveRpcSimulationStatusSnapshot)}
    {pair : SimulationTask × LiveRpcSimulationStatusSnapshot}
    (last : ∀ other ∈ later, other.2.id ≠ pair.2.id) :
    (statusesOf (recorded ++ pair :: later))[pair.2.id]? = some pair.2 := by
  induction later using List.reverseRecOn with
  | nil => rw [statusesOf_concat, getElem?_insert_eq, if_pos rfl]
  | append_singleton later other ih =>
      have differs := last other (List.mem_append_right _ List.mem_cons_self)
      rw [← List.cons_append, ← List.append_assoc, statusesOf_concat, getElem?_insert_eq,
        if_neg differs]
      exact ih fun pair member => last pair (List.mem_append_left _ member)

namespace LiveSystem

variable {system : LiveSystem}

/-- The id of a bundle is that of the task it was submitted for. -/
theorem Sound.bundleId (sound : system.Sound) {entry : LogEntry} (member : entry ∈ system.log)
    {submitted : BundleSubmitted} (bundle : entry.payload = .bundleSubmitted submitted) :
    ∃ task subject, entry.origin = some (task, subject) ∧
      submitted.bundleId = buildBundleId task.request.txHash task.request.detectedUnixMs := by
  obtain ⟨earlier, later, whole⟩ := List.append_of_mem member
  have sourced := sound.chronicled.entries earlier entry later whole
  unfold LogEntry.Sourced at sourced
  split at sourced
  case h_1 =>
    rw [bundle] at sourced
    exact sourced.elim
  case h_2 task subject origin =>
    obtain ⟨-, logs, -⟩ := sourced
    rw [bundle] at logs
    exact ⟨task, subject, origin, logs.1⟩

theorem Sound.statusesKept (sound : system.Sound)
    (simIds : ∀ first ∈ system.live.simulationQueue, ∀ second ∈ system.live.simulationQueue,
      simIdForRequest first.request = simIdForRequest second.request →
        simulationTaskKey first.request = simulationTaskKey second.request) :
    StatusesKept system.recorded system.statuses.byId := by
  intro earlier task snapshot later whole others
  have listed : ∀ pair ∈ (task, snapshot) :: later, pair ∈ system.recorded := fun pair member =>
    whole ▸ List.mem_append_right _ member
  obtain ⟨queued, id⟩ := sound.recorded (task, snapshot) (listed _ List.mem_cons_self)
  rw [sound.statuses, whole]
  refine getElem?_statusesOf fun pair member same => ?_
  obtain ⟨otherQueued, otherId⟩ := sound.recorded pair (listed _ (List.mem_cons_of_mem _ member))
  exact others pair member
    (simIds pair.1 otherQueued task queued (otherId.symm.trans (same.trans id)))

/-- **When simulation and bundle ids identify their request.** In every run of the chain workers and
the simulation workers, they do exactly when no two tasks of different keys, and no two submitted
candidates, share the first four bytes of the hash and the millisecond. -/
theorem idsIdentify_iff (config : SchedulerConfig) (nextSeqId : UInt64) (assembly : AssemblyConfig)
    (jobs : List (List Arrival)) (turns : List LiveTurn) :
    ((start nextSeqId assembly jobs).run config turns).IdsIdentify ↔
      ((start nextSeqId assembly jobs).run config turns).StampsIdentify := by
  have sound : ((start nextSeqId assembly jobs).run config turns).Sound :=
    (Sound.start nextSeqId assembly jobs).run turns
  constructor
  · intro identify
    refine ⟨fun first here second there same => ?_, ?_⟩
    · exact simulationTaskKey_eq_iff.mp
        (identify.simIds first here second there (simIdForRequest_eq_iff.mpr same))
    · intro first here second there one other isOne isOther same
      obtain ⟨task, subject, origin, id⟩ := sound.bundleId here isOne
      obtain ⟨otherTask, otherSubject, otherOrigin, otherId⟩ := sound.bundleId there isOther
      refine identify.bundleIds first here second there one other isOne isOther ?_
      rw [origin, otherOrigin] at same
      rw [id, otherId, buildBundleId_eq_iff]
      exact Option.some.inj same
  · intro identify
    have simIds := fun first here second there same => simulationTaskKey_eq_iff.mpr
      (identify.tasks first here second there (simIdForRequest_eq_iff.mp same))
    refine ⟨simIds, sound.statusesKept simIds, ?_⟩
    intro first here second there one other isOne isOther same
    obtain ⟨task, subject, origin, id⟩ := sound.bundleId here isOne
    obtain ⟨otherTask, otherSubject, otherOrigin, otherId⟩ := sound.bundleId there isOther
    refine identify.bundles first here second there one other isOne isOther ?_
    rw [origin, otherOrigin, Option.map_some, Option.map_some]
    exact congrArg some (buildBundleId_eq_iff.mp (id.symm.trans (same.trans otherId)))

end LiveSystem

/-- A swap of the sample sender, processed at some time. -/
def swapArrival (hash : TxHash) (nonce : UInt64) (processedAtUnixMs : Int64) : Arrival :=
  { sampleArrival (sampleSwapLiveTx hash 1 nonce 100) with processedAtUnixMs := processedAtUnixMs }

/-- Two swaps with a gap between them, and then the swap that fills the gap: it is simulated alone,
and as the first of a bundle. -/
def bundledSwaps : LiveSystem :=
  (LiveSystem.start 1 { blockGasLimit := 30000000 }
    [[swapArrival 10 7 1, swapArrival 11 9 2, swapArrival 12 8 3]]).run {}
      (List.replicate 80 (.worker 0 none) ++
        [.take 2 .timedOut 5 10, .simulation 0 none, .take 3 .stateError 5 11, .simulation 1 none])

/-- The statuses that were recorded, each with the members of its task, and the statuses that are
left. -/
theorem bundledSwaps_recorded :
    bundledSwaps.recorded.map (fun pair => (pair.1.request.memberTxHashes, pair.2.status)) =
        [([10, 12, 11], "timeout"), ([10, 12], "state_error")] ∧
      bundledSwaps.recorded.map (stamp ·.1.request) = [(0, 3), (0, 3)] ∧
      bundledSwaps.statuses.byId.toList.map (·.2.status) = ["state_error"] := by
  decide +kernel

/-- The two tasks of one step and transaction have one id, and the status of the second overwrites
that of the first. -/
theorem bundledSwaps_not_idsIdentify :
    bundledSwaps.recorded.map (fun pair => (pair.1.request.memberTxHashes, pair.2.status)) =
        [([10, 12, 11], "timeout"), ([10, 12], "state_error")] ∧
      bundledSwaps.statuses.byId.toList.map (·.2.status) = ["state_error"] ∧
      ¬ bundledSwaps.IdsIdentify := by
  obtain ⟨recorded, stamps, left⟩ := bundledSwaps_recorded
  refine ⟨recorded, left, fun identify => ?_⟩
  have sound : bundledSwaps.Sound := (LiveSystem.Sound.start _ _ _).run _
  obtain ⟨first, later, shape, head, rest⟩ := List.map_eq_cons_iff.mp recorded
  obtain ⟨second, none, rfl, tail, -⟩ := List.map_eq_cons_iff.mp rest
  have listed : ∀ pair ∈ bundledSwaps.recorded, pair.1 ∈ bundledSwaps.live.simulationQueue :=
    fun pair member => (sound.recorded pair member).1
  rw [shape] at listed stamps
  obtain ⟨here, others⟩ := List.cons.inj stamps
  have keys := identify.simIds first.1 (listed first (by simp)) second.1 (listed second (by simp))
    (simIdForRequest_eq_iff.mpr (here.trans (List.cons.inj others).1.symm))
  have members := (simulationTaskKey_eq_iff.mp keys).2.length_eq
  rw [(Prod.mk.inj head).1, (Prod.mk.inj tail).1] at members
  cases members

end Mempulse.LiveRpc
