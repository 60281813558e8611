import Mempulse.Library.Tasks
import Mempulse.Library.TreeMaps
import Mempulse.LiveRpc.ChainConfig
import Mempulse.Rehydration.Plan

/-!
# Chain workers and their statuses

Every chain has a worker, which connects to one endpoint of the chain after the other and reports
what it does in a status that all workers keep in one map. Each report reads the status before it
and writes it back in two steps, so what the other workers write comes in between.

In every interleaving of workers for different chains no worker ever leaves its endpoints, and the
status of a chain always shows the endpoint that the number of its rotations leads to, that endpoint's
URLs, and an error exactly in the states that have one (`run_chainStatus`).
-/

set_option autoImplicit false

namespace Mempulse.LiveRpc.Feed

open Std Library Storage

/-! ## Statuses -/

/-- What the status endpoint shows of a chain. -/
structure LiveRpcChainStatus where
  chainKey : String
  chainId : Option UInt64
  sourceId : String
  state : String
  endpointIndex : Nat
  endpointCount : Nat
  wsUrl : String
  httpUrl : String
  lastPendingUnixMs : Option Int64
  silentForMs : Option UInt64
  updatedUnixMs : Int64
  lastError : Option String
  rotationCount : Nat
  deriving DecidableEq

/-- What a worker reports of its chain. -/
structure ChainStatusUpdate where
  endpoint : RpcEndpoint
  endpointIndex : Nat
  state : String
  lastError : Option String := none
  observedPending : Bool := false
  incrementRotation : Bool := false
  deriving DecidableEq

/-- The statuses by chain key. -/
abbrev ChainStatuses := ExtTreeMap String LiveRpcChainStatus

/-- Chain health snapshots with `silent_for_ms` populated relative to now. -/
def chainStatus (statuses : ChainStatuses) (nowUnixMs : Int64) : List LiveRpcChainStatus :=
  statuses.toList.map fun entry =>
    { entry.2 with
      silentForMs := entry.2.lastPendingUnixMs.bind fun lastSeen =>
        let elapsedMs := saturatingSub nowUnixMs lastSeen
        if elapsedMs < 0 then none else some elapsedMs.toUInt64 }

/-- The status an update makes of the one before. -/
def updatedStatus (chain : ChainRpcConfig) (update : ChainStatusUpdate) (nowUnixMs : Int64)
    (existing : Option LiveRpcChainStatus) : LiveRpcChainStatus where
  chainKey := chain.chainKey
  chainId := chain.chainId
  sourceId := chain.sourceId
  state := update.state
  endpointIndex := update.endpointIndex
  endpointCount := chain.endpoints.length
  wsUrl := update.endpoint.wsUrl
  httpUrl := update.endpoint.httpUrl
  lastPendingUnixMs :=
    if update.observedPending ∨ update.state = "subscribed" then some nowUnixMs
    else existing.bind LiveRpcChainStatus.lastPendingUnixMs
  silentForMs := none
  updatedUnixMs := nowUnixMs
  lastError := update.lastError
  rotationCount := saturatingAdd u64Max ((existing.map LiveRpcChainStatus.rotationCount).getD 0)
    update.incrementRotation.toNat

/-! ## Endpoints -/

/-- Rotates to the next endpoint index, wrapping around when needed. -/
def rotateEndpointIndex (current endpointCount : Nat) : Nat :=
  if endpointCount ≤ 1 then 0 else (current + 1) % endpointCount

/-- Whether a chain has gone silent for too long. -/
def shouldRotateSilentChain (lastPendingUnixMs nowUnixMs : Int64) (timeoutSeconds : Nat) : Bool :=
  if timeoutSeconds = 0 then false
  else
    saturatingMul u64Max timeoutSeconds 1000 ≤ (saturatingSub nowUnixMs lastPendingUnixMs).toInt.toNat

/-- `text.contains(part)`. -/
def containsText (part text : String) : Bool :=
  text.toList.tails.any fun tail => part.toList.isPrefixOf tail

/-! ## Workers -/

/-- What a worker does next. -/
inductive WorkerPoint where
  | start
  | loopTop (endpointIndex : Nat)
  | connecting (endpointIndex : Nat)
  | subscribed (endpointIndex : Nat)
  | waiting (endpointIndex : Nat) (lastPendingUnixMs : Int64)
  | flushing (endpointIndex : Nat) (lastPendingUnixMs : Int64)
  | checking (endpointIndex : Nat) (lastPendingUnixMs : Int64)
  | closing (endpointIndex : Nat)
  | failed (endpointIndex : Nat) (error : String)
  | rotating (endpointIndex : Nat) (error : String)
  | sleeping (endpointIndex : Nat)
  | stopped
  | panicked
  deriving DecidableEq

/-- Where a worker is: at a point, or on its way there with an update to observe or a status to
store. -/
inductive WorkerStage where
  | arrived (point : WorkerPoint)
  | observing (update : ChainStatusUpdate) (point : WorkerPoint)
  | storing (status : LiveRpcChainStatus) (point : WorkerPoint)
  deriving DecidableEq

/-- The worker of a chain. The rotations it has begun and those whose status is stored are
bookkeeping that no step reads. -/
structure ChainWorker where
  chain : ChainRpcConfig
  stage : WorkerStage := .arrived .start
  rotations : Nat := 0
  recorded : Nat := 0
  deriving DecidableEq

/-- What a session waits for. -/
inductive WsFrame where
  | pendingHash (observedAtUnixMs : Int64)
  | other
  | timedOut
  | closed
  | failed (error : String)
  deriving DecidableEq

/-- What moves a worker: its own code, the time the clock shows, or what it waited for. -/
inductive WorkerEvent where
  | advance
  | clock (nowUnixMs : Int64)
  | connected (outcome : Except String Unit)
  | frame (frame : WsFrame)
  | flushed (outcome : Except String Unit)

/-- An update about the endpoint at an index, which the worker panics to look up outside. -/
def observeAt (chain : ChainRpcConfig) (endpointIndex : Nat) (state : String)
    (lastError : Option String) (incrementRotation observedPending : Bool) (point : WorkerPoint) :
    WorkerStage :=
  match chain.endpoints[endpointIndex]? with
  | none => .arrived .panicked
  | some endpoint =>
    .observing
      { endpoint := endpoint, endpointIndex := endpointIndex, state := state, lastError := lastError
        observedPending := observedPending, incrementRotation := incrementRotation } point

/-- Where a worker goes from a point. -/
def pointStep (chain : ChainRpcConfig) (silentChainTimeoutSecs : Nat) :
    WorkerPoint → WorkerEvent → Option WorkerStage
  | .start, .advance =>
    if chain.endpoints.isEmpty then some (.arrived .stopped)
    else some (observeAt chain 0 "booting" none false false (.loopTop 0))
  | .loopTop index, .advance =>
    some (observeAt chain index "connecting" none false false (.connecting index))
  | .connecting index, .connected (.error error) => some (.arrived (.failed index error))
  | .connecting index, .connected (.ok ()) =>
    some (observeAt chain index "subscribed" none false false (.subscribed index))
  | .subscribed index, .clock nowUnixMs => some (.arrived (.waiting index nowUnixMs))
  | .waiting index _, .frame (.pendingHash observedAtUnixMs) =>
    some (observeAt chain index "active" none false true (.flushing index observedAtUnixMs))
  | .waiting index lastPendingUnixMs, .frame .other =>
    some (.arrived (.flushing index lastPendingUnixMs))
  | .waiting index lastPendingUnixMs, .frame .timedOut =>
    some (.arrived (.flushing index lastPendingUnixMs))
  | .waiting index _, .frame .closed => some (.arrived (.closing index))
  | .waiting index _, .frame (.failed error) => some (.arrived (.failed index error))
  | .flushing index _, .flushed (.error error) => some (.arrived (.failed index error))
  | .flushing index lastPendingUnixMs, .flushed (.ok ()) =>
    some (.arrived (.checking index lastPendingUnixMs))
  | .checking index lastPendingUnixMs, .clock nowUnixMs =>
    if shouldRotateSilentChain lastPendingUnixMs nowUnixMs silentChainTimeoutSecs then
      some (.arrived (.failed index ("silent_chain_timeout: no pending notifications for " ++
        toString silentChainTimeoutSecs ++ "s")))
    else some (.arrived (.waiting index lastPendingUnixMs))
  | .closing index, .flushed (.error error) => some (.arrived (.failed index error))
  | .closing index, .flushed (.ok ()) =>
    some (observeAt chain index "disconnected" none false false (.sleeping index))
  | .failed index error, .advance =>
    let state := if containsText "silent_chain_timeout" error then "silent_timeout" else "error"
    some (observeAt chain index state (some error) false false (.rotating index error))
  | .rotating index error, .advance =>
    let next := rotateEndpointIndex index chain.endpoints.length
    some (observeAt chain next "rotating" (some error) true false (.sleeping next))
  | .sleeping index, .advance => some (.arrived (.loopTop index))
  | _, _ => none

/-- Whether a stage began a rotation. -/
def WorkerStage.beginsRotation : WorkerStage → Bool
  | .observing update _ => update.incrementRotation
  | _ => false

/-- One step of a worker. -/
def workerStep (silentChainTimeoutSecs : Nat) (statuses : ChainStatuses) (worker : ChainWorker)
    (event : WorkerEvent) : Option (ChainStatuses × ChainWorker) :=
  match worker.stage, event with
  | .arrived point, event =>
    (pointStep worker.chain silentChainTimeoutSecs point event).map fun stage =>
      (statuses,
        { worker with stage := stage, rotations := worker.rotations + stage.beginsRotation.toNat })
  | .observing update point, .clock nowUnixMs =>
    let existing := (chainStatus statuses nowUnixMs).find? fun status : LiveRpcChainStatus =>
      status.chainKey = worker.chain.chainKey
    some (statuses,
      { worker with stage := .storing (updatedStatus worker.chain update nowUnixMs existing) point })
  | .storing status point, .advance =>
    some (statuses.insert status.chainKey status,
      { worker with stage := .arrived point, recorded := worker.rotations })
  | _, _ => none

/-- The workers of the chains of a configuration, before they start. -/
def startLiveRpcFeed (chains : List ChainRpcConfig) : Team ChainStatuses ChainWorker where
  shared := ∅
  tasks := chains.map fun chain => { chain := chain }

/-- The steps of the workers, in any order. -/
def FeedTakes (silentChainTimeoutSecs : Nat) : Team ChainStatuses ChainWorker →
    TeamTurn Empty WorkerEvent → Team ChainStatuses ChainWorker → Prop :=
  Team.Takes nofun (workerStep silentChainTimeoutSecs)

/-! ## What a status shows -/

/-- A status shows where a number of rotations leads: the endpoint, its URLs, and an error exactly in
the states that have one. -/
structure Shows (chain : ChainRpcConfig) (rotations : Nat) (status : LiveRpcChainStatus) : Prop where
  key : status.chainKey = chain.chainKey
  count : status.endpointCount = chain.endpoints.length
  rotated : status.rotationCount = min rotations u64Max
  index : status.endpointIndex = rotations % chain.endpoints.length
  endpoint : chain.endpoints[status.endpointIndex]? =
    some { wsUrl := status.wsUrl, httpUrl := status.httpUrl }
  error : status.lastError.isSome = true ↔ status.state ∈ ["error", "silent_timeout", "rotating"]

/-- The same of an update. -/
structure ChainStatusUpdate.Shows (chain : ChainRpcConfig) (rotations : Nat)
    (update : ChainStatusUpdate) : Prop where
  index : update.endpointIndex = rotations % chain.endpoints.length
  endpoint : chain.endpoints[update.endpointIndex]? = some update.endpoint
  error : update.lastError.isSome = true ↔ update.state ∈ ["error", "silent_timeout", "rotating"]

/-- A point that is reached after a number of rotations. -/
def WorkerPoint.Stands (chain : ChainRpcConfig) (rotations : Nat) : WorkerPoint → Prop
  | .start => rotations = 0
  | .stopped => True
  | .panicked => False
  | .loopTop index | .connecting index | .subscribed index | .waiting index _ | .flushing index _
  | .checking index _ | .closing index | .failed index _ | .rotating index _ | .sleeping index =>
    chain.endpoints ≠ [] ∧ index = rotations % chain.endpoints.length

/-- A stage that is reached after a number of rotations, of which some are recorded. -/
def WorkerStage.Stands (chain : ChainRpcConfig) (rotations recorded : Nat) : WorkerStage → Prop
  | .arrived point => rotations = recorded ∧ point.Stands chain rotations
  | .observing update point =>
    rotations = recorded + update.incrementRotation.toNat ∧ update.Shows chain rotations ∧
      point.Stands chain rotations
  | .storing status point => Shows chain rotations status ∧ point.Stands chain rotations

/-- What a worker keeps: the status of its chain shows the recorded rotations. -/
structure ChainWorker.Keeps (statuses : ChainStatuses) (worker : ChainWorker) : Prop where
  stored : ∀ status, statuses[worker.chain.chainKey]? = some status →
    Shows worker.chain worker.recorded status
  unstored : statuses[worker.chain.chainKey]? = none → worker.recorded = 0
  stage : worker.stage.Stands worker.chain worker.rotations worker.recorded

/-- Every status is stored under its key. -/
def WellKeyed (statuses : ChainStatuses) : Prop :=
  ∀ (key : String) (status : LiveRpcChainStatus), statuses[key]? = some status →
    status.chainKey = key

theorem rotateEndpointIndex_mod {count : Nat} (some : count ≠ 0) (rotations : Nat) :
    rotateEndpointIndex (rotations % count) count = (rotations + 1) % count := by
  unfold rotateEndpointIndex
  split
  case isTrue few =>
    obtain rfl : count = 1 := by omega
    exact (Nat.mod_one _).symm
  case isFalse => rw [Nat.mod_add_mod]

/-- An update about the endpoint that the rotations lead to. -/
theorem stands_observeAt {chain : ChainRpcConfig} {index recorded : Nat} {state : String}
    {lastError : Option String} {incrementRotation observedPending : Bool} {point : WorkerPoint}
    (reachable : chain.endpoints ≠ [])
    (led : index = (recorded + incrementRotation.toNat) % chain.endpoints.length)
    (error : lastError.isSome = true ↔ state ∈ ["error", "silent_timeout", "rotating"])
    (stands : point.Stands chain (recorded + incrementRotation.toNat)) :
    let stage := observeAt chain index state lastError incrementRotation observedPending point
    stage.Stands chain (recorded + stage.beginsRotation.toNat) recorded := by
  have within : index < chain.endpoints.length := by
    rw [led]
    exact Nat.mod_lt _ (List.length_pos_iff.mpr reachable)
  have found := List.getElem?_eq_getElem within
  dsimp only [observeAt]
  rw [found]
  exact ⟨rfl, ⟨led, found, error⟩, stands⟩

/-- **A point leads to a stage that stands.** -/
theorem stands_pointStep {chain : ChainRpcConfig} {silentChainTimeoutSecs rotations : Nat}
    {point : WorkerPoint} {event : WorkerEvent} {stage : WorkerStage}
    (stands : point.Stands chain rotations)
    (stepped : pointStep chain silentChainTimeoutSecs point event = some stage) :
    stage.Stands chain (rotations + stage.beginsRotation.toNat) rotations := by
  unfold pointStep at stepped
  split at stepped
  -- The worker starts at the first endpoint.
  case h_1 =>
    split at stepped
    case isTrue =>
      cases stepped
      exact ⟨rfl, trivial⟩
    case isFalse filled =>
      cases stepped
      obtain rfl : rotations = 0 := stands
      have reachable : chain.endpoints ≠ [] := by simpa using filled
      exact stands_observeAt reachable (Nat.zero_mod _).symm (by simp)
        ⟨reachable, (Nat.zero_mod _).symm⟩
  -- It reports about the endpoint it is at.
  case h_2 | h_4 | h_6 | h_15 =>
    cases stepped
    exact stands_observeAt stands.1 stands.2 (by simp) stands
  case h_16 =>
    cases stepped
    refine stands_observeAt stands.1 stands.2 ?_ stands
    split <;> simp
  -- It turns to the next endpoint.
  case h_17 =>
    cases stepped
    have led := rotateEndpointIndex_mod (List.length_pos_iff.mpr stands.1).ne' rotations
    rw [← stands.2] at led
    exact stands_observeAt stands.1 led (by simp) ⟨stands.1, led⟩
  case h_13 =>
    split at stepped <;> cases stepped <;> exact ⟨rfl, stands⟩
  case h_19 => cases stepped
  -- It goes on at the same endpoint.
  all_goals
    cases stepped
    exact ⟨rfl, stands⟩

/-- Looking a status up by its key finds the one that is stored under it. -/
theorem find?_chainStatus {statuses : ChainStatuses} (keyed : WellKeyed statuses)
    (nowUnixMs : Int64) (chainKey : String) :
    ((chainStatus statuses nowUnixMs).find? fun status : LiveRpcChainStatus =>
      status.chainKey = chainKey).map LiveRpcChainStatus.rotationCount =
        statuses[chainKey]?.map LiveRpcChainStatus.rotationCount := by
  cases found : (chainStatus statuses nowUnixMs).find? fun status : LiveRpcChainStatus =>
      status.chainKey = chainKey with
  | none =>
      cases stored : statuses[chainKey]? with
      | none => rfl
      | some status =>
          have listed : (chainKey, status) ∈ statuses.toList := mem_toList.mpr stored
          have missing := List.find?_eq_none.mp found _ (List.mem_map_of_mem listed)
          exact absurd (keyed chainKey status stored) (by simpa using missing)
  | some shown =>
      obtain ⟨⟨key, status⟩, listed, rfl⟩ := List.mem_map.mp (List.mem_of_find?_eq_some found)
      have stored := mem_toList.mp listed
      have same : key = chainKey :=
        (keyed key status stored).symm.trans (by simpa using List.find?_some found)
      rw [← same, stored]
      rfl

/-- **An update made into a status shows what the update shows.** -/
theorem shows_updatedStatus {chain : ChainRpcConfig} {update : ChainStatusUpdate}
    {recorded : Nat} {existing : Option LiveRpcChainStatus} (nowUnixMs : Int64)
    (counted : (existing.map LiveRpcChainStatus.rotationCount).getD 0 = min recorded u64Max)
    (shows : update.Shows chain (recorded + update.incrementRotation.toNat)) :
    Shows chain (recorded + update.incrementRotation.toNat)
      (updatedStatus chain update nowUnixMs existing) := by
  refine ⟨rfl, rfl, ?_, shows.index, shows.endpoint, shows.error⟩
  have exactly : (updatedStatus chain update nowUnixMs existing).rotationCount =
      min (min recorded u64Max + update.incrementRotation.toNat) u64Max := by
    rw [← counted]
    rfl
  rw [exactly]
  generalize update.incrementRotation.toNat = more
  generalize u64Max = bound
  omega

/-- **A step keeps what the worker of the chain keeps, and touches no other chain's status.** -/
theorem workerStep_keeps {silentChainTimeoutSecs : Nat} {statuses : ChainStatuses}
    {worker : ChainWorker} {event : WorkerEvent} {after : ChainStatuses × ChainWorker}
    (keyed : WellKeyed statuses) (keeps : worker.Keeps statuses)
    (stepped : workerStep silentChainTimeoutSecs statuses worker event = some after) :
    WellKeyed after.1 ∧ after.2.chain = worker.chain ∧ after.2.Keeps after.1 ∧
      ∀ other, other ≠ worker.chain.chainKey → after.1[other]? = statuses[other]? := by
  obtain ⟨stored, unstored, stands⟩ := keeps
  unfold workerStep at stepped
  split at stepped
  case h_1 point event staged =>
    rw [staged] at stands
    obtain ⟨stage, moved, rfl⟩ := Option.map_eq_some_iff.mp stepped
    refine ⟨keyed, rfl, ⟨stored, unstored, ?_⟩, fun _ _ => rfl⟩
    have onward := stands_pointStep stands.2 moved
    rwa [stands.1] at onward ⊢
  case h_2 update point nowUnixMs staged =>
    rw [staged] at stands
    cases stepped
    obtain ⟨rotations, shows, onward⟩ := stands
    refine ⟨keyed, rfl, ⟨stored, unstored, ?_, onward⟩, fun _ _ => rfl⟩
    dsimp only
    rw [rotations] at shows ⊢
    refine shows_updatedStatus nowUnixMs ?_ shows
    rw [find?_chainStatus keyed]
    cases held : statuses[worker.chain.chainKey]? with
    | none => rw [unstored held]; rfl
    | some status => exact (stored status held).rotated
  case h_3 status point staged =>
    rw [staged] at stands
    cases stepped
    obtain ⟨shows, onward⟩ := stands
    have key := shows.key
    refine ⟨fun other held found => ?_, rfl, ⟨fun held found => ?_, fun absent => ?_, rfl, onward⟩,
      fun other differs => ?_⟩
    · rw [getElem?_insert_eq] at found
      split at found
      case isTrue same =>
        cases found
        exact same
      case isFalse => exact keyed other held found
    · dsimp only at found ⊢
      rw [getElem?_insert_eq, if_pos key] at found
      cases found
      exact shows
    · dsimp only at absent
      rw [getElem?_insert_eq, if_pos key] at absent
      cases absent
    · dsimp only
      rw [getElem?_insert_eq, if_neg fun same => differs (same.symm.trans key)]
  case h_4 => cases stepped

section Laws

variable {silentChainTimeoutSecs : Nat} {chains : List ChainRpcConfig}
  {crew : Team ChainStatuses ChainWorker} {history : List (TeamTurn Empty WorkerEvent)}

/-- **The status of a chain shows its rotations.** In every interleaving of the workers of chains with
different keys, no worker panics, and the status of a chain shows the endpoint that the recorded
rotations lead to, its URLs, the number of rotations, and an error exactly in the states that have
one. -/
theorem run_chainStatus (apart : (chains.map ChainRpcConfig.chainKey).Nodup)
    (run : Run (FeedTakes silentChainTimeoutSecs) (startLiveRpcFeed chains) history crew) :
    ∀ worker ∈ crew.tasks, worker.stage ≠ .arrived .panicked ∧
      ∀ status, crew.shared[worker.chain.chainKey]? = some status →
        Shows worker.chain worker.recorded status := by
  have keys : ((startLiveRpcFeed chains).tasks.map fun worker => worker.chain.chainKey) =
      chains.map ChainRpcConfig.chainKey := by
    rw [startLiveRpcFeed, List.map_map]
    rfl
  have empty : ∀ key : String, (startLiveRpcFeed chains).shared[key]? = none := fun _ =>
    ExtTreeMap.getElem?_empty
  have each : ∀ worker ∈ (startLiveRpcFeed chains).tasks,
      worker.Keeps (startLiveRpcFeed chains).shared := by
    intro worker member
    obtain ⟨chain, -, rfl⟩ := List.mem_map.mp member
    exact ⟨fun status found => (by rw [empty] at found; cases found), fun _ => rfl, rfl, rfl⟩
  obtain ⟨-, -, kept⟩ := Team.keyed_invariant (fun worker : ChainWorker => worker.chain.chainKey)
    WellKeyed (fun statuses worker => worker.Keeps statuses) run (keys ▸ apart)
    (fun key status found => by rw [empty] at found; cases found) each
    fun keyed keeps stepped => by
      obtain ⟨stillKeyed, sameChain, own, others⟩ := workerStep_keeps keyed keeps stepped
      refine ⟨stillKeyed, congrArg _ sameChain, own, fun other differs held => ?_⟩
      obtain ⟨stored, unstored, stage⟩ := held
      have untouched := others _ differs
      exact ⟨untouched ▸ stored, untouched ▸ unstored, stage⟩
  intro worker member
  obtain ⟨stored, -, stands⟩ := kept worker member
  refine ⟨fun panicked => ?_, stored⟩
  rw [panicked] at stands
  exact stands.2

end Laws

/-- Two chains; the connection of the first one fails while the second one connects. -/
def failedConnection : List (TeamTurn Empty WorkerEvent) :=
  [.act 0 .advance, .act 0 (.clock 10), .act 1 .advance, .act 0 .advance, .act 1 (.clock 11),
    .act 0 .advance, .act 0 (.clock 12), .act 1 .advance, .act 0 .advance,
    .act 0 (.connected (.error "connect wss://eth.drpc.org")), .act 0 .advance, .act 0 (.clock 13),
    .act 0 .advance, .act 0 .advance, .act 0 (.clock 14), .act 0 .advance]

/-- A mainnet with two endpoints beside a chain with one. -/
def twoChains : List ChainRpcConfig :=
  defaultChains ++
    [{ chainKey := "base", chainId := some 8453
       endpoints := [{ wsUrl := "wss://base.example", httpUrl := "https://base.example" }]
       sourceId := "rpc-base" }]

/-- The crew after the turns of `failedConnection`. -/
def failedConnectionCrew : Team ChainStatuses ChainWorker :=
  (failedConnection.foldlM (Team.next nofun (workerStep 20)) (startLiveRpcFeed twoChains)).getD
    (startLiveRpcFeed [])

theorem run_failedConnection :
    Run (FeedTakes 20) (startLiveRpcFeed twoChains) failedConnection failedConnectionCrew := by
  have possible : (failedConnection.foldlM (Team.next nofun (workerStep 20))
      (startLiveRpcFeed twoChains)).isSome = true := by decide +kernel
  obtain ⟨crew, taken⟩ := Option.isSome_iff_exists.mp possible
  refine Run.of_foldlM ?_
  rw [failedConnectionCrew, taken, Option.getD_some]

/-- The status of the first chain shows its second endpoint after one rotation. -/
theorem failedConnection_shows : ∃ worker status,
    failedConnectionCrew.tasks[0]? = some worker ∧ worker.recorded = 1 ∧
      failedConnectionCrew.shared[worker.chain.chainKey]? = some status ∧
      Shows worker.chain 1 status := by
  have computed : (match failedConnectionCrew.tasks[0]? with
    | none => false
    | some worker => decide (worker.recorded = 1) &&
      failedConnectionCrew.shared[worker.chain.chainKey]?.isSome) = true := by decide +kernel
  have keys : (twoChains.map ChainRpcConfig.chainKey).Nodup := by decide
  split at computed
  case h_1 => cases computed
  case h_2 worker first =>
    obtain ⟨once, held⟩ := Bool.and_eq_true_iff.mp computed
    obtain ⟨status, stored⟩ := Option.isSome_iff_exists.mp held
    have shows := (run_chainStatus keys run_failedConnection worker
      (List.mem_of_getElem? first)).2 status stored
    rw [of_decide_eq_true once] at shows
    exact ⟨worker, status, first, of_decide_eq_true once, stored, shows⟩

end Mempulse.LiveRpc.Feed
