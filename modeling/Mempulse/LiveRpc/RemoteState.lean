import Mempulse.Library.Tasks
import Mempulse.LiveRpc.BatchFetch
import Mempulse.LiveRpc.SimulationMetrics
import Mempulse.Rehydration.Plan
import Mempulse.SimEngine.Batch

/-!
# Remote state

A simulation reads its block from the node and then an account for every sender, one after the
other. All simulations share a cache of accounts: an entry serves any of them for the same node and
block number while it is young enough, and otherwise the account is fetched and cached again. A
simulation may fail, time out at any wait, or panic on a header it cannot cut.

In every interleaving, a simulation that returned a batch ran on the block of the header that its node
sent it, from a database seeded with one account for every sender and nothing else, each fetched from
its node for its block number, by itself or so recently that the entry was still young by the clock it
had read (`run_remoteSimulations`). Each account that was fetched has the balance and the nonce that a
node sent (`run_fetchedAccounts`).
-/

set_option autoImplicit false

namespace Mempulse.LiveRpc

open Std EventLog Library Scheduler Storage
open SimEngine (AccountSeed SimulationMode SimulationTxInput Revm Hashing simulateWithMode)

/-! ## Responses -/

/-- The fields of a block header that are read, as the node spells them. -/
structure RpcHeader where
  number : String
  timestamp : String
  gasLimit : String
  baseFeePerGas : Option String := none
  miner : Option String := none
  stateRoot : Option String := none
  deriving DecidableEq

/-- The answer to a request for a header. -/
structure RpcHeaderResponseEnvelope where
  error : Option RpcFetchErrorEnvelope := none
  result : Option RpcHeader := none
  deriving DecidableEq

/-- The answer to a request for one number. -/
structure RpcScalarResponseEnvelope where
  error : Option RpcFetchErrorEnvelope := none
  result : Option String := none
  deriving DecidableEq

/-- The value of a response, which the transport may have failed to bring. -/
def fetchRpcScalar : Except String RpcScalarResponseEnvelope → Except String String
  | .error failure => .error failure
  | .ok envelope =>
    match envelope.error, envelope.result with
    | some error, _ =>
      .error ("rpc scalar fetch failed: " ++ error.message.getD "unknown rpc error")
    | none, none => .error "rpc scalar response missing result"
    | none, some raw => .ok raw

/-- A value with a parser that may refuse it. -/
def parseScalar {α : Type} (parse : List Char → Option α) (refusal : String)
    (response : Except String RpcScalarResponseEnvelope) : Except String α :=
  (fetchRpcScalar response).bind fun raw =>
    match parse raw.toList with
    | none => .error refusal
    | some value => .ok value

/-- The block a simulation runs on, from the latest header. -/
def fetchRemoteChainContext (chainId : Option UInt64) (request : RemoteSimulationRequest) :
    Except String RpcHeaderResponseEnvelope → Outcome (Except String SimEngine.ChainContext)
  | .error failure => .returned (.error failure)
  | .ok envelope =>
    match envelope.error, envelope.result with
    | some error, _ =>
      .returned (.error ("rpc header fetch failed: " ++ error.message.getD "unknown rpc error"))
    | none, none => .returned (.error "rpc header response missing result")
    | none, some header =>
      match parseHexU64 header.number.toList, parseHexU64 header.timestamp.toList,
        parseHexU64 header.gasLimit.toList with
      | none, _, _ => .returned (.error "invalid block number")
      | some _, none, _ => .returned (.error "invalid block timestamp")
      | some _, some _, none => .returned (.error "invalid block gas limit")
      | some blockNumber, some blockTimestamp, some gasLimit => do
        let coinbase ← parseField (Slicing.parseFixedHex 20) header.miner
        let stateRoot ← parseField (Slicing.parseFixedHex 32) header.stateRoot
        return .ok
          { chainId := ((request.txs.head?.bind fun tx => tx.decoded.chainId).or chainId).getD 1
            blockNumber := blockNumber
            blockTimestamp := blockTimestamp
            gasLimit := gasLimit
            baseFeeWei := (header.baseFeePerGas.bind fun fee => parseHexU128 fee.toList).getD 0
            coinbase := (coinbase.map addressOfBytes).getD 0
            stateRoot := (stateRoot.map hashOfBytes).getD 0 }

/-! ## The cache -/

/-- A fetched account with its block and the moment it was cached. -/
structure CachedAccountSeed where
  seed : AccountSeed
  blockNumber : UInt64
  cachedAtUnixMs : Int64
  deriving DecidableEq

/-- An account that was fetched: from which node, for a simulation of which block, and when that
simulation had read the clock. -/
structure FetchedAccount where
  httpUrl : String
  address : Address
  blockNumber : UInt64
  nowUnixMs : Int64
  seed : AccountSeed
  deriving DecidableEq

/-- What simulations share: the cache and the counters. The fetched accounts are bookkeeping that no
step reads. -/
structure RemoteStateCache where
  accountSeeds : String × Address → Option CachedAccountSeed := fun _ => none
  metrics : LiveRpcSimulationMetricsSnapshot := {}
  fetchedAccounts : List FetchedAccount := []

namespace RemoteStateCache

/-- Returns a cached account seed if it matches the requested block and TTL window. -/
def cachedAccountSeed (cache : RemoteStateCache) (httpUrl : String) (address : Address)
    (blockNumber : UInt64) (nowUnixMs ttlMs : Int64) : Option AccountSeed :=
  (cache.accountSeeds (httpUrl, address)).bind fun entry =>
    if entry.blockNumber ≠ blockNumber then none
    else if ttlMs < saturatingSub nowUnixMs entry.cachedAtUnixMs then none
    else some entry.seed

/-- Stores an account seed for later simulation reuse. -/
def cacheAccountSeed (cache : RemoteStateCache) (httpUrl : String) (address : Address)
    (blockNumber : UInt64) (cachedAtUnixMs : Int64) (seed : AccountSeed) : RemoteStateCache :=
  { cache with
    accountSeeds := Function.update cache.accountSeeds (httpUrl, address)
      (some { seed := seed, blockNumber := blockNumber, cachedAtUnixMs := cachedAtUnixMs }) }

/-- Counts a seed that came from the cache. -/
def observeSimulationCacheHit (cache : RemoteStateCache) : RemoteStateCache :=
  { cache with
    metrics := { cache.metrics with cacheHitTotal := saturatingAdd u64Max cache.metrics.cacheHitTotal 1 } }

/-- Counts a seed that had to be fetched. -/
def observeSimulationCacheMiss (cache : RemoteStateCache) : RemoteStateCache :=
  { cache with
    metrics :=
      { cache.metrics with cacheMissTotal := saturatingAdd u64Max cache.metrics.cacheMissTotal 1 } }

end RemoteStateCache

/-! ## A simulation -/

/-- The senders of some transactions, in increasing order. -/
def uniqueSenders (txs : List ValidatedTransaction) : List Address :=
  (txs.foldl (fun senders tx => senders.insert tx.decoded.sender)
    (∅ : ExtTreeSet Address)).toList

/-- What a call simulates, and on which chain. -/
structure RemoteCall where
  primaryHttpUrl : Option String
  chainId : Option UInt64
  request : RemoteSimulationRequest
  deriving DecidableEq

/-- What is fixed when the accounts are read. -/
structure SeedContext where
  httpUrl : String
  chainContext : SimEngine.ChainContext
  nowUnixMs : Int64
  deriving DecidableEq

/-- An account that a simulation fetched. -/
def SeedContext.fetchedAccount (context : SeedContext) (address : Address) (seed : AccountSeed) :
    FetchedAccount where
  httpUrl := context.httpUrl
  address := address
  blockNumber := context.chainContext.blockNumber
  nowUnixMs := context.nowUnixMs
  seed := seed

/-- How far the account of a sender has come. -/
inductive SeedPhase where
  | lookingUp
  | hit (seed : AccountSeed)
  | missed
  | awaitingBalance
  | awaitingNonce (balanceWei : U128)
  | fetched (seed : AccountSeed)
  deriving DecidableEq

/-- How far a simulation has come. -/
inductive RemoteStage where
  | starting
  | awaitingHeader (httpUrl : String)
  | seeding (context : SeedContext) (seeds : ExtTreeMap Address AccountSeed) (sender : Address)
      (rest : List Address) (phase : SeedPhase)
  | returned (simulated : Except String SimEngine.SimulationBatchResult)
  | timedOut
  | panicked

/-- The batch a simulation returned. -/
def RemoteStage.batch? : RemoteStage → Option SimEngine.SimulationBatchResult
  | .returned simulated => simulated.toOption
  | _ => none

theorem RemoteStage.eq_of_batch? {stage : RemoteStage} {batch : SimEngine.SimulationBatchResult}
    (answered : stage.batch? = some batch) : stage = .returned (.ok batch) := by
  cases stage with
  | returned simulated =>
      cases simulated with
      | ok other =>
          cases answered
          rfl
      | error error => cases answered
  | starting | awaitingHeader | seeding | timedOut | panicked => cases answered

/-- One simulation under way: what it was called with and how far it is. -/
structure RemoteSimulation where
  call : RemoteCall
  stage : RemoteStage := .starting

/-- What moves a simulation: its own code, an answer of the node with the time the clock shows then,
or the end of its time. -/
inductive RemoteEvent where
  | advance
  | header (response : Except String RpcHeaderResponseEnvelope) (nowUnixMs : Int64)
  | scalar (response : Except String RpcScalarResponseEnvelope)
  | timeout

section Steps

variable {Db : Type} (revm : Revm Db) (hashing : Hashing) (ttlMs : UInt64)

/-- What the engine is given of the transactions of a request. -/
def simulationInputs (txs : List ValidatedTransaction) : List SimulationTxInput :=
  txs.map fun tx => { decoded := tx.decoded, calldata := some tx.calldata }

/-- `CachedStateProviderView`: it knows what was read, and never fails. -/
def cachedStateProviderView (accountSeeds : ExtTreeMap Address AccountSeed) : SimulationMode String :=
  .rpcBacked fun address => .ok accountSeeds[address]?

/-- With the accounts at hand: the next sender, or the simulation when none is left. -/
def nextSender (request : RemoteSimulationRequest) (context : SeedContext)
    (seeds : ExtTreeMap Address AccountSeed) : List Address → RemoteStage
  | [] => .returned (simulateWithMode revm hashing context.chainContext
      (simulationInputs request.txs) (cachedStateProviderView seeds))
  | sender :: rest => .seeding context seeds sender rest .lookingUp

/-- One step of the loop over the senders. -/
def seedStep (cache : RemoteStateCache) (request : RemoteSimulationRequest) (context : SeedContext)
    (seeds : ExtTreeMap Address AccountSeed) (sender : Address) (rest : List Address) :
    SeedPhase → RemoteEvent → Option (RemoteStateCache × RemoteStage)
  | .lookingUp, .advance =>
    match cache.cachedAccountSeed context.httpUrl sender context.chainContext.blockNumber
      context.nowUnixMs ttlMs.toInt64 with
    | some seed => some (cache, .seeding context seeds sender rest (.hit seed))
    | none => some (cache, .seeding context seeds sender rest .missed)
  | .hit seed, .advance =>
    some (cache.observeSimulationCacheHit,
      nextSender revm hashing request context (seeds.insert sender seed) rest)
  | .missed, .advance =>
    some (cache.observeSimulationCacheMiss, .seeding context seeds sender rest .awaitingBalance)
  | .awaitingBalance, .scalar response =>
    match parseScalar parseHexU128 "invalid balance payload" response with
    | .error failure => some (cache, .returned (.error failure))
    | .ok balanceWei => some (cache, .seeding context seeds sender rest (.awaitingNonce balanceWei))
  | .awaitingNonce balanceWei, .scalar response =>
    match parseScalar parseHexU64 "invalid nonce payload" response with
    | .error failure => some (cache, .returned (.error failure))
    | .ok nonce =>
      let seed : AccountSeed := { balanceWei := balanceWei, nonce := nonce }
      some
        ({ cache with
            fetchedAccounts := cache.fetchedAccounts ++ [context.fetchedAccount sender seed] },
          .seeding context seeds sender rest (.fetched seed))
  | .fetched seed, .advance =>
    some
      (cache.cacheAccountSeed context.httpUrl sender context.chainContext.blockNumber
          context.nowUnixMs seed,
        nextSender revm hashing request context (seeds.insert sender seed) rest)
  | .awaitingBalance, .timeout => some (cache, .timedOut)
  | .awaitingNonce _, .timeout => some (cache, .timedOut)
  | _, _ => none

/-- Where a step takes a simulation. -/
def remoteStage (cache : RemoteStateCache) (call : RemoteCall) :
    RemoteStage → RemoteEvent → Option (RemoteStateCache × RemoteStage)
  | .starting, .advance =>
    match call.primaryHttpUrl with
    | none => some (cache, .returned (.error "no http endpoint configured for simulation"))
    | some httpUrl => some (cache, .awaitingHeader httpUrl)
  | .awaitingHeader httpUrl, .header response nowUnixMs =>
    match fetchRemoteChainContext call.chainId call.request response with
    | .panicked => some (cache, .panicked)
    | .returned (.error failure) => some (cache, .returned (.error failure))
    | .returned (.ok chainContext) =>
      some (cache, nextSender revm hashing call.request
        { httpUrl := httpUrl, chainContext := chainContext, nowUnixMs := nowUnixMs } ∅
        (uniqueSenders call.request.txs))
  | .awaitingHeader _, .timeout => some (cache, .timedOut)
  | .seeding context seeds sender rest phase, event =>
    seedStep revm hashing ttlMs cache call.request context seeds sender rest phase event
  | _, _ => none

/-- One step of a simulation. -/
def remoteStep (cache : RemoteStateCache) (simulation : RemoteSimulation) (event : RemoteEvent) :
    Option (RemoteStateCache × RemoteSimulation) :=
  (remoteStage revm hashing ttlMs cache simulation.call simulation.stage event).map fun after =>
    (after.1, { simulation with stage := after.2 })

/-- A simulation that has just been called. -/
def enterRemote (call : RemoteCall) : RemoteSimulation := { call := call }

/-- The steps of any number of simulations, in any order. -/
def SimulatesRemotely : Team RemoteStateCache RemoteSimulation → TeamTurn RemoteCall RemoteEvent →
    Team RemoteStateCache RemoteSimulation → Prop :=
  Team.Takes enterRemote (remoteStep revm hashing ttlMs)

variable {revm hashing ttlMs}

/-- **What a step over the senders can do**: one case for each way from a phase to the next. -/
theorem seedStep_cases {cache : RemoteStateCache} {request : RemoteSimulationRequest}
    {context : SeedContext} {seeds : ExtTreeMap Address AccountSeed} {sender : Address}
    {rest : List Address} {phase : SeedPhase} {event : RemoteEvent}
    {after : RemoteStateCache × RemoteStage} {motive : RemoteStateCache × RemoteStage → Prop}
    (stepped : seedStep revm hashing ttlMs cache request context seeds sender rest phase event =
      some after)
    (serves : ∀ seed, cache.cachedAccountSeed context.httpUrl sender
      context.chainContext.blockNumber context.nowUnixMs ttlMs.toInt64 = some seed →
        motive (cache, .seeding context seeds sender rest (.hit seed)))
    (misses : motive (cache, .seeding context seeds sender rest .missed))
    (countsHit : ∀ seed, phase = .hit seed →
      motive (cache.observeSimulationCacheHit,
        nextSender revm hashing request context (seeds.insert sender seed) rest))
    (countsMiss :
      motive (cache.observeSimulationCacheMiss, .seeding context seeds sender rest .awaitingBalance))
    (reads : ∀ response balanceWei, event = .scalar response →
      parseScalar parseHexU128 "invalid balance payload" response = .ok balanceWei →
        motive (cache, .seeding context seeds sender rest (.awaitingNonce balanceWei)))
    (fetches : ∀ response balanceWei nonce, event = .scalar response →
      phase = .awaitingNonce balanceWei →
        parseScalar parseHexU64 "invalid nonce payload" response = .ok nonce →
          motive
            ({ cache with
                fetchedAccounts :=
                  cache.fetchedAccounts ++ [context.fetchedAccount sender ⟨balanceWei, nonce⟩] },
              .seeding context seeds sender rest (.fetched ⟨balanceWei, nonce⟩)))
    (caches : ∀ seed, phase = .fetched seed →
      motive
        (cache.cacheAccountSeed context.httpUrl sender context.chainContext.blockNumber
            context.nowUnixMs seed,
          nextSender revm hashing request context (seeds.insert sender seed) rest))
    (fails : ∀ failure, motive (cache, .returned (.error failure)))
    (expires : motive (cache, .timedOut)) : motive after := by
  unfold seedStep at stepped
  split at stepped
  case h_1 =>
    split at stepped
    case h_1 seed served =>
      cases stepped
      exact serves seed served
    case h_2 =>
      cases stepped
      exact misses
  case h_2 seed =>
    cases stepped
    exact countsHit seed rfl
  case h_3 =>
    cases stepped
    exact countsMiss
  case h_4 response =>
    split at stepped
    case h_1 =>
      cases stepped
      exact fails _
    case h_2 balanceWei parsed =>
      cases stepped
      exact reads response balanceWei rfl parsed
  case h_5 balanceWei response =>
    split at stepped
    case h_1 =>
      cases stepped
      exact fails _
    case h_2 nonce parsed =>
      cases stepped
      exact fetches response balanceWei nonce rfl rfl parsed
  case h_6 seed =>
    cases stepped
    exact caches seed rfl
  case h_7 | h_8 =>
    cases stepped
    exact expires
  case h_9 => cases stepped

end Steps

/-! ## Where blocks and accounts come from -/

/-- A call has heard a header, from its node, and read the clock then. -/
def RemoteCall.Heard (call : RemoteCall) (events : List RemoteEvent) (context : SeedContext) : Prop :=
  call.primaryHttpUrl = some context.httpUrl ∧ ∃ response,
    RemoteEvent.header response context.nowUnixMs ∈ events ∧
      fetchRemoteChainContext call.chainId call.request response =
        .returned (.ok context.chainContext)

/-- A call has heard a response with a balance. -/
def HeardBalance (events : List RemoteEvent) (balanceWei : U128) : Prop :=
  ∃ response, RemoteEvent.scalar response ∈ events ∧
    parseScalar parseHexU128 "invalid balance payload" response = .ok balanceWei

/-- A call has heard a response with a nonce. -/
def HeardNonce (events : List RemoteEvent) (nonce : UInt64) : Prop :=
  ∃ response, RemoteEvent.scalar response ∈ events ∧
    parseScalar parseHexU64 "invalid nonce payload" response = .ok nonce

/-- A call has fetched an account, on the block of its header and at the time it read then. -/
def RemoteCall.Fetched (call : RemoteCall) (events : List RemoteEvent) (account : FetchedAccount) :
    Prop :=
  HeardBalance events account.seed.balanceWei ∧ HeardNonce events account.seed.nonce ∧
    ∃ context, call.Heard events context ∧
      context.fetchedAccount account.address account.seed = account

section Events

variable {call : RemoteCall} {earlier later : List RemoteEvent} {context : SeedContext}

theorem RemoteCall.Heard.mono (heard : call.Heard earlier context) (kept : earlier ⊆ later) :
    call.Heard later context := by
  obtain ⟨url, response, member, block⟩ := heard
  exact ⟨url, response, kept member, block⟩

theorem HeardBalance.mono {balanceWei : U128} (heard : HeardBalance earlier balanceWei)
    (kept : earlier ⊆ later) : HeardBalance later balanceWei := by
  obtain ⟨response, member, parsed⟩ := heard
  exact ⟨response, kept member, parsed⟩

theorem RemoteCall.Fetched.mono {account : FetchedAccount} (fetched : call.Fetched earlier account)
    (kept : earlier ⊆ later) : call.Fetched later account := by
  obtain ⟨balance, ⟨response, member, parsed⟩, context, heard, same⟩ := fetched
  exact ⟨balance.mono kept, ⟨response, kept member, parsed⟩, context, heard.mono kept, same⟩

end Events

/-- An account that was fetched for a simulation: from its node, for its block number, and by itself
or so recently that an entry of the cache is still young. -/
def FetchedFor (ttlMs : UInt64) (fetchedAccounts : List FetchedAccount) (context : SeedContext)
    (address : Address) (seed : AccountSeed) : Prop :=
  ∃ account ∈ fetchedAccounts, account.httpUrl = context.httpUrl ∧ account.address = address ∧
    account.blockNumber = context.chainContext.blockNumber ∧ account.seed = seed ∧
    (account.nowUnixMs = context.nowUnixMs ∨
      saturatingSub context.nowUnixMs account.nowUnixMs ≤ ttlMs.toInt64)

theorem FetchedFor.mono {ttlMs : UInt64} {earlier later : List FetchedAccount}
    {context : SeedContext} {address : Address} {seed : AccountSeed}
    (fetched : FetchedFor ttlMs earlier context address seed) (kept : earlier ⊆ later) :
    FetchedFor ttlMs later context address seed := by
  obtain ⟨account, member, facts⟩ := fetched
  exact ⟨account, kept member, facts⟩

theorem fetchedFor_of_mem {ttlMs : UInt64} {fetchedAccounts : List FetchedAccount}
    {context : SeedContext} {address : Address} {seed : AccountSeed}
    (fetched : context.fetchedAccount address seed ∈ fetchedAccounts) :
    FetchedFor ttlMs fetchedAccounts context address seed :=
  ⟨_, fetched, rfl, rfl, rfl, rfl, .inl rfl⟩

/-- Every entry of the cache was fetched. -/
def RemoteStateCache.Sourced (cache : RemoteStateCache) : Prop :=
  ∀ httpUrl address entry, cache.accountSeeds (httpUrl, address) = some entry →
    { httpUrl := httpUrl, address := address, blockNumber := entry.blockNumber
      nowUnixMs := entry.cachedAtUnixMs, seed := entry.seed } ∈ cache.fetchedAccounts

/-- An account that was fetched may be cached. -/
theorem RemoteStateCache.Sourced.cacheAccountSeed {cache : RemoteStateCache} {context : SeedContext}
    {sender : Address} {seed : AccountSeed} (sourced : cache.Sourced)
    (fetched : context.fetchedAccount sender seed ∈ cache.fetchedAccounts) :
    (cache.cacheAccountSeed context.httpUrl sender context.chainContext.blockNumber
      context.nowUnixMs seed).Sourced := by
  intro httpUrl address entry held
  dsimp only [RemoteStateCache.cacheAccountSeed] at held ⊢
  by_cases same : (httpUrl, address) = (context.httpUrl, sender)
  · cases same
    rw [Function.update_self] at held
    cases held
    exact fetched
  · rw [Function.update_of_ne same] at held
    exact sourced httpUrl address entry held

/-- What the cache serves was fetched for the simulation it serves. -/
theorem fetchedFor_of_cachedAccountSeed {cache : RemoteStateCache} {ttlMs : UInt64}
    {context : SeedContext} {address : Address} {seed : AccountSeed} (sourced : cache.Sourced)
    (served : cache.cachedAccountSeed context.httpUrl address context.chainContext.blockNumber
      context.nowUnixMs ttlMs.toInt64 = some seed) :
    FetchedFor ttlMs cache.fetchedAccounts context address seed := by
  obtain ⟨entry, held, fits⟩ := Option.bind_eq_some_iff.mp served
  split at fits
  case isTrue => cases fits
  case isFalse sameBlock =>
    split at fits
    case isTrue => cases fits
    case isFalse young =>
      exact ⟨_, sourced _ _ _ held, rfl, rfl, not_not.mp sameBlock, Option.some.inj fits,
        .inr (Int64.not_lt.mp young)⟩

/-- The accounts of a simulation so far, with the senders that are still to come. -/
structure SeedProgress (ttlMs : UInt64) (fetchedAccounts : List FetchedAccount)
    (txs : List ValidatedTransaction) (context : SeedContext)
    (seeds : ExtTreeMap Address AccountSeed) (pending : List Address) : Prop where
  complete : ∀ tx ∈ txs, tx.decoded.sender ∈ pending ∨ ∃ seed, seeds[tx.decoded.sender]? = some seed
  fetched : ∀ address seed, seeds[address]? = some seed →
    FetchedFor ttlMs fetchedAccounts context address seed

namespace SeedProgress

variable {ttlMs : UInt64} {fetchedAccounts : List FetchedAccount} {txs : List ValidatedTransaction}
  {context : SeedContext} {seeds : ExtTreeMap Address AccountSeed} {sender : Address}
  {pending : List Address}

theorem mono {later : List FetchedAccount}
    (progress : SeedProgress ttlMs fetchedAccounts txs context seeds pending)
    (kept : fetchedAccounts ⊆ later) : SeedProgress ttlMs later txs context seeds pending :=
  ⟨progress.complete, fun address seed held => (progress.fetched address seed held).mono kept⟩

/-- The account of the next sender is at hand. -/
theorem insert {seed : AccountSeed}
    (progress : SeedProgress ttlMs fetchedAccounts txs context seeds (sender :: pending))
    (fetched : FetchedFor ttlMs fetchedAccounts context sender seed) :
    SeedProgress ttlMs fetchedAccounts txs context (seeds.insert sender seed) pending := by
  constructor
  · intro tx member
    rw [getElem?_insert_eq]
    split
    case isTrue same => exact .inr ⟨seed, rfl⟩
    case isFalse differs =>
      rcases progress.complete tx member with waits | held
      · rcases List.mem_cons.mp waits with same | later
        · exact absurd same.symm differs
        · exact .inl later
      · exact .inr held
  · intro address other held
    rw [getElem?_insert_eq] at held
    split at held
    case isTrue same =>
      cases held
      exact same ▸ fetched
    case isFalse => exact progress.fetched address other held

end SeedProgress

theorem mem_uniqueSenders {txs : List ValidatedTransaction} {tx : ValidatedTransaction}
    (member : tx ∈ txs) : tx.decoded.sender ∈ uniqueSenders txs := by
  suffices inserted : ∀ (txs : List ValidatedTransaction) (senders : ExtTreeSet Address),
      (tx ∈ txs ∨ tx.decoded.sender ∈ senders) →
        tx.decoded.sender ∈ txs.foldl (fun senders tx => senders.insert tx.decoded.sender) senders by
    exact ExtTreeSet.mem_toList.mpr (inserted txs ∅ (.inl member))
  intro txs
  induction txs with
  | nil => exact fun senders held => held.resolve_left nofun
  | cons first rest ih =>
      rintro senders (among | held)
      · rcases List.mem_cons.mp among with rfl | later
        · exact ih _ (.inr ExtTreeSet.mem_insert_self)
        · exact ih _ (.inl later)
      · exact ih _ (.inr (ExtTreeSet.mem_insert.mpr (.inr held)))

section Runs

variable {Db : Type} (revm : Revm Db) (hashing : Hashing) (ttlMs : UInt64)

/-- The database a batch starts from: one account for every sender, and nothing else. -/
def seededDb (seeds : Address → AccountSeed) (txs : List ValidatedTransaction) : Db :=
  (SimEngine.senderStartNonce (simulationInputs txs)).keys.foldl
    (fun db sender => revm.insertAccountInfo db sender (seeds sender)) revm.initial

/-- **A batch from fetched accounts.** It ran on the block of a header that the call has heard, from a
database seeded with one account for every sender, each fetched for this simulation. -/
def BackedByFetches (fetchedAccounts : List FetchedAccount) (events : List RemoteEvent)
    (call : RemoteCall) (batch : SimEngine.SimulationBatchResult) : Prop :=
  ∃ (context : SeedContext) (seeds : Address → AccountSeed),
    call.Heard events context ∧ batch.chainContext = context.chainContext ∧
    (∀ tx ∈ call.request.txs,
      FetchedFor ttlMs fetchedAccounts context tx.decoded.sender (seeds tx.decoded.sender)) ∧
    batch.txResults = SimEngine.resultsFrom revm hashing context.chainContext
      (seededDb revm seeds call.request.txs) (simulationInputs call.request.txs)

/-- What holds of a simulation at each stage, after the events it has taken. -/
def RemoteSimulation.Backed (events : List RemoteEvent) (cache : RemoteStateCache)
    (simulation : RemoteSimulation) : Prop :=
  match simulation.stage with
  | .awaitingHeader httpUrl => simulation.call.primaryHttpUrl = some httpUrl
  | .seeding context seeds sender rest phase =>
    simulation.call.Heard events context ∧
      SeedProgress ttlMs cache.fetchedAccounts simulation.call.request.txs context seeds
        (sender :: rest) ∧
      (∀ seed, phase = .hit seed →
        FetchedFor ttlMs cache.fetchedAccounts context sender seed) ∧
      (∀ balanceWei, phase = .awaitingNonce balanceWei → HeardBalance events balanceWei) ∧
      ∀ seed, phase = .fetched seed →
        context.fetchedAccount sender seed ∈ cache.fetchedAccounts
  | .returned (.ok batch) =>
    BackedByFetches revm hashing ttlMs cache.fetchedAccounts events simulation.call batch
  | _ => True

variable {revm hashing ttlMs}

/-- With all accounts at hand the simulation runs on them; otherwise the next one is looked up. -/
theorem backed_nextSender {events : List RemoteEvent} {cache : RemoteStateCache} {call : RemoteCall}
    {context : SeedContext} {seeds : ExtTreeMap Address AccountSeed} {rest : List Address}
    (heard : call.Heard events context)
    (progress : SeedProgress ttlMs cache.fetchedAccounts call.request.txs context seeds rest) :
    RemoteSimulation.Backed revm hashing ttlMs events cache
      { call := call, stage := nextSender revm hashing call.request context seeds rest } := by
  cases rest with
  | cons sender rest => exact ⟨heard, progress, nofun, nofun, nofun⟩
  | nil =>
      have known : ∀ tx ∈ call.request.txs,
          seeds[tx.decoded.sender]? = some ((seeds[tx.decoded.sender]?).getD ⟨0, 0⟩) := by
        intro tx member
        obtain ⟨seed, held⟩ := (progress.complete tx member).resolve_left nofun
        rw [held, Option.getD_some]
      have seeded : SimEngine.seedSenderAccounts revm (simulationInputs call.request.txs)
          (cachedStateProviderView seeds) =
            .ok (seededDb revm (fun address => (seeds[address]?).getD ⟨0, 0⟩) call.request.txs) := by
        refine SimEngine.seedSenderAccounts_known fun tx member => ?_
        obtain ⟨tx, among, rfl⟩ := List.mem_map.mp member
        exact congrArg Except.ok (known tx among)
      have simulated : simulateWithMode revm hashing context.chainContext
          (simulationInputs call.request.txs) (cachedStateProviderView seeds) = _ :=
        SimEngine.simulateWithMode_of_seeded seeded
      rw [nextSender, simulated]
      exact ⟨context, fun address => (seeds[address]?).getD ⟨0, 0⟩, heard, rfl,
        fun tx member => progress.fetched _ _ (known tx member), rfl⟩

theorem BackedByFetches.mono {earlier later : List FetchedAccount} {events : List RemoteEvent}
    {call : RemoteCall} {batch : SimEngine.SimulationBatchResult}
    (backed : BackedByFetches revm hashing ttlMs earlier events call batch) (kept : earlier ⊆ later) :
    BackedByFetches revm hashing ttlMs later events call batch := by
  obtain ⟨context, seeds, heard, block, fetched, results⟩ := backed
  exact ⟨context, seeds, heard, block, fun tx member => (fetched tx member).mono kept, results⟩

/-- Further fetches leave a simulation backed. -/
theorem backed_mono {events : List RemoteEvent} {cache later : RemoteStateCache}
    {simulation : RemoteSimulation} (backed : simulation.Backed revm hashing ttlMs events cache)
    (kept : cache.fetchedAccounts ⊆ later.fetchedAccounts) :
    simulation.Backed revm hashing ttlMs events later := by
  rcases simulation with ⟨call, stage⟩
  cases stage with
  | seeding context seeds sender rest phase =>
      obtain ⟨heard, progress, served, balance, fetched⟩ := backed
      exact ⟨heard, progress.mono kept, fun seed held => (served seed held).mono kept, balance,
        fun seed held => kept (fetched seed held)⟩
  | returned simulated =>
      cases simulated with
      | ok batch => exact BackedByFetches.mono backed kept
      | error failure => trivial
  | awaitingHeader httpUrl => exact backed
  | starting | timedOut | panicked => trivial

/-- What a step of a simulation leads to: entries of the cache that were fetched, a simulation that is
backed after one more event, and accounts that it has fetched. -/
structure StepBacked (revm : Revm Db) (hashing : Hashing) (ttlMs : UInt64)
    (events : List RemoteEvent) (cache : RemoteStateCache) (call : RemoteCall)
    (after : RemoteStateCache × RemoteStage) : Prop where
  sourced : after.1.Sourced
  backed : RemoteSimulation.Backed revm hashing ttlMs events after.1 { call := call, stage := after.2 }
  kept : cache.fetchedAccounts ⊆ after.1.fetchedAccounts
  fetched : ∀ account ∈ after.1.fetchedAccounts,
    account ∈ cache.fetchedAccounts ∨ call.Fetched events account

/-- A step that fetches nothing. -/
theorem StepBacked.of_same {events : List RemoteEvent} {cache : RemoteStateCache} {call : RemoteCall}
    {after : RemoteStateCache × RemoteStage} (sourced : after.1.Sourced)
    (backed : RemoteSimulation.Backed revm hashing ttlMs events after.1
      { call := call, stage := after.2 })
    (same : after.1.fetchedAccounts = cache.fetchedAccounts) :
    StepBacked revm hashing ttlMs events cache call after where
  sourced := sourced
  backed := backed
  kept := same ▸ List.Subset.refl _
  fetched _ member := .inl (same ▸ member)

/-- The step over the senders keeps the cache sourced and the simulation backed. -/
theorem seedStep_backed {events : List RemoteEvent} {cache : RemoteStateCache} {call : RemoteCall}
    {context : SeedContext} {seeds : ExtTreeMap Address AccountSeed} {sender : Address}
    {rest : List Address} {phase : SeedPhase} {event : RemoteEvent}
    {after : RemoteStateCache × RemoteStage} (sourced : cache.Sourced)
    (backed : RemoteSimulation.Backed revm hashing ttlMs events cache
      { call := call, stage := .seeding context seeds sender rest phase })
    (stepped : seedStep revm hashing ttlMs cache call.request context seeds sender rest phase event =
      some after) :
    StepBacked revm hashing ttlMs (events ++ [event]) cache call after := by
  obtain ⟨heardBefore, progress, served, balance, fetched⟩ := backed
  have more : events ⊆ events ++ [event] := List.subset_append_left _ _
  have heard := heardBefore.mono more
  have last : event ∈ events ++ [event] := List.mem_append_right _ (List.mem_singleton_self _)
  refine seedStep_cases
    (motive := StepBacked revm hashing ttlMs (events ++ [event]) cache call) stepped
    ?serves (.of_same sourced ⟨heard, progress, nofun, nofun, nofun⟩ rfl) ?countsHit
    (.of_same sourced ⟨heard, progress, nofun, nofun, nofun⟩ rfl) ?reads ?fetches ?caches
    (fun _ => .of_same sourced trivial rfl) (.of_same sourced trivial rfl)
  case serves =>
    intro seed found
    refine .of_same sourced ⟨heard, progress, fun other held => ?_, nofun, nofun⟩ rfl
    cases held
    exact fetchedFor_of_cachedAccountSeed sourced found
  case countsHit =>
    rintro seed rfl
    exact .of_same sourced (backed_nextSender heard (progress.insert (served seed rfl))) rfl
  case reads =>
    rintro response balanceWei rfl parsed
    refine .of_same sourced ⟨heard, progress, nofun, fun other held => ?_, nofun⟩ rfl
    cases held
    exact ⟨response, last, parsed⟩
  case fetches =>
    rintro response balanceWei nonce rfl rfl parsed
    have kept := List.subset_append_left cache.fetchedAccounts
      [context.fetchedAccount sender ⟨balanceWei, nonce⟩]
    refine ⟨fun httpUrl address entry held => kept (sourced httpUrl address entry held),
      ⟨heard, progress.mono kept, nofun, nofun, fun other held => ?_⟩, kept, fun account member => ?_⟩
    · cases held
      exact List.mem_append_right _ (List.mem_singleton_self _)
    · refine (List.mem_append.mp member).imp_right fun new => ?_
      rw [List.mem_singleton.mp new]
      exact ⟨(balance balanceWei rfl).mono more, ⟨response, last, parsed⟩, context, heard, rfl⟩
  case caches =>
    rintro seed rfl
    exact .of_same (sourced.cacheAccountSeed (fetched seed rfl))
      (backed_nextSender heard (progress.insert (fetchedFor_of_mem (fetched seed rfl)))) rfl

/-- A step of a simulation keeps the cache sourced and the simulation backed. -/
theorem remoteStep_backed {events : List RemoteEvent} {cache : RemoteStateCache}
    {simulation : RemoteSimulation} {event : RemoteEvent}
    {after : RemoteStateCache × RemoteSimulation} (sourced : cache.Sourced)
    (backed : simulation.Backed revm hashing ttlMs events cache)
    (stepped : remoteStep revm hashing ttlMs cache simulation event = some after) :
    after.2.call = simulation.call ∧
      StepBacked revm hashing ttlMs (events ++ [event]) cache simulation.call
        (after.1, after.2.stage) := by
  rcases simulation with ⟨call, stage⟩
  obtain ⟨reached, staged, rfl⟩ := Option.map_eq_some_iff.mp stepped
  refine ⟨rfl, ?_⟩
  dsimp only [remoteStage] at staged
  split at staged
  case h_1 =>
    split at staged
    case h_1 =>
      cases staged
      exact .of_same sourced trivial rfl
    case h_2 httpUrl url =>
      cases staged
      exact .of_same sourced url rfl
  case h_2 httpUrl response nowUnixMs =>
    split at staged
    case h_1 | h_2 =>
      cases staged
      exact .of_same sourced trivial rfl
    case h_3 chainContext read =>
      cases staged
      refine .of_same sourced (backed_nextSender ⟨backed, response, ?_, read⟩
        ⟨fun tx member => .inl (mem_uniqueSenders member), fun address seed held => ?_⟩) rfl
      · exact List.mem_append_right _ (List.mem_singleton_self _)
      · rw [ExtTreeMap.getElem?_empty] at held
        cases held
  case h_3 =>
    cases staged
    exact .of_same sourced trivial rfl
  case h_4 context seeds sender rest phase event =>
    exact seedStep_backed sourced backed staged
  case h_5 => cases staged

variable {crew : Team RemoteStateCache RemoteSimulation} {history : List (TeamTurn RemoteCall RemoteEvent)}

/-- Every simulation of a run is backed by the events it has taken. -/
theorem run_backed (run : Run (SimulatesRemotely revm hashing ttlMs) { shared := {} } history crew) :
    crew.shared.Sourced ∧ ∀ (number : Nat) (simulation : RemoteSimulation),
      crew.tasks[number]? = some simulation →
        simulation.Backed revm hashing ttlMs (Team.eventsOf number history) crew.shared := by
  refine Team.told_invariant RemoteStateCache.Sourced
    (fun events cache simulation => simulation.Backed revm hashing ttlMs events cache) run nofun
    (fun _ _ _ => trivial) fun sourced backed stepped => ?_
  obtain ⟨sameCall, kept⟩ := remoteStep_backed sourced backed stepped
  rw [← sameCall] at kept
  exact ⟨kept.sourced, kept.backed, fun _ _ other => backed_mono other kept.kept⟩

/-- **Every account that was fetched is one that a node sent**, to a simulation of the run on the block
of the header it had heard. -/
theorem run_fetchedAccounts
    (run : Run (SimulatesRemotely revm hashing ttlMs) { shared := {} } history crew) :
    ∀ account ∈ crew.shared.fetchedAccounts, ∃ (number : Nat) (simulation : RemoteSimulation),
      crew.tasks[number]? = some simulation ∧
        simulation.call.Fetched (Team.eventsOf number history) account := by
  refine run.invariant_of_history (motive := fun past crew =>
    ∀ account ∈ crew.shared.fetchedAccounts, ∃ (number : Nat) (simulation : RemoteSimulation),
      crew.tasks[number]? = some simulation ∧
        simulation.call.Fetched (Team.eventsOf number past) account) (by simp) ?_
  intro past crew after turn rest whole front held taken
  cases turn with
  | join call =>
      cases taken
      intro account member
      obtain ⟨number, simulation, found, fetched⟩ := held account member
      have inside := (List.getElem?_eq_some_iff.mp found).1
      refine ⟨number, simulation, (List.getElem?_append_left inside).trans found, ?_⟩
      rwa [Team.eventsOf_join]
  | act number event =>
      obtain ⟨simulation, result, found, stepped, rfl⟩ := Team.act_eq_some taken
      have before := run_backed front
      obtain ⟨sameCall, step⟩ :=
        remoteStep_backed before.1 (before.2 number simulation found) stepped
      have inside := (List.getElem?_eq_some_iff.mp found).1
      have stands : (crew.tasks.set number result.2)[number]? = some result.2 := by
        rw [List.getElem?_set_self inside]
      have own : Team.eventsOf number (past ++ [.act number event]) =
          Team.eventsOf number past ++ [event] := by
        rw [Team.eventsOf_act, if_pos rfl]
      intro account member
      rcases step.fetched account member with earlier | new
      · obtain ⟨other, task, held, fetched⟩ := held account earlier
        by_cases same : number = other
        · subst same
          cases found.symm.trans held
          refine ⟨number, result.2, stands, ?_⟩
          rw [sameCall, own]
          exact fetched.mono (List.subset_append_left _ _)
        · refine ⟨other, task, (List.getElem?_set_ne same).trans held, ?_⟩
          rwa [Team.eventsOf_act, if_neg same, List.append_nil]
      · refine ⟨number, result.2, stands, ?_⟩
        rw [sameCall, own]
        exact new

end Runs

/-! ## What the caller reads -/

/-- The first transaction of a batch that failed, which names the category. -/
def firstFailure (batch : SimEngine.SimulationBatchResult) : Option SimEngine.TxSimulationResult :=
  batch.txResults.find? fun result => !result.success

/-- What the caller reads of a batch. -/
def readBatch (batch : SimEngine.SimulationBatchResult) : SimulationBatchResult where
  chainContext := { blockNumber := batch.chainContext.blockNumber }
  txResults := batch.txResults.map fun result =>
    { hash := result.hash, success := result.success, gasUsed := result.gasUsed }
  finalStateDiffHash := hashOfBytes batch.finalStateDiffHash

/-- `summarize_simulation_batch`, of the batch itself. -/
def summarizeBatch (batch : SimEngine.SimulationBatchResult) :
    RemoteSimulationStatus × Option String :=
  match firstFailure batch with
  | some failed =>
    (.failed, some ((failed.failCategory.map simulationFailCategoryLabel).getD "unknown"))
  | none => (.ok, none)

/-- The summary of a batch is that of what is read of it. -/
theorem summarizeSimulationBatch_readBatch (batch : SimEngine.SimulationBatchResult) :
    summarizeSimulationBatch (readBatch batch)
      ((firstFailure batch).bind SimEngine.TxSimulationResult.failCategory) = summarizeBatch batch := by
  have anyFailed : ((readBatch batch).txResults.any fun result => !result.success) =
      (firstFailure batch).isSome := by
    rw [readBatch, List.any_map, firstFailure, List.isSome_find?]
    rfl
  rw [summarizeSimulationBatch, anyFailed, summarizeBatch]
  cases firstFailure batch with
  | none => rfl
  | some failed => rfl

/-- Nothing that the builder looks up in a batch is lost: neither the result of a transaction, nor the
digest that names the simulation. -/
theorem lookups_readBatch (batch : SimEngine.SimulationBatchResult) :
    (∀ txHash, (readBatch batch).txResults.find? (fun result => result.hash = txHash) =
      (batch.txResults.find? fun result => result.hash = txHash).map fun result =>
        { hash := result.hash, success := result.success, gasUsed := result.gasUsed }) ∧
      hashBytes (readBatch batch).finalStateDiffHash = batch.finalStateDiffHash := by
  refine ⟨fun txHash => ?_, hashBytes_hashOfBytes _⟩
  rw [readBatch, List.find?_map]
  rfl

/-- How a simulation ended, for the caller. -/
def RemoteStage.simulated : RemoteStage → Option Simulated
  | .returned (.ok batch) =>
    some (.batch (readBatch batch)
      ((firstFailure batch).bind SimEngine.TxSimulationResult.failCategory))
  | .returned (.error _) => some .stateError
  | .timedOut => some .timedOut
  | _ => none

/-- When categories stand exactly beside failures, the outcome of a batch names the category of its
first failure, and never falls back to an unknown one. -/
theorem simulateRemoteRequest_of_named {batch : SimEngine.SimulationBatchResult}
    {simulated : Simulated} (request : RemoteSimulationRequest) (latencyMs : UInt64)
    (named : ∀ result ∈ batch.txResults, result.success = true ↔ result.failCategory = none)
    (ended : RemoteStage.simulated (.returned (.ok batch)) = some simulated) :
    (simulateRemoteRequest request simulated latencyMs).failCategory =
        ((firstFailure batch).bind SimEngine.TxSimulationResult.failCategory).map
          simulationFailCategoryLabel ∧
      ((simulateRemoteRequest request simulated latencyMs).status = .ok ↔
        ∀ result ∈ batch.txResults, result.success = true) := by
  cases ended
  dsimp only [simulateRemoteRequest]
  rw [summarizeSimulationBatch_readBatch, summarizeBatch]
  cases failed : firstFailure batch with
  | none =>
      have succeeded : ∀ result ∈ batch.txResults, result.success = true := fun result member => by
        simpa using List.find?_eq_none.mp failed result member
      exact ⟨rfl, fun _ => succeeded, fun _ => rfl⟩
  | some result =>
      have member := List.mem_of_find?_eq_some failed
      have fails : result.success = false := by simpa using List.find?_some failed
      obtain ⟨category, labelled⟩ : ∃ category, result.failCategory = some category :=
        Option.ne_none_iff_exists'.mp fun missing => by
          simp [(named result member).mpr missing] at fails
      have notAll : ¬ ∀ result ∈ batch.txResults, result.success = true := fun all => by
        simp [all result member] at fails
      simp [labelled, notAll]

section Laws

variable {Db : Type} {revm : Revm Db} {hashing : Hashing} {ttlMs : UInt64}
  {crew : Team RemoteStateCache RemoteSimulation} {history : List (TeamTurn RemoteCall RemoteEvent)}

end Laws

/-! ## Samples -/

/-- A call for one transaction of sender `9` with the given nonce. -/
def sampleCall (nonce : UInt64) : RemoteCall where
  primaryHttpUrl := some "http://127.0.0.1:8545"
  chainId := some 1
  request :=
    { txHash := 1, memberTxHashes := [1]
      txs := [{ sourceId := "rpc-mainnet", observedAtUnixMs := 0, observedAtMonoNs := 0
                calldata := [], decoded := (SimEngine.sampleInput 1 nonce).decoded }]
      detectedUnixMs := 0 }

/-- A header whose block is `16`. -/
def sampleHeader : RpcHeaderResponseEnvelope where
  result := some { number := "0x10", timestamp := "0x20", gasLimit := "0x30" }

/-- One simulation fetches the account of the sender; another one, five milliseconds later, reads it
from the cache. -/
def sharedSeed : List (TeamTurn RemoteCall RemoteEvent) :=
  [.join (sampleCall 7), .join (sampleCall 8), .act 0 .advance, .act 1 .advance,
    .act 0 (.header (.ok sampleHeader) 1000), .act 0 .advance, .act 0 .advance,
    .act 0 (.scalar (.ok { result := some "0x64" })), .act 0 (.scalar (.ok { result := some "0x7" })),
    .act 0 .advance, .act 1 (.header (.ok sampleHeader) 1005), .act 1 .advance, .act 1 .advance]

/-- The crew after the turns of `sharedSeed`. -/
def sharedSeedCrew : Team RemoteStateCache RemoteSimulation :=
  (sharedSeed.foldlM (Team.next enterRemote
    (remoteStep SimEngine.nonceMachine SimEngine.sumHashing 3000)) { shared := {} }).getD
    { shared := {} }

theorem run_sharedSeed : Run (SimulatesRemotely SimEngine.nonceMachine SimEngine.sumHashing 3000)
    { shared := {} } sharedSeed sharedSeedCrew := by
  have possible : (sharedSeed.foldlM (Team.next enterRemote
      (remoteStep SimEngine.nonceMachine SimEngine.sumHashing 3000)) { shared := {} }).isSome = true := by
    decide +kernel
  obtain ⟨crew, taken⟩ := Option.isSome_iff_exists.mp possible
  refine Run.of_foldlM ?_
  rw [sharedSeedCrew, taken, Option.getD_some]

end Mempulse.LiveRpc
