import Mempulse.Library.Program
import Mempulse.LiveRpc.ChainConfig
import Mempulse.Searcher
import Mempulse.Storage.Writer

/-!
# The live pipeline

What a chain worker does with one pending transaction: it asks the scheduler to admit it, and
then persists the observation, the transaction, and the events that follow from the admission,
one storage write at a time. The function is a program over the operations it calls, since
workers run at the same time and share the scheduler and the storage writer.

Log lines are left out. The wall clock is read once, at the start, and is part of the arrival.
-/

set_option autoImplicit false

namespace Mempulse.LiveRpc

open Std EventLog Library Scheduler Storage FeatureEngine Searcher

/-! ## Data -/

export Feed (ChainRpcConfig)

/-- A transaction as the RPC endpoint returned it. -/
structure LiveTx where
  hash : TxHash
  sender : Address
  /-- The source names this field `to`. -/
  toAddress : Option Address
  nonce : UInt64
  txType : UInt8
  valueWei : Option U128
  gasLimit : Option UInt64
  chainId : Option UInt64
  gasPriceWei : Option U128
  maxFeePerGasWei : Option U128
  maxPriorityFeePerGasWei : Option U128
  maxFeePerBlobGasWei : Option U128
  input : List UInt8
  deriving DecidableEq

/-- When a pending hash was first heard of, by both clocks. -/
structure PendingHashObservation where
  observedAtUnixMs : Int64
  observedAtMonoNs : UInt64
  deriving DecidableEq

/-- The arguments of one call of `process_pending_hash_with_fetched_tx_with_owner`, with the wall
clock it reads. -/
structure Arrival where
  chain : ChainRpcConfig
  observation : PendingHashObservation
  hash : TxHash
  fetchedTx : Option LiveTx
  processedAtUnixMs : Int64
  deriving DecidableEq

/-- A ranked candidate beside the record stored of it. -/
structure ExecutableOpportunity where
  record : OpportunityRecord
  candidate : OpportunityCandidate
  deriving DecidableEq

/-- What a simulation is asked to run: the opportunity's transactions in the order of the bundle.
-/
structure RemoteSimulationRequest where
  txHash : TxHash
  memberTxHashes : List TxHash
  txs : List ValidatedTransaction
  detectedUnixMs : Int64
  deriving DecidableEq

/-- A registered candidate's task with the opportunity it came from. -/
structure RegisteredSimulationCandidate where
  spec : SimulationTaskSpec
  opportunity : ExecutableOpportunity
  deriving DecidableEq

/-- A simulation task, without the handles it carries. -/
structure SimulationTask where
  chain : ChainRpcConfig
  request : RemoteSimulationRequest
  candidates : List RegisteredSimulationCandidate
  enqueuedUnixMs : Int64
  deriving DecidableEq

/-- Why a live observation was dropped. -/
inductive LiveRpcDropReason where
  | storageQueueFull
  | storageQueueClosed
  | invalidPendingHash
  deriving DecidableEq

/-- Why the scheduler did not take a command. -/
inductive SchedulerEnqueueError where
  | queueFull
  | queueClosed
  deriving DecidableEq

/-- `format!("{:?}", error)`. -/
def SchedulerEnqueueError.debug : SchedulerEnqueueError → String
  | .queueFull => "QueueFull"
  | .queueClosed => "QueueClosed"

/-! ## Operations -/

/-- What the pipeline calls. -/
inductive PipelineOp where
  | admitOutcome (tx : ValidatedTransaction)
  | tryEnqueue (op : StorageWriteOp)
  /-- `next_seq_id.fetch_add(1, Ordering::Relaxed)`. -/
  | fetchAddSeqId
  | observeDropReason (reason : LiveRpcDropReason)
  | invalidateCandidateHash (hash : TxHash)
  | getPendingTransactions (hashes : List TxHash)
  /-- `scheduler.snapshot().ready`. -/
  | snapshotReady
  | observeSearcherBatch (executable : List OpportunityRecord)
  | registerCandidates (candidates : List SchedulerCandidate)
  | enqueueSimulationTask (task : SimulationTask)
  deriving DecidableEq

/-- What each operation returns. -/
abbrev PipelineReply : PipelineOp → Type
  | .admitOutcome _ => Except SchedulerEnqueueError SchedulerAdmissionOutcome
  | .tryEnqueue _ => Except StorageTryEnqueueError Unit
  | .fetchAddSeqId => UInt64
  | .observeDropReason _ => Unit
  | .invalidateCandidateHash _ => Except SchedulerEnqueueError Unit
  | .getPendingTransactions _ => List ValidatedTransaction
  | .snapshotReady => List ValidatedTransaction
  | .observeSearcherBatch _ => Unit
  | .registerCandidates _ => Except SchedulerEnqueueError (List SimulationTaskSpec)
  | .enqueueSimulationTask _ => Except String Bool

/-- A call of a pipeline function: it ends with `Ok(())` or with an error message. -/
abbrev Pipeline := Program PipelineOp PipelineReply (Except String Unit)

/-! ## Storage writes -/

/-- The drop reason counted for each refusal of the storage queue. -/
def classifyStorageEnqueueDropReason : StorageTryEnqueueError → LiveRpcDropReason
  | .queueFull => .storageQueueFull
  | .queueClosed => .storageQueueClosed

/-- A full queue ends the caller with `Ok(())`, a closed one with an error. -/
def tryEnqueueStorageWrite (op : StorageWriteOp) (next : Pipeline) : Pipeline :=
  .call (.tryEnqueue op) fun
    | .ok () => next
    | .error error =>
      .call (.observeDropReason (classifyStorageEnqueueDropReason error)) fun _ =>
        match error with
        | .queueFull => .done (.ok ())
        | .queueClosed => .done (.error "storage writer queue is closed")

/-- Takes a sequence number and offers the storage queue an event with the payload. -/
def appendEvent (chain : ChainRpcConfig) (nowUnixMs : Int64) (payload : EventPayload)
    (next : Pipeline) : Pipeline :=
  .call .fetchAddSeqId fun seqId =>
    tryEnqueueStorageWrite
      (.appendPayload chain.sourceId payload nowUnixMs
        (UInt64.ofNat (saturatingMul u64Max seqId.toNat 1000000)))
      next

/-- Appends events one after another. -/
def appendEvents (chain : ChainRpcConfig) (nowUnixMs : Int64) (payloads : List EventPayload)
    (next : Pipeline) : Pipeline :=
  payloads.foldr (appendEvent chain nowUnixMs) next

/-! ## The scheduler's decision -/

/-- What the scheduler's admission means for what is persisted. -/
inductive SchedulerPersistenceDecision where
  | admitted
  | duplicate
  | replaced (replacedHash : TxHash)
  | dropped (reason : String)
  deriving DecidableEq

namespace SchedulerPersistenceDecision

/-- The reading of an admission; the two refusals become drops with a reason. -/
def fromAdmission : SchedulerAdmission → SchedulerPersistenceDecision
  | .admitted => .admitted
  | .duplicate => .duplicate
  | .replaced replacedHash => .replaced replacedHash
  | .underpricedReplacement => .dropped "underpriced_replacement"
  | .senderLimitReached => .dropped "sender_limit_reached"

/-- Whether the transaction entered the pending set, new or as a replacement. -/
def isAdmitted : SchedulerPersistenceDecision → Bool
  | .admitted | .replaced _ => true
  | _ => false

/-- Only an admitted transaction is announced as decoded. -/
def emitsDecoded (decision : SchedulerPersistenceDecision) : Bool := decision.isAdmitted

/-- The hash that had to leave its slot, if one did. -/
def replacedHash : SchedulerPersistenceDecision → Option TxHash
  | .replaced replacedHash => some replacedHash
  | _ => none

/-- The reason of a drop. -/
def droppedReason : SchedulerPersistenceDecision → Option String
  | .dropped reason => some reason
  | _ => none

end SchedulerPersistenceDecision

/-- The event of a queue transition. -/
def queueTransitionPayload (transition : SchedulerQueueTransition) : EventPayload :=
  match transition.state with
  | .ready =>
    .txReady { hash := transition.hash, sender := transition.sender, nonce := transition.nonce }
  | .blocked expectedNonce =>
    .txBlocked
      { hash := transition.hash, sender := transition.sender, nonce := transition.nonce
        expectedNonce := some expectedNonce }

/-- The transaction handed to the scheduler, stamped with the chain's source and the observation.
-/
def validatedTransactionFromLiveTx (chain : ChainRpcConfig) (observation : PendingHashObservation)
    (tx : LiveTx) : ValidatedTransaction where
  sourceId := chain.sourceId
  observedAtUnixMs := observation.observedAtUnixMs
  observedAtMonoNs := observation.observedAtMonoNs
  calldata := tx.input
  decoded :=
    { hash := tx.hash, txType := tx.txType, sender := tx.sender, nonce := tx.nonce
      chainId := tx.chainId.or chain.chainId, toAddress := tx.toAddress, valueWei := tx.valueWei
      gasLimit := tx.gasLimit, gasPriceWei := tx.gasPriceWei
      maxFeePerGasWei := tx.maxFeePerGasWei
      maxPriorityFeePerGasWei := tx.maxPriorityFeePerGasWei
      maxFeePerBlobGasWei := tx.maxFeePerBlobGasWei
      calldataLen := some (UInt32.ofNat tx.input.length) }

/-! ## Records -/

/-- The transaction's own chain id, else the configured one. -/
def resolveRecordChainId (configuredChainId txChainId : Option UInt64) : Option UInt64 :=
  txChainId.or configuredChainId

/-- What the feature engine reads of a fetched transaction. -/
def featureInput (tx : LiveTx) : FeatureInput where
  toAddress := tx.toAddress
  calldata := tx.input
  txType := tx.txType
  chainId := tx.chainId
  gasLimit := tx.gasLimit
  valueWei := tx.valueWei
  gasPriceWei := tx.gasPriceWei
  maxFeePerGasWei := tx.maxFeePerGasWei
  maxPriorityFeePerGasWei := tx.maxPriorityFeePerGasWei
  maxFeePerBlobGasWei := tx.maxFeePerBlobGasWei

/-- The full record stored of a fetched transaction. -/
def txFullRecord (chain : ChainRpcConfig) (tx : LiveTx) : TxFullRecord where
  hash := tx.hash
  txType := tx.txType
  sender := tx.sender
  nonce := tx.nonce
  toAddress := tx.toAddress
  chainId := resolveRecordChainId chain.chainId tx.chainId
  valueWei := tx.valueWei
  gasLimit := tx.gasLimit
  gasPriceWei := tx.gasPriceWei
  maxFeePerGasWei := tx.maxFeePerGasWei
  maxPriorityFeePerGasWei := tx.maxPriorityFeePerGasWei
  maxFeePerBlobGasWei := tx.maxFeePerBlobGasWei
  calldataLen := some (UInt32.ofNat tx.input.length)
  rawTx := tx.input

/-- The feature record stored of a fetched transaction. -/
def txFeaturesRecord (chain : ChainRpcConfig) (tx : LiveTx) : TxFeaturesRecord :=
  let analysis := analyzeTransaction (featureInput tx)
  { hash := tx.hash
    chainId := resolveRecordChainId chain.chainId tx.chainId
    protocol := analysis.protocol
    category := analysis.category
    mevScore := UInt16.ofNat analysis.mevScore
    urgencyScore := UInt16.ofNat analysis.urgencyScore
    methodSelector := analysis.methodSelector
    featureEngineVersion := FeatureEngine.version }

/-- A `0x`-prefixed lowercase hex string. -/
def formatFixedHex {width : Nat} (bytes : BitVec width) : String := hexText bytes

/-! ## Opportunities -/

/-- The searcher's score threshold in the live pipeline. -/
def searcherMinScore : Nat := 0

/-- The searcher's bound on candidates in the live pipeline. -/
def searcherMaxCandidates : Nat := 8

/-- Runs the searcher over the executable transactions and joins each candidate to its record. -/
def buildExecutableOpportunities (executable : List ValidatedTransaction) (detectedUnixMs : Int64)
    (chainId : Option UInt64) : List ExecutableOpportunity :=
  if executable.isEmpty then []
  else
    let batch := executable.map fun tx => { decoded := tx.decoded, calldata := tx.calldata }
    let ranked := rankOpportunityBatch batch
      { minScore := searcherMinScore, maxCandidates := searcherMaxCandidates }
    ranked.candidates.map fun candidate =>
      { record :=
          { txHash := candidate.txHash
            chainId := chainId
            strategy := candidate.strategy.debug
            score := UInt32.ofNat candidate.score
            protocol := candidate.protocol
            category := candidate.category
            featureEngineVersion := candidate.featureEngineVersion
            scorerVersion := candidate.scorerVersion
            strategyVersion := candidate.strategyVersion
            reasons := candidate.reasons
            detectedUnixMs := detectedUnixMs }
        candidate := candidate }

/-- The ready transactions among the transitions, each hash once. -/
def readyHashes (queueTransitions : List SchedulerQueueTransition) : List TxHash :=
  ((queueTransitions.filter fun transition => transition.state = .ready).map (·.hash)).eraseDups

/-- Asks the scheduler for the transactions that have just become ready, if any have. -/
def readyTransactionsForQueueTransitions (queueTransitions : List SchedulerQueueTransition)
    (next : List ValidatedTransaction → Pipeline) : Pipeline :=
  let hashes := readyHashes queueTransitions
  if hashes.isEmpty then next []
  else .call (.getPendingTransactions hashes) next

/-- Asks for the whole ready frontier when some transaction has just become ready. -/
def readyFrontierForQueueTransitions (queueTransitions : List SchedulerQueueTransition)
    (next : List ValidatedTransaction → Pipeline) : Pipeline :=
  if queueTransitions.any fun transition => transition.state = .ready then .call .snapshotReady next
  else next []

/-- The event announcing an opportunity. -/
def buildOpportunityDetectedPayload (opportunity : OpportunityRecord) : EventPayload :=
  .oppDetected
    { hash := opportunity.txHash
      strategy := opportunity.strategy
      score := opportunity.score
      protocol := opportunity.protocol
      category := opportunity.category
      featureEngineVersion := opportunity.featureEngineVersion
      scorerVersion := opportunity.scorerVersion
      strategyVersion := opportunity.strategyVersion
      reasons := opportunity.reasons }

/-- The event announcing a registered candidate. -/
def buildCandidateQueuedPayload (candidate : SchedulerCandidate) (opportunity : OpportunityRecord) :
    EventPayload :=
  .candidateQueued
    { candidateId := candidate.candidateId
      txHash := candidate.txHash
      memberTxHashes := candidate.memberTxHashes
      chainId := opportunity.chainId
      strategy := candidate.strategy
      score := candidate.score
      protocol := opportunity.protocol
      category := opportunity.category
      featureEngineVersion := opportunity.featureEngineVersion
      scorerVersion := opportunity.scorerVersion
      strategyVersion := opportunity.strategyVersion
      reasons := opportunity.reasons
      detectedUnixMs := candidate.detectedUnixMs }

/-- The event announcing a dispatched simulation. -/
def buildSimDispatchedPayload (spec : SimulationTaskSpec) : EventPayload :=
  .simDispatched
    { candidateId := spec.candidateId
      txHash := spec.txHash
      memberTxHashes := spec.memberTxHashes
      blockNumber := spec.blockNumber }

/-- The scheduler's candidate for an opportunity; its id is the strategy and the hashes of its
members. -/
def schedulerCandidateFromExecutableOpportunity (opportunity : ExecutableOpportunity) :
    SchedulerCandidate where
  candidateId :=
    opportunity.candidate.strategy.debug ++ ":" ++ formatFixedHex opportunity.record.txHash
  txHash := opportunity.record.txHash
  memberTxHashes :=
    if opportunity.candidate.memberTxHashes.isEmpty then [opportunity.record.txHash]
    else opportunity.candidate.memberTxHashes
  score := opportunity.record.score
  strategy := opportunity.record.strategy
  detectedUnixMs := opportunity.record.detectedUnixMs

/-- The transactions to simulate: the members, with their executable predecessors. There is no
request when a member is not executable. -/
def buildRemoteSimulationRequest (opportunity : ExecutableOpportunity)
    (executable : List ValidatedTransaction) : Option RemoteSimulationRequest := do
  let requestedHashes :=
    if opportunity.candidate.memberTxHashes.isEmpty then [opportunity.record.txHash]
    else opportunity.candidate.memberTxHashes
  let requestedTxs ← requestedHashes.mapM fun hash => executable.find? fun tx => tx.hash = hash
  let predecessors := requestedTxs.flatMap fun requested =>
    (executable.filter fun candidate =>
      candidate.decoded.sender = requested.decoded.sender ∧
        candidate.decoded.nonce ≤ requested.decoded.nonce).map (·.hash)
  let txs := executable.filter fun tx => tx.hash ∈ requestedHashes ++ predecessors
  return {
    txHash := opportunity.record.txHash
    memberTxHashes := txs.map (·.hash)
    txs := txs
    detectedUnixMs := opportunity.record.detectedUnixMs }

/-- The key that groups requests for the same transactions, whatever the order of the members. -/
def simulationTaskKey (request : RemoteSimulationRequest) : String :=
  let members := sortBy compare (request.memberTxHashes.map formatFixedHex)
  formatFixedHex request.txHash ++ ":" ++ ",".intercalate members

/-! ## Simulation tasks -/

/-- A candidate to register, with its request and its opportunity. -/
structure PreparedSimulationTask where
  candidate : SchedulerCandidate
  request : RemoteSimulationRequest
  opportunity : ExecutableOpportunity
  deriving DecidableEq

/-- The opportunities whose members are all in the context, each with its request. -/
def prepareSimulationTasks (opportunities : List ExecutableOpportunity)
    (simulationContext : List ValidatedTransaction) : List PreparedSimulationTask :=
  opportunities.filterMap fun opportunity =>
    (buildRemoteSimulationRequest opportunity simulationContext).map fun request =>
      { candidate := schedulerCandidateFromExecutableOpportunity opportunity
        request := request
        opportunity := opportunity }

/-- Tasks with one key share one request, that of the first of them. -/
abbrev GroupedTasks := ExtTreeMap String (RemoteSimulationRequest × List RegisteredSimulationCandidate)

/-- Adds a registered candidate to the group of its request's key. -/
def GroupedTasks.push (grouped : GroupedTasks) (request : RemoteSimulationRequest)
    (registered : RegisteredSimulationCandidate) : GroupedTasks :=
  let key := simulationTaskKey request
  match grouped[key]? with
  | some (first, candidates) => grouped.insert key (first, candidates ++ [registered])
  | none => grouped.insert key (request, [registered])

/-- Announces the registered candidates and groups them by simulation task. -/
def queueCandidates (chain : ChainRpcConfig) (nowUnixMs : Int64) (next : GroupedTasks → Pipeline) :
    GroupedTasks → List (SimulationTaskSpec × PreparedSimulationTask) → Pipeline
  | grouped, [] => next grouped
  | grouped, (spec, prepared) :: rest =>
    appendEvent chain nowUnixMs
      (buildCandidateQueuedPayload prepared.candidate prepared.opportunity.record)
      (queueCandidates chain nowUnixMs next
        (grouped.push prepared.request { spec := spec, opportunity := prepared.opportunity }) rest)

/-- Enqueues the simulation tasks, and announces the candidates of each task that was taken. -/
def dispatchTasks (chain : ChainRpcConfig) (nowUnixMs : Int64) :
    List (RemoteSimulationRequest × List RegisteredSimulationCandidate) → Pipeline
  | [] => .done (.ok ())
  | (request, candidates) :: rest =>
    .call
      (.enqueueSimulationTask
        { chain := chain, request := request, candidates := candidates
          enqueuedUnixMs := nowUnixMs })
      fun
      | .error error => .done (.error error)
      | .ok false => dispatchTasks chain nowUnixMs rest
      | .ok true =>
        appendEvents chain nowUnixMs
          (candidates.map fun candidate => buildSimDispatchedPayload candidate.spec)
          (dispatchTasks chain nowUnixMs rest)

/-- Registers the prepared candidates, groups the issued tasks and enqueues one simulation a
group. -/
def registerAndDispatch (chain : ChainRpcConfig) (nowUnixMs : Int64)
    (prepared : List PreparedSimulationTask) : Pipeline :=
  if prepared.isEmpty then .done (.ok ())
  else
    .call (.registerCandidates (prepared.map (·.candidate))) fun
      | .error error =>
        .done (.error ("scheduler candidate registration failed: " ++ error.debug))
      | .ok simulationTasks =>
        queueCandidates chain nowUnixMs
          (fun grouped => dispatchTasks chain nowUnixMs (grouped.toList.map Prod.snd))
          ∅ (simulationTasks.zip prepared)

/-! ## Processing a transaction -/

/-- The observation: `TxSeen` first, so that no decoded or queue event exists without it. -/
def appendObservation (arrival : Arrival) (next : Pipeline) : Pipeline :=
  .call .fetchAddSeqId fun _ =>
    tryEnqueueStorageWrite
        (.appendPayload arrival.chain.sourceId
          (.txSeen
            { hash := arrival.hash, peerId := "rpc-ws"
              seenAtUnixMs := arrival.observation.observedAtUnixMs
              seenAtMonoNs := arrival.observation.observedAtMonoNs })
          arrival.observation.observedAtUnixMs arrival.observation.observedAtMonoNs) <|
      tryEnqueueStorageWrite
          (.upsertTxSeen
            { hash := arrival.hash, peer := "rpc-ws"
              firstSeenUnixMs := arrival.observation.observedAtUnixMs
              firstSeenMonoNs := arrival.observation.observedAtMonoNs, seenCount := 1 }) <|
        appendEvent arrival.chain arrival.processedAtUnixMs
          (.txFetched { hash := arrival.hash, fetchedAtUnixMs := arrival.processedAtUnixMs }) next

/-- A replacement is announced, and the candidates of the replaced hash are invalidated. -/
def appendReplacement (arrival : Arrival) (txHash : TxHash) (replacedHash : Option TxHash)
    (next : Pipeline) : Pipeline :=
  match replacedHash with
  | none => next
  | some replacedHash =>
    appendEvent arrival.chain arrival.processedAtUnixMs
        (.txReplaced { hash := replacedHash, replacedBy := txHash }) <|
      .call (.invalidateCandidateHash replacedHash) fun
        | .ok () => next
        | .error error =>
          .done (.error ("scheduler candidate invalidation failed: " ++ error.debug))

/-- What happens after the queue transitions of the admission are logged. -/
def exploreOpportunities (arrival : Arrival) (chainId : Option UInt64)
    (executable simulationContext : List ValidatedTransaction) : Pipeline :=
  let opportunities := buildExecutableOpportunities executable arrival.processedAtUnixMs chainId
  let records := opportunities.map (·.record)
  let announced :=
    appendEvents arrival.chain arrival.processedAtUnixMs
        (records.map buildOpportunityDetectedPayload) <|
      registerAndDispatch arrival.chain arrival.processedAtUnixMs
        (prepareSimulationTasks opportunities simulationContext)
  if executable.isEmpty || records.isEmpty then announced
  else .call (.observeSearcherBatch records) fun _ => announced

/-- The persistence of a fetched transaction, given the scheduler's decision. -/
def persistTransaction (arrival : Arrival) (tx : LiveTx) (decision : SchedulerPersistenceDecision)
    (queueTransitions : List SchedulerQueueTransition) : Pipeline :=
  let decoded := (validatedTransactionFromLiveTx arrival.chain arrival.observation tx).decoded
  tryEnqueueStorageWrite (.upsertTxFull (txFullRecord arrival.chain tx)) <|
    tryEnqueueStorageWrite (.upsertTxFeatures (txFeaturesRecord arrival.chain tx)) <|
      appendReplacement arrival tx.hash decision.replacedHash <|
        appendEvents arrival.chain arrival.processedAtUnixMs
            (if decision.emitsDecoded then [.txDecoded decoded] else []) <|
          appendEvents arrival.chain arrival.processedAtUnixMs
              (decision.droppedReason.toList.map fun reason =>
                .txDropped { hash := tx.hash, reason := reason }) <|
            readyTransactionsForQueueTransitions queueTransitions fun executable =>
              readyFrontierForQueueTransitions queueTransitions fun simulationContext =>
                appendEvents arrival.chain arrival.processedAtUnixMs
                    (queueTransitions.map queueTransitionPayload) <|
                  exploreOpportunities arrival
                    (resolveRecordChainId arrival.chain.chainId tx.chainId)
                    executable simulationContext

/-- `process_pending_hash_with_fetched_tx_with_owner`. -/
def processPendingHashWithFetchedTx (arrival : Arrival) : Pipeline :=
  match arrival.fetchedTx with
  | none => appendObservation arrival (.done (.ok ()))
  | some tx =>
    let persist decision queueTransitions :=
      appendObservation arrival (persistTransaction arrival tx decision queueTransitions)
    .call (.admitOutcome (validatedTransactionFromLiveTx arrival.chain arrival.observation tx)) fun
      | .ok outcome =>
        persist (.fromAdmission outcome.admission) outcome.queueTransitions
      | .error .queueFull => persist (.dropped "queue_full") []
      | .error .queueClosed => .done (.error "scheduler admission failed: queue closed")

/-- A worker processes its arrivals one after another, until one of them fails. -/
def processArrivals : List Arrival → Pipeline
  | [] => .done (.ok ())
  | arrival :: rest =>
    (processPendingHashWithFetchedTx arrival).bind fun
      | .ok () => processArrivals rest
      | .error error => .done (.error error)

/-! ## Samples -/

/-- The sample transaction of the crate's tests. -/
def sampleLiveTx (hash : TxHash) (sender : Address) (nonce : UInt64) (maxFeePerGasWei : U128) :
    LiveTx where
  hash := hash
  sender := sender
  toAddress := some 7
  nonce := nonce
  txType := 2
  valueWei := some 10
  gasLimit := some 21000
  chainId := some 1
  gasPriceWei := none
  maxFeePerGasWei := some maxFeePerGasWei
  maxPriorityFeePerGasWei := some 3
  maxFeePerBlobGasWei := none
  input := [0xaa, 0xbb, 0xcc]

/-- The default mainnet configuration, used by the examples below. -/
def sampleChain : ChainRpcConfig where
  chainKey := "eth-mainnet"
  chainId := some 1
  endpoints := [{ wsUrl := "ws://127.0.0.1:8546", httpUrl := "http://127.0.0.1:8545" }]
  sourceId := "rpc-mainnet"

/-- A fetched transaction of the sample chain. -/
def sampleArrival (tx : LiveTx) : Arrival where
  chain := sampleChain
  observation := { observedAtUnixMs := 1700000000000, observedAtMonoNs := 1 }
  hash := tx.hash
  fetchedTx := some tx
  processedAtUnixMs := 1700000000001

end Mempulse.LiveRpc
