import Mempulse.LiveRpc.SimulationWorkers
import Mempulse.SimEngine.StateDiff

/-!
# Simulated batches

A batch is executed transaction by transaction against one database, seeded with an account for
every sender. The machine that executes a transaction is outside this repository and a parameter
here. Every outcome is fed to a digest as it comes, so that the digest of a batch names its block
and the sequence of its results (`finalStateDiffHash_eq_iff`). With a provider that knows every
sender, what is seeded depends on the set of senders only, so a longer bundle of the same senders
starts with the results of the shorter one (`simulateWithMode_append`).
-/

set_option autoImplicit false

namespace Mempulse.SimEngine

open Std EventLog Library Replay
open LiveRpc (SimulationFailCategory)

/-! ## Data -/

/-- Block and chain context shared across a simulation batch. -/
structure ChainContext where
  chainId : UInt64
  blockNumber : UInt64
  blockTimestamp : UInt64
  gasLimit : UInt64
  baseFeeWei : U128
  coinbase : Address
  stateRoot : TxHash
  deriving DecidableEq

/-- Simulation outcome for one transaction hash. -/
structure TxSimulationResult where
  hash : TxHash
  success : Bool
  gasUsed : UInt64
  stateDiffHash : Digest
  failCategory : Option SimulationFailCategory
  traceId : UInt64
  deriving DecidableEq

/-- Aggregate simulation output for a batch executed against one chain context. -/
structure SimulationBatchResult where
  chainContext : ChainContext
  txResults : List TxSimulationResult
  finalStateDiffHash : Digest
  deriving DecidableEq

/-- Transaction input accepted by the simulator. -/
structure SimulationTxInput where
  decoded : TxDecoded
  calldata : Option (List UInt8)
  deriving DecidableEq

/-- Minimal account state needed to seed the simulator. -/
structure AccountSeed where
  balanceWei : U128
  nonce : UInt64
  deriving DecidableEq

/-- Execution mode for the simulator. A provider answers with an account, with nothing, or fails. -/
inductive SimulationMode (ε : Type) where
  | syntheticDeterministic
  | rpcBacked (accountSeed : Address → Except ε (Option AccountSeed))

/-! ## The machine -/

/-- Why a transaction is not executed, as far as the categories tell the reasons apart. -/
inductive InvalidTransaction where
  | nonceTooHigh
  | nonceTooLow
  | callGasCostMoreThanGasLimit
  | gasFloorMoreThanGasLimit
  | gasPriceLessThanBasefee
  | other
  deriving DecidableEq

/-- The errors of the machine that the categories tell apart. -/
inductive EvmError where
  | transaction (invalid : InvalidTransaction)
  | header
  | database
  | custom
  deriving DecidableEq

/-- Why an execution halted. -/
inductive HaltReason where
  | outOfGas
  | other
  deriving DecidableEq

/-- How an execution ended. -/
inductive ExecutionResult where
  | success
  | revert
  | halt (reason : HaltReason)
  deriving DecidableEq

/-- What the machine returns of one transaction. -/
structure ResultAndState where
  result : ExecutionResult
  gasUsed : UInt64
  state : EvmState

/-- What the machine is told of the chain and the block. -/
structure BlockEnv where
  chainId : UInt64
  number : UInt64
  timestamp : UInt64
  gasLimit : UInt64
  basefee : UInt64
  beneficiary : Address
  deriving DecidableEq

/-- What the machine is told of a transaction. Its access lists, blobs and authorizations are always
empty. -/
structure TxEnv where
  txType : UInt8
  caller : Address
  gasLimit : UInt64
  gasPrice : U128
  kind : Option Address
  value : U128
  data : List UInt8
  nonce : UInt64
  chainId : UInt64
  gasPriorityFee : Option U128
  maxFeePerBlobGas : U128
  deriving DecidableEq

/-- The machine and its database. An execution may change the database, a cache say, but its effects
are committed apart. Results and errors come with the text that debugging shows of them. -/
structure Revm (Db : Type) where
  initial : Db
  insertAccountInfo : Db → Address → AccountSeed → Db
  transact : BlockEnv → Db → TxEnv →
    Db × Except (EvmError × List UInt8) (ResultAndState × List UInt8)
  commit : Db → EvmState → Db

/-- The digest, and the orders in which the maps of a state are listed. -/
structure Hashing where
  sha256 : List UInt8 → Digest
  iteration : StateIteration

/-! ## One transaction -/

/-- The longest calldata made up for a transaction that has none. -/
def maxSyntheticCalldataBytes : Nat := 8192

/-- The balance a synthetic account is seeded with. -/
def seededBalanceWei : U128 := 1000000000000000000000000000000

/-- `Some(v).filter(|v| *v > 0)` of the priority fee cut at the gas price, and the other fields with
their defaults. -/
def txEnvFromInput (chainContext : ChainContext) (input : SimulationTxInput) : TxEnv :=
  let tx := input.decoded
  let offered := (tx.gasPriceWei.or tx.maxFeePerGasWei).getD
    (if chainContext.baseFeeWei < 1 then 1 else chainContext.baseFeeWei)
  let gasPrice := if offered < chainContext.baseFeeWei then chainContext.baseFeeWei else offered
  let calldataLen := min (tx.calldataLen.getD 0).toNat maxSyntheticCalldataBytes
  { txType := tx.txType
    caller := tx.sender
    gasLimit := max (tx.gasLimit.getD 210000) 21000
    gasPrice := gasPrice
    kind := tx.toAddress
    value := tx.valueWei.getD 0
    data := (input.calldata.map fun bytes => bytes.take maxSyntheticCalldataBytes).getD
      (List.replicate calldataLen 0)
    nonce := tx.nonce
    chainId := tx.chainId.getD chainContext.chainId
    gasPriorityFee := (tx.maxPriorityFeePerGasWei.map fun fee =>
      if fee < gasPrice then fee else gasPrice).filter (0 < ·)
    maxFeePerBlobGas := tx.maxFeePerBlobGasWei.getD 0 }

/-- The block the machine runs in. -/
def ChainContext.blockEnv (chainContext : ChainContext) : BlockEnv where
  chainId := chainContext.chainId
  number := chainContext.blockNumber
  timestamp := chainContext.blockTimestamp
  gasLimit := chainContext.gasLimit
  basefee := UInt64.ofNat (min chainContext.baseFeeWei.toNat u64Max)
  beneficiary := chainContext.coinbase

/-- The category of an execution that was not a success. -/
def categorizeExecutionResult : ExecutionResult → Option SimulationFailCategory
  | .success => none
  | .revert => some .revert
  | .halt .outOfGas => some .outOfGas
  | .halt .other => some .unknown

/-- The category of a transaction the machine refused. -/
def categorizeSimulationError : EvmError → SimulationFailCategory
  | .transaction .nonceTooHigh => .nonceMismatch
  | .transaction .nonceTooLow => .nonceMismatch
  | .transaction .callGasCostMoreThanGasLimit => .outOfGas
  | .transaction .gasFloorMoreThanGasLimit => .outOfGas
  | .transaction .gasPriceLessThanBasefee => .outOfGas
  | .transaction .other => .unknown
  | .database => .stateMismatch
  | .header => .unknown
  | .custom => .unknown

/-- The byte that stands for a category in the digest. -/
def failCategoryTag : SimulationFailCategory → UInt8
  | .revert => 1
  | .outOfGas => 2
  | .nonceMismatch => 3
  | .stateMismatch => 4
  | .unknown => 5

/-- The first eight bytes of a digest, the least significant first. -/
def digestTraceId (digest : Digest) : UInt64 :=
  UInt64.ofNat ((digest.toList.take 8).foldr (fun byte above => byte.toNat + 256 * above) 0)

/-- The trace id of an executed transaction. -/
def traceIdFromExecution (sha256 : List UInt8 → Digest) (hash : TxHash) (shown : List UInt8)
    (stateDiffHash : Digest) : UInt64 :=
  digestTraceId (sha256 (arrayBytes hash ++ shown ++ stateDiffHash.toList))

/-- The trace id of a refused one. -/
def traceIdFromError (sha256 : List UInt8 → Digest) (hash : TxHash) (shown : List UInt8) : UInt64 :=
  digestTraceId (sha256 (arrayBytes hash ++ shown))

/-! ## The batch -/

/-- The state of the loop: the database, what was fed to the digest, and the results. -/
structure BatchState (Db : Type) where
  db : Db
  aggregate : List UInt8
  txResults : List TxSimulationResult := []

section Simulation

variable {Db ε : Type} (revm : Revm Db) (hashing : Hashing) (chainContext : ChainContext)

/-- One turn of the loop. -/
def simulateTx (batch : BatchState Db) (tx : SimulationTxInput) : BatchState Db :=
  match revm.transact chainContext.blockEnv batch.db (txEnvFromInput chainContext tx) with
  | (db, .ok (executed, shown)) =>
    let success := decide (executed.result = .success)
    let stateDiffHash := hashStateDiff hashing.sha256 hashing.iteration executed.state
    let failCategory := categorizeExecutionResult executed.result
    let traceId := traceIdFromExecution hashing.sha256 tx.decoded.hash shown stateDiffHash
    { db := revm.commit db executed.state
      aggregate := batch.aggregate ++ arrayBytes tx.decoded.hash ++
        leBytes executed.gasUsed.toBitVec ++ [success.toUInt8] ++ stateDiffHash.toList ++
          leBytes traceId.toBitVec ++ [(failCategory.map failCategoryTag).getD 0]
      txResults := batch.txResults ++
        [{ hash := tx.decoded.hash, success := success, gasUsed := executed.gasUsed
           stateDiffHash := stateDiffHash, failCategory := failCategory, traceId := traceId }] }
  | (db, .error (error, shown)) =>
    let failCategory := categorizeSimulationError error
    let traceId := traceIdFromError hashing.sha256 tx.decoded.hash shown
    let stateDiffHash : Digest := List.Vector.replicate 32 0
    { db := db
      aggregate := batch.aggregate ++ arrayBytes tx.decoded.hash ++ leBytes 0 ++ [0] ++
        stateDiffHash.toList ++ leBytes traceId.toBitVec ++ [failCategoryTag failCategory]
      txResults := batch.txResults ++
        [{ hash := tx.decoded.hash, success := false, gasUsed := 0, stateDiffHash := stateDiffHash
           failCategory := some failCategory, traceId := traceId }] }

/-- The least nonce of every sender. -/
def senderStartNonce (txs : List SimulationTxInput) : ExtTreeMap Address UInt64 :=
  txs.foldl (fun nonces tx => nonces.alter tx.decoded.sender fun
    | none => some tx.decoded.nonce
    | some nonce => some (min nonce tx.decoded.nonce)) ∅

/-- The account a sender is seeded with: what the provider answers, and otherwise a funded account at
the least nonce. -/
def seedFor (mode : SimulationMode ε) (sender : Address) (nonce : UInt64) : Except ε AccountSeed :=
  match mode with
  | .syntheticDeterministic => .ok { balanceWei := seededBalanceWei, nonce := nonce }
  | .rpcBacked accountSeed =>
    (accountSeed sender).map fun seeded =>
      { balanceWei := (seeded.map AccountSeed.balanceWei).getD seededBalanceWei
        nonce := (seeded.map AccountSeed.nonce).getD nonce }

/-- The database with every sender's account, at the least nonce of the batch. -/
def seedSenderAccounts (txs : List SimulationTxInput) (mode : SimulationMode ε) : Except ε Db :=
  (senderStartNonce txs).toList.foldlM (fun db entry =>
    (seedFor mode entry.1 entry.2).map (revm.insertAccountInfo db entry.1)) revm.initial

/-- The bytes of the context in the digest. -/
def contextBytes : List UInt8 :=
  arrayBytes chainContext.stateRoot ++ leBytes chainContext.chainId.toBitVec ++
    leBytes chainContext.blockNumber.toBitVec ++ leBytes chainContext.blockTimestamp.toBitVec

/-- The loop over the transactions of a batch. -/
def simulateTxs (db : Db) (txs : List SimulationTxInput) : BatchState Db :=
  txs.foldl (simulateTx revm hashing chainContext)
    { db := db, aggregate := contextBytes chainContext }

/-- Runs a simulation batch using the requested execution mode. -/
def simulateWithMode (txs : List SimulationTxInput) (mode : SimulationMode ε) :
    Except ε SimulationBatchResult :=
  (seedSenderAccounts revm txs mode).map fun db =>
    let batch := simulateTxs revm hashing chainContext db txs
    { chainContext := chainContext
      txResults := batch.txResults
      finalStateDiffHash := hashing.sha256 batch.aggregate }

/-- Runs a deterministic simulation batch without any external state lookups. -/
def simulateDeterministic (txs : List TxDecoded) : Except ε SimulationBatchResult :=
  simulateWithMode revm hashing chainContext
    (txs.map fun decoded => { decoded := decoded, calldata := none }) .syntheticDeterministic

/-! ## What is fed to the digest -/

/-- The bytes of one result in the digest; every field has a fixed width. -/
def resultBytes (result : TxSimulationResult) : List UInt8 :=
  arrayBytes result.hash ++ leBytes result.gasUsed.toBitVec ++ [result.success.toUInt8] ++
    result.stateDiffHash.toList ++ leBytes result.traceId.toBitVec ++
      [(result.failCategory.map failCategoryTag).getD 0]

/-- The database after a transaction, and its result. -/
def txOutcome (db : Db) (tx : SimulationTxInput) : Db × TxSimulationResult :=
  match revm.transact chainContext.blockEnv db (txEnvFromInput chainContext tx) with
  | (after, .ok (executed, shown)) =>
    let stateDiffHash := hashStateDiff hashing.sha256 hashing.iteration executed.state
    (revm.commit after executed.state,
      { hash := tx.decoded.hash
        success := decide (executed.result = .success)
        gasUsed := executed.gasUsed
        stateDiffHash := stateDiffHash
        failCategory := categorizeExecutionResult executed.result
        traceId := traceIdFromExecution hashing.sha256 tx.decoded.hash shown stateDiffHash })
  | (after, .error (error, shown)) =>
    (after,
      { hash := tx.decoded.hash
        success := false
        gasUsed := 0
        stateDiffHash := List.Vector.replicate 32 0
        failCategory := some (categorizeSimulationError error)
        traceId := traceIdFromError hashing.sha256 tx.decoded.hash shown })

/-- **What a turn of the loop does**: it appends one result, and the bytes of that result. -/
theorem simulateTx_eq (batch : BatchState Db) (tx : SimulationTxInput) :
    simulateTx revm hashing chainContext batch tx =
      { db := (txOutcome revm hashing chainContext batch.db tx).1
        aggregate := batch.aggregate ++ resultBytes (txOutcome revm hashing chainContext batch.db tx).2
        txResults := batch.txResults ++ [(txOutcome revm hashing chainContext batch.db tx).2] } := by
  unfold simulateTx txOutcome
  rcases revm.transact chainContext.blockEnv batch.db (txEnvFromInput chainContext tx) with
    ⟨after, ⟨error, shown⟩ | ⟨executed, shown⟩⟩
  · simp only [resultBytes, List.append_assoc]
    rfl
  · simp only [resultBytes, List.append_assoc]

/-- The hash is that of the transaction, and a category stands exactly beside a failure. -/
theorem txOutcome_labels (db : Db) (tx : SimulationTxInput) :
    (txOutcome revm hashing chainContext db tx).2.hash = tx.decoded.hash ∧
      ((txOutcome revm hashing chainContext db tx).2.success = true ↔
        (txOutcome revm hashing chainContext db tx).2.failCategory = none) := by
  unfold txOutcome
  rcases revm.transact chainContext.blockEnv db (txEnvFromInput chainContext tx) with
    ⟨after, ⟨error, shown⟩ | ⟨executed, shown⟩⟩
  · exact ⟨rfl, by simp⟩
  · refine ⟨rfl, ?_⟩
    rcases executed with ⟨_ | _ | ⟨_ | _⟩, _, _⟩ <;> simp [categorizeExecutionResult]

/-- The results of a batch, started from a database. -/
def resultsFrom : Db → List SimulationTxInput → List TxSimulationResult
  | _, [] => []
  | db, tx :: txs =>
    (txOutcome revm hashing chainContext db tx).2 ::
      resultsFrom (txOutcome revm hashing chainContext db tx).1 txs

theorem foldl_simulateTx (txs : List SimulationTxInput) (batch : BatchState Db) :
    (txs.foldl (simulateTx revm hashing chainContext) batch).txResults =
        batch.txResults ++ resultsFrom revm hashing chainContext batch.db txs ∧
      (txs.foldl (simulateTx revm hashing chainContext) batch).aggregate =
        batch.aggregate ++ (resultsFrom revm hashing chainContext batch.db txs).flatMap resultBytes := by
  induction txs generalizing batch with
  | nil => exact ⟨(List.append_nil _).symm, (List.append_nil _).symm⟩
  | cons tx txs ih =>
      obtain ⟨results, aggregate⟩ := ih (simulateTx revm hashing chainContext batch tx)
      rw [List.foldl_cons, results, aggregate, simulateTx_eq, resultsFrom, List.flatMap_cons]
      simp only [List.append_assoc, List.singleton_append, and_self]

/-- Later transactions leave the results of earlier ones as they are. -/
theorem resultsFrom_append (db : Db) (txs more : List SimulationTxInput) :
    ∃ after, resultsFrom revm hashing chainContext db (txs ++ more) =
      resultsFrom revm hashing chainContext db txs ++
        resultsFrom revm hashing chainContext after more := by
  induction txs generalizing db with
  | nil => exact ⟨db, rfl⟩
  | cons tx txs ih =>
      obtain ⟨after, behind⟩ := ih (txOutcome revm hashing chainContext db tx).1
      exact ⟨after, congrArg _ behind⟩

theorem length_resultsFrom (db : Db) (txs : List SimulationTxInput) :
    (resultsFrom revm hashing chainContext db txs).length = txs.length := by
  induction txs generalizing db with
  | nil => rfl
  | cons tx txs ih => rw [resultsFrom, List.length_cons, List.length_cons, ih]

theorem map_hash_resultsFrom (db : Db) (txs : List SimulationTxInput) :
    (resultsFrom revm hashing chainContext db txs).map TxSimulationResult.hash =
      txs.map fun tx => tx.decoded.hash := by
  induction txs generalizing db with
  | nil => rfl
  | cons tx txs ih =>
      rw [resultsFrom, List.map_cons, List.map_cons, ih,
        (txOutcome_labels revm hashing chainContext db tx).1]

theorem labels_of_mem_resultsFrom {result : TxSimulationResult} {txs : List SimulationTxInput}
    (db : Db) (member : result ∈ resultsFrom revm hashing chainContext db txs) :
    result.success = true ↔ result.failCategory = none := by
  induction txs generalizing db with
  | nil => cases member
  | cons tx txs ih =>
      rcases List.mem_cons.mp member with rfl | later
      · exact (txOutcome_labels revm hashing chainContext db tx).2
      · exact ih _ later

end Simulation

/-! ## The digest of a batch -/

theorem failTag_injective : Function.Injective fun category : Option SimulationFailCategory =>
    (category.map failCategoryTag).getD 0 := by
  intro category other same
  rcases category with _ | _ | _ <;> rcases other with _ | _ | _ <;> first | rfl | cases same

theorem length_resultBytes (result : TxSimulationResult) : (resultBytes result).length = 82 := by
  simp [resultBytes, arrayBytes, leBytes]

theorem delimits_resultBytes : DelimitsOn (fun _ => True) resultBytes := by
  refine .of_length 82 length_resultBytes fun result other _ _ same => ?_
  simp only [resultBytes, List.append_assoc, List.singleton_append] at same
  obtain ⟨hash, same⟩ := delimits_arrayBytes (by decide) _ _ trivial trivial _ _ same
  obtain ⟨gasUsed, same⟩ := delimits_leBytes _ _ trivial trivial _ _ same
  obtain ⟨success, same⟩ := List.cons.inj same
  obtain ⟨stateDiff, same⟩ := List.append_inj same (by simp)
  obtain ⟨traceId, same⟩ := delimits_leBytes _ _ trivial trivial _ _ same
  have category := failTag_injective (List.cons.inj same).1
  rcases result with ⟨_, success₁, _, _, _, _⟩
  rcases other with ⟨_, success₂, _, _, _, _⟩
  have successes : success₁ = success₂ := by
    cases success₁ <;> cases success₂ <;> first | rfl | cases success
  cases hash
  cases UInt64.toBitVec_inj.mp gasUsed
  cases successes
  cases List.Vector.eq _ _ stateDiff
  cases UInt64.toBitVec_inj.mp traceId
  cases category
  rfl

/-- The part of a chain context that is fed to the digest. -/
def ChainContext.digested (chainContext : ChainContext) : TxHash × UInt64 × UInt64 × UInt64 :=
  (chainContext.stateRoot, chainContext.chainId, chainContext.blockNumber,
    chainContext.blockTimestamp)

/-- The bytes the final digest is taken of. -/
def batchBytes (chainContext : ChainContext) (results : List TxSimulationResult) : List UInt8 :=
  contextBytes chainContext ++ results.flatMap resultBytes

theorem length_flatMap_resultBytes (results : List TxSimulationResult) :
    (results.flatMap resultBytes).length = 82 * results.length := by
  induction results with
  | nil => rfl
  | cons result rest ih =>
      rw [List.flatMap_cons, List.length_append, ih, length_resultBytes, List.length_cons]
      omega

/-- The block and the results are read back from what is fed to the digest. -/
theorem batchBytes_inj {chainContext other : ChainContext} {results others : List TxSimulationResult} :
    batchBytes chainContext results = batchBytes other others ↔
      chainContext.digested = other.digested ∧ results = others := by
  constructor
  · intro same
    simp only [batchBytes, contextBytes, List.append_assoc] at same
    obtain ⟨stateRoot, same⟩ := delimits_arrayBytes (by decide) _ _ trivial trivial _ _ same
    obtain ⟨chainId, same⟩ := delimits_leBytes _ _ trivial trivial _ _ same
    obtain ⟨blockNumber, same⟩ := delimits_leBytes _ _ trivial trivial _ _ same
    obtain ⟨timestamp, same⟩ := delimits_leBytes _ _ trivial trivial _ _ same
    have lengths := congrArg List.length same
    rw [length_flatMap_resultBytes, length_flatMap_resultBytes] at lengths
    have listed := delimits_resultBytes.flatMap (fun _ _ => trivial) (fun _ _ => trivial)
      (Nat.eq_of_mul_eq_mul_left (by decide) lengths) (congrArg (· ++ []) same)
    refine ⟨?_, listed.1⟩
    rw [ChainContext.digested, ChainContext.digested, stateRoot, UInt64.toBitVec_inj.mp chainId,
      UInt64.toBitVec_inj.mp blockNumber, UInt64.toBitVec_inj.mp timestamp]
  · rintro ⟨contexts, rfl⟩
    obtain ⟨stateRoot, rest⟩ := Prod.mk.inj contexts
    obtain ⟨chainId, rest⟩ := Prod.mk.inj rest
    obtain ⟨blockNumber, timestamp⟩ := Prod.mk.inj rest
    rw [batchBytes, batchBytes, contextBytes, contextBytes, stateRoot, chainId, blockNumber,
      timestamp]

/-! ## Seeds -/

/-- A sender starts at the least of its nonces, and nobody else starts. -/
structure StartsAt (txs : List SimulationTxInput) (sender : Address) (nonce : UInt64) : Prop where
  offered : ∃ tx ∈ txs, tx.decoded.sender = sender ∧ tx.decoded.nonce = nonce
  least : ∀ tx ∈ txs, tx.decoded.sender = sender → nonce ≤ tx.decoded.nonce

theorem StartsAt.unique {txs : List SimulationTxInput} {sender : Address} {nonce other : UInt64}
    (starts : StartsAt txs sender nonce) (alsoStarts : StartsAt txs sender other) :
    nonce = other := by
  obtain ⟨tx, member, sent, rfl⟩ := starts.offered
  obtain ⟨another, also, alsoSent, rfl⟩ := alsoStarts.offered
  exact UInt64.le_antisymm (starts.least another also alsoSent) (alsoStarts.least tx member sent)

namespace StartsAt

variable {txs : List SimulationTxInput} {tx : SimulationTxInput} {sender : Address} {nonce : UInt64}

/-- A transaction of somebody else. -/
theorem concat_of_ne (starts : StartsAt txs sender nonce) (differs : tx.decoded.sender ≠ sender) :
    StartsAt (txs ++ [tx]) sender nonce := by
  obtain ⟨first, member, sent, started⟩ := starts.offered
  refine ⟨⟨first, List.mem_append_left _ member, sent, started⟩, fun another also same => ?_⟩
  rcases List.mem_append.mp also with earlier | last
  · exact starts.least another earlier same
  · exact absurd (List.mem_singleton.mp last ▸ same) differs

/-- A further transaction of the sender. -/
theorem concat (starts : StartsAt txs sender nonce) (same : tx.decoded.sender = sender) :
    StartsAt (txs ++ [tx]) sender (min nonce tx.decoded.nonce) := by
  obtain ⟨first, member, sent, started⟩ := starts.offered
  by_cases below : nonce ≤ tx.decoded.nonce
  · rw [show min nonce tx.decoded.nonce = nonce from if_pos below]
    refine ⟨⟨first, List.mem_append_left _ member, sent, started⟩, fun another also alsoSent => ?_⟩
    rcases List.mem_append.mp also with earlier | last
    · exact starts.least another earlier alsoSent
    · exact List.mem_singleton.mp last ▸ below
  · rw [show min nonce tx.decoded.nonce = tx.decoded.nonce from if_neg below]
    refine ⟨⟨tx, by simp, same, rfl⟩, fun another also alsoSent => ?_⟩
    rcases List.mem_append.mp also with earlier | last
    · exact UInt64.le_trans (UInt64.le_of_lt (UInt64.not_le.mp below))
        (starts.least another earlier alsoSent)
    · exact List.mem_singleton.mp last ▸ UInt64.le_refl _

/-- The first transaction of the sender. -/
theorem first (new : ∀ earlier ∈ txs, earlier.decoded.sender ≠ sender)
    (same : tx.decoded.sender = sender) : StartsAt (txs ++ [tx]) sender tx.decoded.nonce := by
  refine ⟨⟨tx, by simp, same, rfl⟩, fun another also alsoSent => ?_⟩
  rcases List.mem_append.mp also with earlier | last
  · exact absurd alsoSent (new another earlier)
  · exact List.mem_singleton.mp last ▸ UInt64.le_refl _

end StartsAt

theorem getElem?_senderStartNonce_concat (txs : List SimulationTxInput) (tx : SimulationTxInput)
    (sender : Address) : (senderStartNonce (txs ++ [tx]))[sender]? =
      if tx.decoded.sender = sender then
        some (((senderStartNonce txs)[sender]?.map fun nonce =>
          min nonce tx.decoded.nonce).getD tx.decoded.nonce)
      else (senderStartNonce txs)[sender]? := by
  rw [senderStartNonce, List.foldl_append, List.foldl_cons, List.foldl_nil,
    ExtTreeMap.getElem?_alter]
  simp only [Std.compare_eq_iff_eq]
  split
  case isTrue same =>
    rw [same, ← senderStartNonce]
    cases (senderStartNonce txs)[sender]? <;> rfl
  case isFalse differs => rfl

/-- The map holds the least nonce of every sender, and nothing of anybody else. -/
theorem getElem?_senderStartNonce (txs : List SimulationTxInput) (sender : Address) :
    (∀ nonce, (senderStartNonce txs)[sender]? = some nonce → StartsAt txs sender nonce) ∧
      ((senderStartNonce txs)[sender]? = none → ∀ tx ∈ txs, tx.decoded.sender ≠ sender) := by
  induction txs using List.reverseRecOn with
  | nil => exact ⟨fun _ found => by simp [senderStartNonce] at found, fun _ _ member => nomatch member⟩
  | append_singleton txs tx ih =>
      obtain ⟨starts, absent⟩ := ih
      rw [getElem?_senderStartNonce_concat]
      split
      case isTrue same =>
        refine ⟨fun nonce found => ?_, nofun⟩
        cases earlier : (senderStartNonce txs)[sender]? with
        | none =>
            rw [earlier] at found
            cases found
            exact .first (absent earlier) same
        | some start =>
            rw [earlier] at found
            cases found
            exact (starts start earlier).concat same
      case isFalse differs =>
        refine ⟨fun nonce found => (starts nonce found).concat_of_ne differs, fun missing => ?_⟩
        intro another member
        rcases List.mem_append.mp member with earlier | last
        · exact absent missing another earlier
        · exact List.mem_singleton.mp last ▸ differs

section Batches

variable {Db ε : Type} {revm : Revm Db} {hashing : Hashing} {chainContext : ChainContext}
  {txs : List SimulationTxInput} {mode : SimulationMode ε} {batch : SimulationBatchResult}

/-- **What a simulation returns**: the results from the seeded database, and their digest. -/
theorem simulateWithMode_of_seeded {db : Db} (seeded : seedSenderAccounts revm txs mode = .ok db) :
    simulateWithMode revm hashing chainContext txs mode =
      .ok { chainContext := chainContext
            txResults := resultsFrom revm hashing chainContext db txs
            finalStateDiffHash := hashing.sha256
              (batchBytes chainContext (resultsFrom revm hashing chainContext db txs)) } := by
  obtain ⟨results, aggregate⟩ := foldl_simulateTx revm hashing chainContext txs
    { db := db, aggregate := contextBytes chainContext }
  rw [simulateWithMode, seeded]
  change Except.ok _ = _
  dsimp only [simulateTxs]
  rw [results, aggregate]
  rfl

/-- A simulation that returned seeded its database first. -/
theorem seeded_of_simulateWithMode
    (simulated : simulateWithMode revm hashing chainContext txs mode = .ok batch) :
    ∃ db, seedSenderAccounts revm txs mode = .ok db := by
  cases seeded : seedSenderAccounts revm txs mode with
  | error failure => rw [simulateWithMode, seeded] at simulated; cases simulated
  | ok db => exact ⟨db, rfl⟩

/-- The provider settles the seed of a sender, whatever its nonces are. -/
def SimulationMode.Settles (mode : SimulationMode ε) (sender : Address) : Prop :=
  ∀ nonce other, seedFor mode sender nonce = seedFor mode sender other

/-- With a provider that knows every sender, exactly these are seeded, with what it knows. -/
theorem seedSenderAccounts_known {accountSeed : Address → Except ε (Option AccountSeed)}
    {seeds : Address → AccountSeed}
    (knows : ∀ tx ∈ txs, accountSeed tx.decoded.sender = .ok (some (seeds tx.decoded.sender))) :
    seedSenderAccounts revm txs (.rpcBacked accountSeed) =
      .ok ((senderStartNonce txs).keys.foldl
        (fun db sender => revm.insertAccountInfo db sender (seeds sender)) revm.initial) := by
  have answers : ∀ entry ∈ (senderStartNonce txs).toList,
      accountSeed entry.1 = .ok (some (seeds entry.1)) := by
    intro entry member
    obtain ⟨tx, among, sent, -⟩ :=
      ((getElem?_senderStartNonce txs entry.1).1 entry.2 (mem_toList.mp member)).offered
    exact sent ▸ knows tx among
  rw [seedSenderAccounts, ← ExtTreeMap.map_fst_toList_eq_keys, List.foldl_map]
  generalize (senderStartNonce txs).toList = entries at answers ⊢
  generalize revm.initial = db
  induction entries generalizing db with
  | nil => rfl
  | cons entry rest ih =>
      rw [List.foldlM_cons, seedFor, answers entry List.mem_cons_self, List.foldl_cons]
      exact ih (fun other member => answers other (List.mem_cons_of_mem _ member)) _

/-- Transactions of known senders, with nonces that settle or do not come first, change no seed. -/
theorem seedSenderAccounts_append {more : List SimulationTxInput}
    (follows : ∀ tx ∈ more, ∃ earlier ∈ txs, earlier.decoded.sender = tx.decoded.sender ∧
      (earlier.decoded.nonce ≤ tx.decoded.nonce ∨ mode.Settles tx.decoded.sender)) :
    seedSenderAccounts revm (txs ++ more) mode = seedSenderAccounts revm txs mode := by
  have seeded : ∀ list : List SimulationTxInput, seedSenderAccounts revm list mode =
      ((senderStartNonce list).map (seedFor mode)).toList.foldlM (fun db entry =>
        entry.2.map (revm.insertAccountInfo db entry.1)) revm.initial := by
    intro list
    rw [ExtTreeMap.toList_map, List.foldlM_map]
    rfl
  rw [seeded, seeded]
  congr 2
  refine ExtTreeMap.ext_getElem? fun sender => ?_
  rw [ExtTreeMap.getElem?_map, ExtTreeMap.getElem?_map]
  obtain ⟨starts, absent⟩ := getElem?_senderStartNonce txs sender
  obtain ⟨alsoStarts, alsoAbsent⟩ := getElem?_senderStartNonce (txs ++ more) sender
  cases found : (senderStartNonce txs)[sender]? with
  | none =>
      cases also : (senderStartNonce (txs ++ more))[sender]? with
      | none => rfl
      | some nonce =>
          obtain ⟨tx, member, sent, -⟩ := (alsoStarts nonce also).offered
          rcases List.mem_append.mp member with earlier | later
          · exact absurd sent (absent found tx earlier)
          · obtain ⟨first, among, same, -⟩ := follows tx later
            exact absurd (same.trans sent) (absent found first among)
  | some nonce =>
      have start := starts nonce found
      obtain ⟨first, among, sent, started⟩ := start.offered
      cases also : (senderStartNonce (txs ++ more))[sender]? with
      | none => exact absurd sent (alsoAbsent also first (List.mem_append_left _ among))
      | some other =>
          have another := alsoStarts other also
          by_cases settled : mode.Settles sender
          · exact congrArg some (settled other nonce)
          · have sooner : StartsAt (txs ++ more) sender nonce := by
              refine ⟨⟨first, List.mem_append_left _ among, sent, started⟩, fun tx member same => ?_⟩
              rcases List.mem_append.mp member with earlier | later
              · exact start.least tx earlier same
              · obtain ⟨before, held, owner, below | settles⟩ := follows tx later
                · exact UInt64.le_trans (start.least before held (owner.trans same)) below
                · exact absurd (same ▸ settles) settled
            rw [another.unique sooner]

/-- **The digest of a batch is that of its block and its results.** Whatever machines, providers and
map orders two batches were simulated with: unless the digest collides on what is written of the
two, they have one digest exactly when their blocks have one state root, chain, number and
timestamp and their results are the same, for the same transactions in the same order. -/
theorem finalStateDiffHash_eq_iff {Db' ε' : Type} {revm' : Revm Db'} {iteration' : StateIteration}
    {chainContext' : ChainContext} {txs' : List SimulationTxInput} {mode' : SimulationMode ε'}
    {batch' : SimulationBatchResult}
    (simulated : simulateWithMode revm hashing chainContext txs mode = .ok batch)
    (alsoSimulated : simulateWithMode revm' { hashing with iteration := iteration' } chainContext' txs'
      mode' = .ok batch')
    (apart : ¬ Collides hashing.sha256 (batchBytes chainContext batch.txResults)
      (batchBytes chainContext' batch'.txResults)) :
    (batch.finalStateDiffHash = batch'.finalStateDiffHash ↔
        chainContext.digested = chainContext'.digested ∧ batch.txResults = batch'.txResults) ∧
      (batch.txResults = batch'.txResults →
        txs.map (fun tx => tx.decoded.hash) = txs'.map fun tx => tx.decoded.hash) := by
  obtain ⟨db, seeded⟩ := seeded_of_simulateWithMode simulated
  obtain ⟨db', alsoSeeded⟩ := seeded_of_simulateWithMode alsoSimulated
  cases (simulateWithMode_of_seeded seeded).symm.trans simulated
  cases (simulateWithMode_of_seeded alsoSeeded).symm.trans alsoSimulated
  refine ⟨(digest_eq_iff apart).trans batchBytes_inj, fun same => ?_⟩
  have hashes := congrArg (List.map TxSimulationResult.hash) same
  rwa [map_hash_resultsFrom, map_hash_resultsFrom] at hashes

/-- **What follows in a bundle changes no result before it.** When every further transaction has a
sender of the bundle, and the provider settles that sender or its nonce is not the first, the
longer bundle is simulated whenever the shorter one is, and its results start with those. -/
theorem simulateWithMode_append {more : List SimulationTxInput}
    (simulated : simulateWithMode revm hashing chainContext txs mode = .ok batch)
    (follows : ∀ tx ∈ more, ∃ earlier ∈ txs, earlier.decoded.sender = tx.decoded.sender ∧
      (earlier.decoded.nonce ≤ tx.decoded.nonce ∨ mode.Settles tx.decoded.sender)) :
    ∃ longer, simulateWithMode revm hashing chainContext (txs ++ more) mode = .ok longer ∧
      longer.txResults.take txs.length = batch.txResults ∧
      longer.txResults.length = txs.length + more.length := by
  obtain ⟨db, seeded⟩ := seeded_of_simulateWithMode simulated
  cases (simulateWithMode_of_seeded seeded).symm.trans simulated
  obtain ⟨after, results⟩ := resultsFrom_append revm hashing chainContext db txs more
  have alsoSeeded : seedSenderAccounts revm (txs ++ more) mode = .ok db :=
    (seedSenderAccounts_append follows).trans seeded
  refine ⟨_, simulateWithMode_of_seeded alsoSeeded, ?_, ?_⟩
  · dsimp only
    rw [results]
    exact List.take_left' (length_resultsFrom revm hashing chainContext db txs)
  · dsimp only
    rw [length_resultsFrom, List.length_append]

end Batches

/-! ## Samples -/

/-- A machine that only checks nonces: it moves the nonce of a caller that is next. -/
def nonceMachine : Revm (ExtTreeMap Address AccountSeed) where
  initial := ∅
  insertAccountInfo db address seed := db.insert address seed
  transact _ db tx :=
    (db, match db[tx.caller]? with
      | none => .error (.transaction .nonceTooHigh, [1])
      | some account =>
        if tx.nonce < account.nonce then .error (.transaction .nonceTooLow, [2])
        else if account.nonce < tx.nonce then .error (.transaction .nonceTooHigh, [1])
        else .ok ({ result := .success, gasUsed := 21000
                    state := (∅ : EvmState).insert tx.caller
                      { info := { balance := account.balanceWei.setWidth 256
                                  nonce := account.nonce + 1, codeHash := 0 }
                        status := 4, changedStorageSlots := ∅ } }, [0]))
  commit db state := state.toList.foldl (fun kept entry => kept.insert entry.1
    { balanceWei := entry.2.info.balance.setWidth 128, nonce := entry.2.info.nonce }) db

/-- A digest that adds up what is written. -/
def sumHashing : Hashing where
  sha256 bytes := List.Vector.replicate 32 (bytes.foldl (fun total byte => total * 3 + byte) 7)
  iteration := .increasing

/-- A mainnet block. -/
def sampleContext : ChainContext where
  chainId := 1
  blockNumber := 22222222
  blockTimestamp := 1700000000
  gasLimit := 30000000
  baseFeeWei := 7
  coinbase := 0
  stateRoot := 5

/-- A transfer of sender `9`. -/
def sampleInput (hash : TxHash) (nonce : UInt64) : SimulationTxInput where
  decoded :=
    { hash := hash, txType := 2, sender := 9, nonce := nonce, chainId := some 1
      toAddress := some 1, valueWei := some 42, gasLimit := some 21000, gasPriceWei := none
      maxFeePerGasWei := some 9, maxPriorityFeePerGasWei := some 3, maxFeePerBlobGasWei := none
      calldataLen := some 4 }
  calldata := none

/-- A batch run with a sample machine and a sample digest. -/
def sampleBatch (txs : List SimulationTxInput) : Except Unit SimulationBatchResult :=
  simulateWithMode nonceMachine sumHashing sampleContext txs .syntheticDeterministic

/-- Two transactions in their order and in the other. -/
theorem sampleBatches_digests : ∃ batch other,
    sampleBatch [sampleInput 1 0, sampleInput 2 1] = .ok batch ∧
      sampleBatch [sampleInput 2 1, sampleInput 1 0] = .ok other ∧
      batch.txResults.map TxSimulationResult.success = [true, true] ∧
      other.txResults.map TxSimulationResult.success = [false, true] ∧
      (batch.finalStateDiffHash = other.finalStateDiffHash ↔
        sampleContext.digested = sampleContext.digested ∧ batch.txResults = other.txResults) := by
  have computed : ((sampleBatch [sampleInput 1 0, sampleInput 2 1]).toOption.any fun batch =>
      (sampleBatch [sampleInput 2 1, sampleInput 1 0]).toOption.any fun other => decide
        (batch.txResults.map TxSimulationResult.success = [true, true] ∧
          other.txResults.map TxSimulationResult.success = [false, true] ∧
          sumHashing.sha256 (batchBytes sampleContext batch.txResults) ≠
            sumHashing.sha256 (batchBytes sampleContext other.txResults))) = true := by
    decide +kernel
  cases simulated : sampleBatch [sampleInput 1 0, sampleInput 2 1] with
  | error error =>
      rw [simulated] at computed
      cases computed
  | ok batch =>
      cases alsoSimulated : sampleBatch [sampleInput 2 1, sampleInput 1 0] with
      | error error =>
          rw [simulated, alsoSimulated] at computed
          cases computed
      | ok other =>
          rw [simulated, alsoSimulated] at computed
          obtain ⟨succeeded, failed, differ⟩ := of_decide_eq_true computed
          exact ⟨batch, other, rfl, rfl, succeeded, failed,
            (finalStateDiffHash_eq_iff simulated alsoSimulated fun collides =>
              differ collides.2).1⟩

/-- A second transaction behind the first. -/
theorem sampleBatch_append : ∃ batch longer,
    sampleBatch [sampleInput 1 0] = .ok batch ∧
      sampleBatch ([sampleInput 1 0] ++ [sampleInput 2 1]) = .ok longer ∧
      longer.txResults.take 1 = batch.txResults ∧ longer.txResults.length = 2 := by
  have computed : (sampleBatch [sampleInput 1 0]).isOk = true := by decide +kernel
  cases simulated : sampleBatch [sampleInput 1 0] with
  | error failure => rw [simulated] at computed; cases computed
  | ok batch =>
      have follows : ∀ tx ∈ [sampleInput 2 1], ∃ earlier ∈ [sampleInput 1 0],
          earlier.decoded.sender = tx.decoded.sender ∧
            (earlier.decoded.nonce ≤ tx.decoded.nonce ∨
              (SimulationMode.syntheticDeterministic : SimulationMode Unit).Settles
                tx.decoded.sender) := by
        intro tx member
        cases List.mem_singleton.mp member
        exact ⟨sampleInput 1 0, List.mem_singleton_self _, rfl, .inl (by decide)⟩
      obtain ⟨longer, alsoSimulated, starts, length⟩ := simulateWithMode_append simulated follows
      exact ⟨batch, longer, rfl, alsoSimulated, starts, length⟩

end Mempulse.SimEngine
