import Mempulse.Common

/-!
# Event contracts

The event payloads of the `event-log` crate, the envelope that carries one payload with its
ingest metadata, the global sequencer that numbers envelopes, and the deterministic order of
events.
-/

set_option autoImplicit false

namespace Mempulse

namespace EventLog

/-- First observation of a transaction hash from an ingest source. -/
structure TxSeen where
  hash : TxHash
  peerId : PeerId
  seenAtUnixMs : Int64
  seenAtMonoNs : UInt64
  deriving DecidableEq

/-- Notification that a full transaction payload was fetched. -/
structure TxFetched where
  hash : TxHash
  fetchedAtUnixMs : Int64
  deriving DecidableEq

/-- Decoded transaction fields normalized for downstream consumers. -/
structure TxDecoded where
  hash : TxHash
  txType : UInt8
  sender : Address
  nonce : UInt64
  chainId : Option UInt64
  /-- The source names this field `to`. -/
  toAddress : Option Address
  valueWei : Option U128
  gasLimit : Option UInt64
  gasPriceWei : Option U128
  maxFeePerGasWei : Option U128
  maxPriorityFeePerGasWei : Option U128
  maxFeePerBlobGasWei : Option U128
  calldataLen : Option UInt32
  deriving DecidableEq

/-- Scheduler signal that a transaction is ready for execution. -/
structure TxReady where
  hash : TxHash
  sender : Address
  nonce : UInt64
  deriving DecidableEq

/-- Scheduler signal that a transaction is blocked behind a nonce gap. -/
structure TxBlocked where
  hash : TxHash
  sender : Address
  nonce : UInt64
  expectedNonce : Option UInt64
  deriving DecidableEq

/-- Searcher candidate produced from one or more transactions. -/
structure CandidateQueued where
  candidateId : String
  txHash : TxHash
  memberTxHashes : List TxHash
  chainId : Option UInt64
  strategy : String
  score : UInt32
  protocol : String
  category : String
  featureEngineVersion : String
  scorerVersion : String
  strategyVersion : String
  reasons : List String
  detectedUnixMs : Int64
  deriving DecidableEq

/-- Simulation task dispatched for a searcher candidate. -/
structure SimDispatched where
  candidateId : String
  txHash : TxHash
  memberTxHashes : List TxHash
  blockNumber : UInt64
  deriving DecidableEq

/-- Opportunity detected for a transaction or bundle. -/
structure OppDetected where
  hash : TxHash
  strategy : String
  score : UInt32
  protocol : String
  category : String
  featureEngineVersion : String
  scorerVersion : String
  strategyVersion : String
  reasons : List String
  deriving DecidableEq

/-- Completed simulation result attached to a transaction hash. -/
structure SimCompleted where
  hash : TxHash
  simId : String
  status : String
  featureEngineVersion : String
  scorerVersion : String
  strategyVersion : String
  failCategory : Option String
  latencyMs : Option UInt64
  txCount : Option UInt32
  deriving DecidableEq

/-- Builder assembly decision applied to one candidate. -/
structure AssemblyDecisionApplied where
  candidateId : String
  txHash : TxHash
  decision : String
  replacedCandidateIds : List String
  reason : Option String
  blockNumber : UInt64
  deriving DecidableEq

/-- Relay submission result for a bundle or block template. -/
structure BundleSubmitted where
  hash : TxHash
  bundleId : String
  simId : String
  relay : String
  accepted : Bool
  featureEngineVersion : String
  scorerVersion : String
  strategyVersion : String
  deriving DecidableEq

/-- Replacement relation between two transaction hashes. -/
structure TxReplaced where
  hash : TxHash
  replacedBy : TxHash
  deriving DecidableEq

/-- Drop classification for a transaction hash. -/
structure TxDropped where
  hash : TxHash
  reason : String
  deriving DecidableEq

/-- Confirmation record for a transaction hash. -/
structure TxConfirmed where
  hash : TxHash
  blockNumber : UInt64
  blockHash : BlockHash
  deriving DecidableEq

/-- Reorg record describing the block transition for a transaction hash. -/
structure TxReorged where
  hash : TxHash
  oldBlockHash : BlockHash
  newBlockHash : BlockHash
  deriving DecidableEq

/-- Canonical event payload variants emitted across the pipeline. -/
inductive EventPayload where
  | txSeen (seen : TxSeen)
  | txFetched (fetched : TxFetched)
  | txDecoded (decoded : TxDecoded)
  | txReady (ready : TxReady)
  | txBlocked (blocked : TxBlocked)
  | candidateQueued (queued : CandidateQueued)
  | simDispatched (dispatched : SimDispatched)
  | oppDetected (detected : OppDetected)
  | simCompleted (completed : SimCompleted)
  | assemblyDecisionApplied (applied : AssemblyDecisionApplied)
  | bundleSubmitted (submitted : BundleSubmitted)
  | txReplaced (replaced : TxReplaced)
  | txDropped (dropped : TxDropped)
  | txConfirmedProvisional (confirmed : TxConfirmed)
  | txConfirmedFinal (confirmed : TxConfirmed)
  | txReorged (reorged : TxReorged)
  deriving DecidableEq

/-- The primary transaction hash associated with the payload. -/
def EventPayload.primaryHash : EventPayload → TxHash
  | .txSeen e => e.hash
  | .txFetched e => e.hash
  | .txDecoded e => e.hash
  | .txReady e => e.hash
  | .txBlocked e => e.hash
  | .candidateQueued e => e.txHash
  | .simDispatched e => e.txHash
  | .oppDetected e => e.hash
  | .simCompleted e => e.hash
  | .assemblyDecisionApplied e => e.txHash
  | .bundleSubmitted e => e.hash
  | .txReplaced e => e.hash
  | .txDropped e => e.hash
  | .txConfirmedProvisional e => e.hash
  | .txConfirmedFinal e => e.hash
  | .txReorged e => e.hash

/-- Top-level event envelope carrying ingest metadata and one typed payload. -/
structure EventEnvelope where
  seqId : UInt64
  ingestTsUnixMs : Int64
  ingestTsMonoNs : UInt64
  sourceId : SourceId
  payload : EventPayload
  deriving DecidableEq

/-- The envelope of the crate's tests around a payload. -/
def sampleEnvelope (seqId : UInt64) (payload : EventPayload) : EventEnvelope where
  seqId := seqId
  ingestTsUnixMs := 1700000000000
  ingestTsMonoNs := 0
  sourceId := "test"
  payload := payload

/-- Monotonic sequencer for assigning globally ordered event ids. -/
structure GlobalSequencer where
  nextSeqId : Nat := 1
  deriving DecidableEq

/-- A sequencer that continues after the supplied latest sequence id. -/
def GlobalSequencer.fromLatestSeqId (latestSeqId : Option UInt64) : GlobalSequencer where
  nextSeqId := max (saturatingAdd u64Max ((latestSeqId.map UInt64.toNat).getD 0) 1) 1

/-- Reserves and returns the next global sequence id. -/
def GlobalSequencer.reserve (sequencer : GlobalSequencer) : UInt64 × GlobalSequencer :=
  (UInt64.ofNat sequencer.nextSeqId, ⟨saturatingAdd u64Max sequencer.nextSeqId 1⟩)

/-- Assigns the next sequence id to an event envelope. -/
def GlobalSequencer.assign (sequencer : GlobalSequencer) (event : EventEnvelope) :
    EventEnvelope × GlobalSequencer :=
  let reserved := sequencer.reserve
  ({ event with seqId := reserved.1 }, reserved.2)

end EventLog

end Mempulse
