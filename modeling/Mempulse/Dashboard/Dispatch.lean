import Mempulse.EventLog

/-!
# Dashboard dispatches

The rows and dispatches of the dashboard's event stream, and the builder that turns one page of
events into a dispatch: each decoded transaction and each detected opportunity becomes a row, a
row of the same key is overwritten, and the oldest row leaves when a table is full.
-/

set_option autoImplicit false

namespace Mempulse.Dashboard

open EventLog

/-! ## Rows -/

/-- Compact transaction row. -/
structure TransactionSummary where
  hash : String
  sender : String
  nonce : UInt64
  txType : UInt8
  seenUnixMs : Int64
  sourceId : String
  deriving DecidableEq

/-- Per-transaction feature detail. -/
structure FeatureDetail where
  hash : String
  protocol : String
  category : String
  chainId : Option UInt64
  mevScore : UInt16
  urgencyScore : UInt16
  methodSelector : Option String
  featureEngineVersion : String
  deriving DecidableEq

/-- Searcher opportunity detail. -/
structure OpportunityDetail where
  txHash : String
  status : String
  strategy : String
  score : UInt32
  protocol : String
  category : String
  chainId : Option UInt64
  featureEngineVersion : String
  scorerVersion : String
  strategyVersion : String
  reasons : List String
  detectedUnixMs : Int64
  deriving DecidableEq

/-- The fields of a transaction's detail that the stream reads. -/
structure TransactionDetail where
  chainId : Option UInt64
  protocol : Option String
  category : Option String
  mevScore : Option UInt16
  urgencyScore : Option UInt16
  featureEngineVersion : Option String
  deriving DecidableEq

/-- Market-level counters. -/
structure MarketStats where
  totalSignalVolume : UInt64
  totalTxCount : UInt64
  lowRiskCount : UInt64
  mediumRiskCount : UInt64
  highRiskCount : UInt64
  successRateBps : UInt16
  deriving DecidableEq

/-- Incremental dashboard patch payload. -/
structure StreamV2Patch where
  upsert : List TransactionSummary
  remove : List String
  featureUpsert : List FeatureDetail
  opportunityUpsert : List OpportunityDetail
  deriving DecidableEq

/-- Sequence watermark attached to dispatches. -/
structure StreamV2Watermark where
  latestIngestSeq : UInt64
  deriving DecidableEq

/-- One dispatch sent to dashboard subscribers. -/
structure StreamV2Dispatch where
  op : String
  /-- The source names this field `event_type` and serializes it as `type`. -/
  eventType : String
  seq : UInt64
  channel : String
  hasGap : Bool
  patch : StreamV2Patch
  watermark : StreamV2Watermark
  marketStats : MarketStats
  deriving DecidableEq

/-- What the stream reads of its data provider. It asks for events without a type filter. -/
structure VizDataProvider where
  events : UInt64 → Nat → List EventEnvelope
  latestSeqId : Option UInt64
  transactionDetailByHash : String → Option TransactionDetail
  marketStats : MarketStats

/-! ## Rows of events -/

/-- A `0x`-prefixed lowercase hex string. -/
def formatBytes {width : Nat} (bytes : BitVec width) : String := hexText bytes

/-- The summary a decoded transaction is streamed with. -/
def transactionSummaryFromEvent (event : EventEnvelope) : Option TransactionSummary :=
  match event.payload with
  | .txDecoded decoded =>
    some
      { hash := formatBytes decoded.hash, sender := formatBytes decoded.sender
        nonce := decoded.nonce, txType := decoded.txType, seenUnixMs := event.ingestTsUnixMs
        sourceId := event.sourceId }
  | _ => none

/-- The feature row of a transaction whose detail names a protocol and a category. -/
def featureDetailForHash (provider : VizDataProvider) (hash : String) : Option FeatureDetail := do
  let detail ← provider.transactionDetailByHash hash
  let protocol ← detail.protocol
  let category ← detail.category
  let mevScore ← detail.mevScore
  let urgencyScore ← detail.urgencyScore
  let featureEngineVersion ← detail.featureEngineVersion
  return {
    hash := hash
    protocol := protocol
    category := category
    chainId := detail.chainId
    mevScore := mevScore
    urgencyScore := urgencyScore
    methodSelector := none
    featureEngineVersion := featureEngineVersion }

/-- The opportunity an event is streamed with, with the chain of its transaction. -/
def opportunityDetailFromEvent (provider : VizDataProvider) (event : EventEnvelope) :
    Option OpportunityDetail :=
  match event.payload with
  | .oppDetected opp =>
    let txHash := formatBytes opp.hash
    some
      { txHash := txHash, status := "detected", strategy := opp.strategy, score := opp.score
        protocol := opp.protocol, category := opp.category
        chainId := (provider.transactionDetailByHash txHash).bind (·.chainId)
        featureEngineVersion := opp.featureEngineVersion, scorerVersion := opp.scorerVersion
        strategyVersion := opp.strategyVersion, reasons := opp.reasons
        detectedUnixMs := event.ingestTsUnixMs }
  | _ => none

/-! ## Tables with a cap -/

/-- The body the three `push_stream_*_with_cap` functions share: the first row of the same key is
overwritten, else the row is appended after the oldest has left a full table. Says whether a row
left. -/
def pushStreamWithCap {Row Key : Type} [DecidableEq Key] (key : Row → Key) (rows : List Row)
    (row : Row) (pageLimit : Nat) : List Row × Bool :=
  let cap := max pageLimit 1
  match rows.findIdx? fun existing => key existing = key row with
  | some index => (rows.set index row, false)
  | none =>
    if cap ≤ rows.length then (rows.drop 1 ++ [row], true) else (rows ++ [row], false)

/-- Adds a summary, one a hash, within the page limit. -/
def pushStreamSummaryWithCap (transactions : List TransactionSummary) (summary : TransactionSummary)
    (pageLimit : Nat) : List TransactionSummary × Bool :=
  pushStreamWithCap (·.hash) transactions summary pageLimit

/-- Adds a feature row, one a hash, within the page limit. -/
def pushStreamFeatureWithCap (features : List FeatureDetail) (detail : FeatureDetail)
    (pageLimit : Nat) : List FeatureDetail × Bool :=
  pushStreamWithCap (·.hash) features detail pageLimit

/-- What two rows of one opportunity share. -/
def OpportunityDetail.key (row : OpportunityDetail) : String × String × Int64 :=
  (row.txHash, row.strategy, row.detectedUnixMs)

/-- Adds an opportunity, one a key, within the page limit. -/
def pushStreamOpportunityWithCap (opportunities : List OpportunityDetail)
    (detail : OpportunityDetail) (pageLimit : Nat) : List OpportunityDetail × Bool :=
  pushStreamWithCap OpportunityDetail.key opportunities detail pageLimit

/-! ## The builder -/

/-- The variables of `build_dashboard_events_v1_dispatch`. -/
structure DispatchDraft where
  seqStart : UInt64 := 0
  seqEnd : UInt64
  hasGap : Bool := false
  transactions : List TransactionSummary := []
  featureUpsert : List FeatureDetail := []
  opportunityUpsert : List OpportunityDetail := []
  deriving DecidableEq

namespace DispatchDraft

/-- Adds a summary to the draft, and notes a gap when one was dropped. -/
def addSummary (draft : DispatchDraft) (summary : TransactionSummary) (pageLimit : Nat) :
    DispatchDraft :=
  let pushed := pushStreamSummaryWithCap draft.transactions summary pageLimit
  { draft with transactions := pushed.1, hasGap := draft.hasGap || pushed.2 }

/-- Adds a feature row to the draft, and notes a gap when one was dropped. -/
def addFeature (draft : DispatchDraft) (feature : FeatureDetail) (pageLimit : Nat) : DispatchDraft :=
  let pushed := pushStreamFeatureWithCap draft.featureUpsert feature pageLimit
  { draft with featureUpsert := pushed.1, hasGap := draft.hasGap || pushed.2 }

/-- Adds an opportunity to the draft, and notes a gap when one was dropped. -/
def addOpportunity (draft : DispatchDraft) (opportunity : OpportunityDetail) (pageLimit : Nat) :
    DispatchDraft :=
  let pushed := pushStreamOpportunityWithCap draft.opportunityUpsert opportunity pageLimit
  { draft with opportunityUpsert := pushed.1, hasGap := draft.hasGap || pushed.2 }

/-- The first event after the cursor sets the start, and the gap flag when it is not the next. -/
def advance (draft : DispatchDraft) (afterSeqId seqId : UInt64) : DispatchDraft :=
  if draft.seqStart = 0 then
    { draft with
      seqStart := seqId
      seqEnd := seqId
      hasGap := draft.hasGap ||
        (0 < afterSeqId && saturatingAdd u64Max afterSeqId.toNat 1 < seqId.toNat) }
  else { draft with seqEnd := seqId }

/-- The rows of one event. -/
def addRows (draft : DispatchDraft) (provider : VizDataProvider) (pageLimit : Nat)
    (event : EventEnvelope) : DispatchDraft :=
  let draft :=
    match transactionSummaryFromEvent event with
    | none => draft
    | some summary =>
      let draft := draft.addSummary summary pageLimit
      match featureDetailForHash provider summary.hash with
      | none => draft
      | some feature => draft.addFeature feature pageLimit
  match opportunityDetailFromEvent provider event with
  | none => draft
  | some opportunity => draft.addOpportunity opportunity pageLimit

/-- The body of the loop over a page of events. -/
def visit (provider : VizDataProvider) (afterSeqId : UInt64) (pageLimit : Nat)
    (draft : DispatchDraft) (event : EventEnvelope) : DispatchDraft :=
  if event.seqId ≤ afterSeqId then draft
  else (draft.advance afterSeqId event.seqId).addRows provider pageLimit event

end DispatchDraft

/-- `page_limit.saturating_mul(64).max(64)`. -/
def maxScanEventsPerTick (pageLimit : Nat) : Nat := max (saturatingMul usizeMax pageLimit 64) 64

/-- The dispatch for what has been logged after a sequence id, none when nothing has. -/
def buildDashboardEventsV1Dispatch (provider : VizDataProvider) (afterSeqId : UInt64)
    (pageLimit : Nat) : Option StreamV2Dispatch :=
  let events := provider.events afterSeqId (maxScanEventsPerTick pageLimit)
  if events.isEmpty then none
  else
    let draft :=
      events.foldl (DispatchDraft.visit provider afterSeqId pageLimit) { seqEnd := afterSeqId }
    if draft.seqStart = 0 ∨ draft.transactions.isEmpty ∧ draft.featureUpsert.isEmpty ∧
        draft.opportunityUpsert.isEmpty then none
    else
      some
        { op := "DISPATCH"
          eventType := "DELTA_BATCH"
          seq := draft.seqEnd
          channel := "tx.main"
          hasGap := draft.hasGap
          patch :=
            { upsert := draft.transactions, remove := [], featureUpsert := draft.featureUpsert
              opportunityUpsert := draft.opportunityUpsert }
          watermark := { latestIngestSeq := draft.seqEnd }
          marketStats := provider.marketStats }

end Mempulse.Dashboard
