import Mempulse.EventLog

/-!
# The feature engine

Protocol and intent classification of a transaction, with its MEV and urgency scores. The scores
are `u16` in the source; they are natural numbers here, with the truncating cast and the
saturating operations written out.
-/

set_option autoImplicit false

namespace Mempulse.FeatureEngine

open Std EventLog

/-- The first four bytes of the calldata. -/
abbrev MethodSelector := BitVec 32

/-- `u16::MAX`. -/
def u16Max : Nat := 2 ^ 16 - 1

/-- The version every analysis is stamped with. -/
def version : String := "feature-engine.v1"

/-- Inputs required to classify one transaction. -/
structure FeatureInput where
  /-- The source names this field `to`. -/
  toAddress : Option Address
  calldata : List UInt8
  txType : UInt8
  chainId : Option UInt64
  gasLimit : Option UInt64
  valueWei : Option U128
  gasPriceWei : Option U128
  maxFeePerGasWei : Option U128
  maxPriorityFeePerGasWei : Option U128
  maxFeePerBlobGasWei : Option U128
  deriving DecidableEq

/-- Feature scores and labels derived from one transaction. -/
structure FeatureAnalysis where
  protocol : String
  category : String
  mevScore : Nat
  urgencyScore : Nat
  methodSelector : Option MethodSelector
  deriving DecidableEq

/-- Decoded transaction paired with the derived feature analysis. -/
structure FeaturedTransaction where
  hash : TxHash
  analysis : FeatureAnalysis
  txType : UInt8
  toAddress : Option Address
  gasLimit : Option UInt64
  calldataLen : Nat
  deriving DecidableEq

/-! ## The protocol registry -/

/-- Address and selector based lookup table for protocol classification. -/
structure ProtocolRegistry where
  byAddress : ExtTreeMap Address String
  bySelector : ExtTreeMap MethodSelector String

/-- The registry of `configs/protocol_registry.mainnet.json`. -/
def ProtocolRegistry.defaultMainnet : ProtocolRegistry where
  byAddress := .ofList
    [((0x7a250d5630b4cf539739df2c5dacb4c659f2488d : Address), "uniswap-v2"),
      (0x68b3465833fb72a70ecdf485e0e4c7bd8665fc45, "uniswap-v3"),
      (0xef1c6e67703c7bd7107eed8303fbe6ec2554bf6b, "uniswap-universal"),
      (0x1111111254eeb25477b68fb85ed929f73a960582, "1inch")]
  bySelector := .ofList
    [((0xa9059cbb : MethodSelector), "erc20"), (0x23b872dd, "erc20"), (0x095ea7b3, "erc20")]

/-- Classifies by destination address first, then by method selector as a fallback. -/
def ProtocolRegistry.classify (registry : ProtocolRegistry) (toAddress : Option Address)
    (selector : Option MethodSelector) : String :=
  match toAddress.bind (registry.byAddress[·]?) with
  | some protocol => protocol
  | none =>
    match selector.bind (registry.bySelector[·]?) with
    | some protocol => protocol
    | none => "unknown"

/-! ## Analysis -/

/-- The wei of one gwei. -/
def weiPerGwei : Nat := 1000000000

/-- The first four bytes of the calldata. -/
def selector (calldata : List UInt8) : Option MethodSelector :=
  match calldata with
  | first :: second :: third :: fourth :: _ =>
    some (first.toBitVec ++ second.toBitVec ++ third.toBitVec ++ fourth.toBitVec)
  | _ => none

/-- The protocol of a call, by its target and its selector. -/
def classifyProtocol (toAddress : Option Address) (methodSelector : Option MethodSelector) : String :=
  ProtocolRegistry.defaultMainnet.classify toAddress methodSelector

/-- The selectors of the Uniswap V2 and V3 swaps. -/
def swapSelectors : List MethodSelector :=
  [0x38ed1739, 0x8803dbee, 0x7ff36ab5, 0x18cbafe5, 0x4a25d94a, 0xfb3bdb41,
    0x04e45aaf, 0xb858183f, 0x5023b4df, 0x09b81346]

/-- The category of a call, by its selector alone. -/
def classifyCategory (methodSelector : Option MethodSelector) : String :=
  match methodSelector with
  | none => "pending"
  | some selector =>
    if selector ∈ swapSelectors then "swap"
    else if selector = 0xa9059cbb ∨ selector = 0x23b872dd then "transfer"
    else if selector = 0x095ea7b3 then "approval"
    else "pending"

/-- `(fee / WEI_PER_GWEI) as u16`, which keeps the low sixteen bits. -/
def gweiU16 (fee : U128) : Nat := fee.toNat / weiPerGwei % 2 ^ 16

/-- The urgency of a transaction, by the fee it offers. -/
def computeUrgencyScore (input : FeatureInput) : Nat :=
  let offered :=
    match input.maxPriorityFeePerGasWei with
    | some priority => saturatingAdd u16Max 0 (min (gweiU16 priority) 60)
    | none =>
      match input.gasPriceWei with
      | some gasPrice => saturatingAdd u16Max 0 (min (gweiU16 gasPrice / 2) 40)
      | none => 0
  let typed := if input.txType = 2 then saturatingAdd u16Max offered 6 else offered
  let capped :=
    if 0 < input.maxFeePerGasWei.getD 0 then saturatingAdd u16Max typed 4 else typed
  min capped 100

/-- The score of a category, with the bonus of its protocol. -/
def baseMevScore (protocol category : String) : Nat :=
  let score :=
    if category = "swap" then 55
    else if category = "approval" then 16
    else if category = "transfer" then 10
    else 8
  if protocol ∈ ["uniswap-v2", "uniswap-v3", "uniswap-universal", "1inch"] then
    saturatingAdd u16Max score 12
  else score

/-- Computes protocol, category, MEV score and urgency score for a transaction. -/
def analyzeTransaction (input : FeatureInput) : FeatureAnalysis :=
  let methodSelector := selector input.calldata
  let protocol := classifyProtocol input.toAddress methodSelector
  let category := classifyCategory methodSelector
  let urgencyScore := computeUrgencyScore input
  let bonus (holds : Bool) (points score : Nat) :=
    if holds then saturatingAdd u16Max score points else score
  let structural :=
    bonus input.maxFeePerBlobGasWei.isSome 2 <|
      bonus (200000 ≤ input.gasLimit.getD 0) 4 <|
        bonus (0 < input.valueWei.getD 0) 3 <|
          bonus (132 < input.calldata.length) 5 (baseMevScore protocol category)
  let urgent := saturatingAdd u16Max structural (urgencyScore / 2)
  let mainnet := if input.chainId ≠ some 1 then urgent - 15 else urgent
  { protocol := protocol
    category := category
    mevScore := min mainnet 100
    urgencyScore := urgencyScore
    methodSelector := methodSelector }

/-- Runs feature analysis directly from a decoded transaction and calldata. -/
def analyzeDecodedTransaction (tx : TxDecoded) (calldata : List UInt8) : FeaturedTransaction where
  hash := tx.hash
  analysis := analyzeTransaction
    { toAddress := tx.toAddress, calldata := calldata, txType := tx.txType, chainId := tx.chainId
      gasLimit := tx.gasLimit, valueWei := tx.valueWei, gasPriceWei := tx.gasPriceWei
      maxFeePerGasWei := tx.maxFeePerGasWei
      maxPriorityFeePerGasWei := tx.maxPriorityFeePerGasWei
      maxFeePerBlobGasWei := tx.maxFeePerBlobGasWei }
  txType := tx.txType
  toAddress := tx.toAddress
  gasLimit := tx.gasLimit
  calldataLen := calldata.length

end Mempulse.FeatureEngine
