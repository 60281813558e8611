import Mempulse.HexParsers
import Mempulse.Library.Decimal
import Mempulse.Library.Window
import Mempulse.LiveRpc.Pipeline

/-!
# Batch responses

A batch response answers the requests by their indices, in any order, and a later answer to an index
takes the place of an earlier one. The transaction of an answer has a hash of its own, which is taken
before the requested one. The decoding of the JSON text is left out, as are the log lines.
-/

set_option autoImplicit false

namespace Mempulse.LiveRpc

open Library

/-! ## Responses -/

/-- A transaction as a response spells it. -/
structure RpcTransaction where
  hash : String
  /-- The source names this field `from`. -/
  sender : Option String := none
  /-- The source names this field `to`. -/
  toAddress : Option String := none
  nonce : Option String := none
  value : Option String := none
  gas : Option String := none
  txType : Option String := none
  chainId : Option String := none
  gasPrice : Option String := none
  maxFeePerGas : Option String := none
  maxPriorityFeePerGas : Option String := none
  maxFeePerBlobGas : Option String := none
  input : Option String := none
  deriving DecidableEq

/-- An error as the node reports it. -/
structure RpcFetchErrorEnvelope where
  code : Option Int64 := none
  message : Option String := none
  deriving DecidableEq

/-- The id of an answer; a node may send it as a text. -/
inductive RpcBatchResponseId where
  | number (value : UInt64)
  | string (value : String)
  deriving DecidableEq

/-- One answer of a batch. -/
structure RpcBatchFetchResponseEnvelope where
  id : RpcBatchResponseId
  error : Option RpcFetchErrorEnvelope := none
  result : Option RpcTransaction := none
  deriving DecidableEq

/-- The two shapes of an answer: a list, or one row alone. -/
inductive RpcBatchFetchResponseBody where
  | batch (rows : List RpcBatchFetchResponseEnvelope)
  | single (row : RpcBatchFetchResponseEnvelope)
  deriving DecidableEq

/-! ## Decoding -/

/-- A hexadecimal number, where no digits are zero. -/
def parseHexU64 (value : List Char) : Option UInt64 :=
  let trimmed := stripMarker value
  if trimmed.isEmpty then some 0 else (fromHexRadix u64Max trimmed).map UInt64.ofNat

/-- A hexadecimal number of 128 bits, where no digits are zero. -/
def parseHexU128 (value : List Char) : Option U128 :=
  let trimmed := stripMarker value
  if trimmed.isEmpty then some 0 else (fromHexRadix u128Max trimmed).map (BitVec.ofNat 128)

/-- An index of 64 bits always fits. -/
def RpcBatchResponseId.toIndex : RpcBatchResponseId → Option Nat
  | .number value => some value.toNat
  | .string value =>
    let trimmed := trim value.toList
    let raw := if ['0', 'x'].isPrefixOf trimmed then parseHexU64 trimmed else parseU64 trimmed
    raw.map UInt64.toNat

/-- The address of some bytes. -/
def addressOfBytes (bytes : List.Vector UInt8 20) : Address :=
  BitVec.ofNat 160 (bytes.toList.foldl (fun number byte => 256 * number + byte.toNat) 0)

/-- A field that may be missing. -/
def parseField {α : Type} (parse : String → Outcome (Option α)) : Option String → Outcome (Option α)
  | none => .returned none
  | some value => parse value

/-- The fields of a transaction of a known hash. -/
def liveTxOf (tx : RpcTransaction) (hash : TxHash) : Outcome LiveTx := do
  let sender ← parseField (Slicing.parseFixedHex 20) tx.sender
  let toAddress ← parseField (Slicing.parseFixedHex 20) tx.toAddress
  let input ← parseField Slicing.parseHexBytes tx.input
  return {
    hash := hash
    sender := (sender.map addressOfBytes).getD 0
    toAddress := toAddress.map addressOfBytes
    nonce := (tx.nonce.bind fun value => parseHexU64 value.toList).getD 0
    txType := ((tx.txType.bind fun value => parseHexU64 value.toList).getD 0).toUInt8
    valueWei := tx.value.bind fun value => parseHexU128 value.toList
    gasLimit := tx.gas.bind fun value => parseHexU64 value.toList
    chainId := tx.chainId.bind fun value => parseHexU64 value.toList
    gasPriceWei := tx.gasPrice.bind fun value => parseHexU128 value.toList
    maxFeePerGasWei := tx.maxFeePerGas.bind fun value => parseHexU128 value.toList
    maxPriorityFeePerGasWei := tx.maxPriorityFeePerGas.bind fun value => parseHexU128 value.toList
    maxFeePerBlobGasWei := tx.maxFeePerBlobGas.bind fun value => parseHexU128 value.toList
    input := input.getD [] }

/-- The hash of the transaction itself comes before the requested one. -/
def rpcTxToLiveTx (tx : RpcTransaction) (hashHex : String) : Outcome (Except String LiveTx) := do
  let own ← Slicing.parseFixedHex 32 tx.hash
  let resolved ← match own with
    | some hash => pure (some hash)
    | none => Slicing.parseFixedHex 32 hashHex
  match resolved with
  | none => return .error "invalid transaction hash"
  | some hash => return .ok (← liveTxOf tx (hashOfBytes hash))

/-- The loop over the envelopes. -/
def fillSlots (hashes : List String) :
    List RpcBatchFetchResponseEnvelope → List (Option LiveTx) → Outcome (List (Option LiveTx))
  | [], fetched => .returned fetched
  | envelope :: rest, fetched =>
    match envelope.id.toIndex with
    | none => fillSlots hashes rest fetched
    | some index =>
      match hashes[index]? with
      | none => fillSlots hashes rest fetched
      | some hashHex =>
        match envelope.error, envelope.result with
        | some _, _ | none, none => fillSlots hashes rest fetched
        | none, some tx =>
          match rpcTxToLiveTx tx hashHex with
          | .panicked => .panicked
          | .returned (.ok tx) => fillSlots hashes rest (fetched.set index (some tx))
          | .returned (.error _) => fillSlots hashes rest fetched

/-- The rows of either shape. -/
def RpcBatchFetchResponseBody.rows : RpcBatchFetchResponseBody → List RpcBatchFetchResponseEnvelope
  | batch rows => rows
  | single row => [row]

/-- The transactions of an answer, one slot a hash, in the order of the hashes. -/
def decodeTransactionFetchBatchResponseToLiveTxs (response : RpcBatchFetchResponseBody)
    (hashes : List String) : Outcome (List (Option LiveTx)) :=
  fillSlots hashes response.rows (List.replicate hashes.length none)

/-! ## One transaction -/

section Transactions

variable {tx : RpcTransaction} {hashHex : String} {requested : TxHash}

/-- A text of the transaction cannot be cut in pairs of bytes. -/
def RpcTransaction.Breaks (tx : RpcTransaction) : Prop :=
  BreaksCharacter tx.hash.toList ∨
    ∃ text ∈ [tx.sender, tx.toAddress, tx.input], ∃ value ∈ text, BreaksCharacter value.toList

theorem parseField_eq_panicked_iff {α : Type} {parse : String → Outcome (Option α)}
    (panics : ∀ value, parse value = .panicked ↔ BreaksCharacter value.toList)
    (text : Option String) :
    parseField parse text = .panicked ↔ ∃ value ∈ text, BreaksCharacter value.toList := by
  cases text with
  | none => simp [parseField]
  | some value => simp [parseField, panics]

theorem liveTxOf_cases (hash : TxHash) :
    (∃ text ∈ [tx.sender, tx.toAddress, tx.input], ∃ value ∈ text, BreaksCharacter value.toList) ∧
        liveTxOf tx hash = .panicked ∨
      (¬ ∃ text ∈ [tx.sender, tx.toAddress, tx.input], ∃ value ∈ text,
        BreaksCharacter value.toList) ∧
        ∃ live, liveTxOf tx hash = .returned live ∧ live.hash = hash := by
  have address := parseField_eq_panicked_iff fun value =>
    @parseFixedHex_eq_panicked_iff 20 value
  have bytes := parseField_eq_panicked_iff fun value => @parseHexBytes_eq_panicked_iff value
  simp only [List.mem_cons, List.not_mem_nil, or_false, exists_eq_or_imp, exists_eq_left]
  rw [← address tx.sender, ← address tx.toAddress, ← bytes tx.input]
  unfold liveTxOf
  cases parseField (Slicing.parseFixedHex 20) tx.sender with
  | panicked => exact .inl ⟨.inl rfl, rfl⟩
  | returned sender =>
      cases parseField (Slicing.parseFixedHex 20) tx.toAddress with
      | panicked => exact .inl ⟨.inr (.inl rfl), rfl⟩
      | returned toAddress =>
          cases parseField Slicing.parseHexBytes tx.input with
          | panicked => exact .inl ⟨.inr (.inr rfl), rfl⟩
          | returned input => exact .inr ⟨by simp, _, rfl, rfl⟩

theorem spelledHash_eq_map {value : String} {result : Option (List.Vector UInt8 32)}
    (returned : Slicing.parseFixedHex 32 value = .returned result) :
    spelledHash value = result.map hashOfBytes := by
  refine Option.ext fun hash => ?_
  rw [Option.map_eq_some_iff, spelledHash_eq_some_iff, returned]
  simp

/-- **A transaction of a request is decoded or panics.** -/
theorem rpcTxToLiveTx_cases (valid : spelledHash hashHex = some requested) :
    (tx.Breaks ∧ rpcTxToLiveTx tx hashHex = .panicked) ∨
      ¬ tx.Breaks ∧ ∃ live, rpcTxToLiveTx tx hashHex = .returned (.ok live) ∧
        live.hash = (spelledHash tx.hash).getD requested := by
  have finish : ∀ bytes, Slicing.parseFixedHex 32 tx.hash ≠ .panicked →
      rpcTxToLiveTx tx hashHex = (liveTxOf tx (hashOfBytes bytes)).map .ok →
      hashOfBytes bytes = (spelledHash tx.hash).getD requested →
      (tx.Breaks ∧ rpcTxToLiveTx tx hashHex = .panicked) ∨
        ¬ tx.Breaks ∧ ∃ live, rpcTxToLiveTx tx hashHex = .returned (.ok live) ∧
          live.hash = (spelledHash tx.hash).getD requested := by
    intro bytes whole continues same
    rw [Ne, parseFixedHex_eq_panicked_iff] at whole
    rw [continues, ← same]
    rcases @liveTxOf_cases tx (hashOfBytes bytes) with ⟨breaks, panics⟩ | ⟨reads, live, fields, hash⟩
    · exact .inl ⟨.inr breaks, by rw [panics]; rfl⟩
    · exact .inr ⟨not_or.mpr ⟨whole, reads⟩, live, by rw [fields]; rfl, hash⟩
  cases own : Slicing.parseFixedHex 32 tx.hash with
  | panicked =>
      refine .inl ⟨.inl (parseFixedHex_eq_panicked_iff.mp own), ?_⟩
      rw [rpcTxToLiveTx, own]
      rfl
  | returned result =>
      have hash := spelledHash_eq_map own
      cases result with
      | some bytes =>
          refine finish bytes (by simp [own]) ?_ (by rw [hash]; rfl)
          rw [rpcTxToLiveTx, own]
          change (liveTxOf tx (hashOfBytes bytes) >>= fun live => pure (Except.ok live)) = _
          cases liveTxOf tx (hashOfBytes bytes) <;> rfl
      | none =>
          obtain ⟨bytes, read, rfl⟩ := spelledHash_eq_some_iff.mp valid
          refine finish bytes (by simp [own]) ?_ (by rw [hash]; rfl)
          rw [rpcTxToLiveTx, own, read]
          change (liveTxOf tx (hashOfBytes bytes) >>= fun live => pure (Except.ok live)) = _
          cases liveTxOf tx (hashOfBytes bytes) <;> rfl

end Transactions

/-! ## Slots -/

section Slots

variable {hashes : List String} {rows : List RpcBatchFetchResponseEnvelope}

/-- What an envelope answers: an index with its requested text, and a transaction. -/
def answer (hashes : List String) (envelope : RpcBatchFetchResponseEnvelope) :
    Option (Nat × String × RpcTransaction) := do
  let index ← envelope.id.toIndex
  let hashHex ← hashes[index]?
  match envelope.error, envelope.result with
  | none, some tx => some (index, hashHex, tx)
  | _, _ => none

/-- The answers of a body, in their order. -/
def answers (hashes : List String) (rows : List RpcBatchFetchResponseEnvelope) :
    List (Nat × String × RpcTransaction) := rows.filterMap (answer hashes)

theorem fillSlots_cons (envelope : RpcBatchFetchResponseEnvelope)
    (rest : List RpcBatchFetchResponseEnvelope) (fetched : List (Option LiveTx)) :
    fillSlots hashes (envelope :: rest) fetched =
      match answer hashes envelope with
      | none => fillSlots hashes rest fetched
      | some (index, hashHex, tx) =>
        match rpcTxToLiveTx tx hashHex with
        | .panicked => .panicked
        | .returned (.ok tx) => fillSlots hashes rest (fetched.set index (some tx))
        | .returned (.error _) => fillSlots hashes rest fetched := by
  rw [fillSlots]
  unfold answer
  cases envelope.id.toIndex with
  | none => rfl
  | some index =>
      cases requested : hashes[index]? with
      | none => simp [requested]
      | some hashHex =>
          cases envelope.error <;> cases envelope.result <;> simp [requested]

theorem answer_spec {envelope : RpcBatchFetchResponseEnvelope} {index : Nat} {hashHex : String}
    {tx : RpcTransaction} (answered : answer hashes envelope = some (index, hashHex, tx)) :
    envelope.id.toIndex = some index ∧ hashes[index]? = some hashHex := by
  unfold answer at answered
  obtain ⟨found, isIndex, later⟩ := Option.bind_eq_some_iff.mp answered
  obtain ⟨text, requested, last⟩ := Option.bind_eq_some_iff.mp later
  split at last
  · cases last
    exact ⟨isIndex, requested⟩
  · cases last

theorem fillSlots_append (rows later : List RpcBatchFetchResponseEnvelope)
    (fetched : List (Option LiveTx)) :
    fillSlots hashes (rows ++ later) fetched =
      (fillSlots hashes rows fetched).bind (fillSlots hashes later) := by
  induction rows generalizing fetched with
  | nil => rfl
  | cons envelope rest ih =>
      rw [List.cons_append, fillSlots_cons, fillSlots_cons]
      split
      · exact ih fetched
      · split
        · rfl
        · exact ih _
        · exact ih _

/-- What a slot holds: the transaction of the last answer to its index. -/
def Holds (hashes : List String) (rows : List RpcBatchFetchResponseEnvelope) (index : Nat)
    (slot : Option LiveTx) : Prop :=
  match latest Prod.fst index (answers hashes rows) with
  | none => slot = none
  | some (_, hashHex, tx) => ∃ live, rpcTxToLiveTx tx hashHex = .returned (.ok live) ∧
    slot = some live

theorem Holds.unique {index : Nat} {slot other : Option LiveTx}
    (holds : Holds hashes rows index slot) (also : Holds hashes rows index other) :
    slot = other := by
  unfold Holds at holds also
  cases last : latest Prod.fst index (answers hashes rows) with
  | none =>
      rw [last] at holds also
      exact Eq.trans holds (Eq.symm also)
  | some answered =>
      rw [last] at holds also
      obtain ⟨live, decoded, rfl⟩ := holds
      obtain ⟨live', decoded', rfl⟩ := also
      cases decoded.symm.trans decoded'
      rfl

variable (valid : ∀ hashHex ∈ hashes, ∃ requested, spelledHash hashHex = some requested)
include valid

/-- A body of whole texts fills every slot with the last answer to its index. -/
theorem fillSlots_spec (whole : ∀ answered ∈ answers hashes rows, ¬ answered.2.2.Breaks) :
    ∃ fetched, fillSlots hashes rows (List.replicate hashes.length none) = .returned fetched ∧
      fetched.length = hashes.length ∧
        ∀ index slot, fetched[index]? = some slot → Holds hashes rows index slot := by
  induction rows using List.reverseRecOn with
  | nil =>
      refine ⟨_, rfl, List.length_replicate, fun index slot held => ?_⟩
      exact (List.eq_of_mem_replicate (List.mem_of_getElem? held) :)
  | append_singleton rows envelope ih =>
      obtain ⟨fetched, filled, length, holds⟩ := ih fun answered member =>
        whole answered (by
          rw [answers, List.filterMap_append]
          exact List.mem_append_left _ member)
      rw [fillSlots_append, filled]
      change ∃ after, fillSlots hashes [envelope] fetched = _ ∧ _
      rw [fillSlots_cons]
      have listed : answers hashes (rows ++ [envelope]) =
          answers hashes rows ++ (answer hashes envelope).toList := by
        rw [answers, List.filterMap_append]
        cases answered : answer hashes envelope <;> simp [answers, answered]
      unfold Holds
      rw [listed] at whole ⊢
      cases answered : answer hashes envelope with
      | none =>
          refine ⟨fetched, rfl, length, fun index slot held => ?_⟩
          rw [Option.toList_none, List.append_nil]
          exact holds index slot held
      | some result =>
          obtain ⟨place, hashHex, tx⟩ := result
          rw [answered] at whole
          obtain ⟨-, requestedText⟩ := answer_spec answered
          obtain ⟨requested, parsed⟩ := valid hashHex (List.mem_of_getElem? requestedText)
          have unbroken := whole (place, hashHex, tx)
            (List.mem_append_right _ (List.mem_singleton_self _))
          rcases @rpcTxToLiveTx_cases tx hashHex requested parsed with ⟨breaks, -⟩ |
            ⟨-, live, decoded, -⟩
          · exact absurd breaks unbroken
          · refine ⟨fetched.set place (some live), ?_, by rw [List.length_set, length],
              fun index slot held => ?_⟩
            · dsimp only
              rw [decoded]
              rfl
            · rw [Option.toList_some, latest_concat]
              rw [List.getElem?_set] at held
              by_cases same : place = index
              · rw [if_pos same] at held
                rw [if_pos same]
                split at held
                · cases held
                  exact ⟨live, decoded, rfl⟩
                · cases held
              · rw [if_neg same] at held
                rw [if_neg same]
                exact holds index slot held

/-- A text that breaks stops the decoding of the whole body. -/
theorem fillSlots_eq_panicked (breaks : ∃ answered ∈ answers hashes rows, answered.2.2.Breaks)
    (fetched : List (Option LiveTx)) : fillSlots hashes rows fetched = .panicked := by
  obtain ⟨⟨index, hashHex, tx⟩, member, broken⟩ := breaks
  obtain ⟨envelope, listed, answered⟩ := List.mem_filterMap.mp member
  obtain ⟨earlier, later, rfl⟩ := List.append_of_mem listed
  rw [fillSlots_append]
  cases fillSlots hashes earlier fetched with
  | panicked => rfl
  | returned before =>
      obtain ⟨requested, parsed⟩ := valid hashHex (List.mem_of_getElem? (answer_spec answered).2)
      change fillSlots hashes (envelope :: later) before = .panicked
      rw [fillSlots_cons, answered]
      rcases @rpcTxToLiveTx_cases tx hashHex requested parsed with ⟨-, panics⟩ | ⟨unbroken, -⟩
      · dsimp only
        rw [panics]
      · exact absurd broken unbroken

/-- **The order of answers to different indices does not matter.** -/
theorem fillSlots_of_perm {others : List RpcBatchFetchResponseEnvelope} (same : others.Perm rows)
    (distinct : rows.Pairwise fun left right =>
      ∀ index, left.id.toIndex = some index → right.id.toIndex ≠ some index) :
    fillSlots hashes others (List.replicate hashes.length none) =
      fillSlots hashes rows (List.replicate hashes.length none) := by
  have sameAnswers : (answers hashes others).Perm (answers hashes rows) := same.filterMap _
  have apart : (answers hashes rows).Pairwise fun left right => left.1 ≠ right.1 := by
    refine List.pairwise_filterMap.mpr (distinct.imp fun differ one isOne other isOther equal => ?_)
    exact differ one.1 (answer_spec isOne).1 (equal ▸ (answer_spec isOther).1)
  by_cases breaks : ∃ answered ∈ answers hashes rows, answered.2.2.Breaks
  · have broken : ∃ answered ∈ answers hashes others, answered.2.2.Breaks := by
      obtain ⟨answered, member, breaking⟩ := breaks
      exact ⟨answered, sameAnswers.mem_iff.mpr member, breaking⟩
    rw [fillSlots_eq_panicked valid breaks, fillSlots_eq_panicked valid broken]
  · have whole : ∀ answered ∈ answers hashes rows, ¬ answered.2.2.Breaks :=
      fun answered member breaking => breaks ⟨answered, member, breaking⟩
    obtain ⟨fetched, filled, length, holds⟩ := fillSlots_spec valid whole
    obtain ⟨fetched', filled', length', holds'⟩ := fillSlots_spec valid fun answered member =>
      whole answered (sameAnswers.mem_iff.mp member)
    rw [filled, filled']
    refine congrArg Outcome.returned (List.ext_getElem (length'.trans length.symm) ?_)
    intro index inOther inRows
    have held := holds' index _ (List.getElem?_eq_getElem inOther)
    unfold Holds at held
    rw [latest_of_perm Prod.fst index sameAnswers apart] at held
    exact Holds.unique held (holds index _ (List.getElem?_eq_getElem inRows))

end Slots

/-! ## Attribution -/

/-- The decoding of a body attributes transactions to requests: it returns a slot for each request,
the transaction in a slot is the requested one, and the order of answers to different indices does not
matter. -/
structure Attributes (hashes : List String) (response : RpcBatchFetchResponseBody) : Prop where
  attributed : ∃ fetched,
    decodeTransactionFetchBatchResponseToLiveTxs response hashes = .returned fetched ∧
      fetched.length = hashes.length ∧
        ∀ (index : Nat) (tx : LiveTx), fetched[index]? = some (some tx) →
          ∃ hashHex, hashes[index]? = some hashHex ∧ spelledHash hashHex = some tx.hash
  unordered : ∀ rows others, response = .batch rows → others.Perm rows →
    (rows.Pairwise fun left right =>
      ∀ index, left.id.toIndex = some index → right.id.toIndex ≠ some index) →
        decodeTransactionFetchBatchResponseToLiveTxs (.batch others) hashes =
          decodeTransactionFetchBatchResponseToLiveTxs response hashes

/-- No answer has a text that cannot be cut in pairs of bytes, and the last answer to an index spells
the requested hash or none. -/
structure AnswersRequests (hashes : List String) (rows : List RpcBatchFetchResponseEnvelope) :
    Prop where
  whole : ∀ answered ∈ answers hashes rows, ¬ answered.2.2.Breaks
  own : ∀ index hashHex tx,
    latest Prod.fst index (answers hashes rows) = some (index, hashHex, tx) →
      ∀ hash, spelledHash tx.hash = some hash → spelledHash hashHex = some hash

/-- **A batch response is attributed exactly when its answers spell the requested hashes or none.** -/
theorem attributes_iff (hashes : List String) (response : RpcBatchFetchResponseBody)
    (valid : ∀ hashHex ∈ hashes, IsHex 32 hashHex.toList) :
    Attributes hashes response ↔ AnswersRequests hashes response.rows := by
  have parsed : ∀ hashHex ∈ hashes, ∃ requested, spelledHash hashHex = some requested := by
    intro hashHex member
    obtain ⟨bytes, read⟩ := exists_parseFixedHex_of_isHex (valid hashHex member)
    exact ⟨hashOfBytes bytes, spelledHash_eq_some_iff.mpr ⟨bytes, read, rfl⟩⟩
  constructor
  · rintro ⟨⟨fetched, decoded, -, attributed⟩, -⟩
    have whole : ∀ answered ∈ answers hashes response.rows, ¬ answered.2.2.Breaks := by
      intro answered member breaks
      rw [decodeTransactionFetchBatchResponseToLiveTxs,
        fillSlots_eq_panicked parsed ⟨answered, member, breaks⟩] at decoded
      cases decoded
    refine ⟨whole, fun index hashHex tx last hash spelled => ?_⟩
    obtain ⟨filling, filled, length, holds⟩ := fillSlots_spec parsed whole
    cases filled.symm.trans decoded
    obtain ⟨envelope, -, answered⟩ := List.mem_filterMap.mp (mem_of_latest _ _ last).1
    have requestedText := (answer_spec answered).2
    have inRange : index < fetched.length := by
      rw [length]
      exact (List.getElem?_eq_some_iff.mp requestedText).1
    have held := holds index _ (List.getElem?_eq_getElem inRange)
    unfold Holds at held
    rw [last] at held
    obtain ⟨live, fromTx, slot⟩ := held
    obtain ⟨text, isText, named⟩ := attributed index live
      (by rw [List.getElem?_eq_getElem inRange, slot])
    cases requestedText.symm.trans isText
    rcases @rpcTxToLiveTx_cases tx hashHex live.hash named with ⟨-, panics⟩ | ⟨-, other, ok, own⟩
    · cases panics.symm.trans fromTx
    · cases ok.symm.trans fromTx
      rw [spelled] at own
      rw [named, own]
      rfl
  · rintro ⟨whole, own⟩
    refine ⟨?_, fun rows others isBatch same distinct => ?_⟩
    · obtain ⟨fetched, filled, length, holds⟩ := fillSlots_spec parsed whole
      refine ⟨fetched, filled, length, fun index live slot => ?_⟩
      have held := holds index _ slot
      unfold Holds at held
      cases last : latest Prod.fst index (answers hashes response.rows) with
      | none =>
          rw [last] at held
          cases held
      | some answered =>
          obtain ⟨place, hashHex, tx⟩ := answered
          rw [last] at held
          obtain ⟨member, rfl⟩ := mem_of_latest _ _ last
          obtain ⟨envelope, -, answered⟩ := List.mem_filterMap.mp member
          have requestedText := (answer_spec answered).2
          obtain ⟨requested, named⟩ := parsed hashHex (List.mem_of_getElem? requestedText)
          obtain ⟨other, fromTx, isLive⟩ := held
          cases isLive
          refine ⟨hashHex, requestedText, ?_⟩
          rcases @rpcTxToLiveTx_cases tx hashHex requested named with ⟨-, panics⟩ |
            ⟨-, decoded, ok, resolved⟩
          · cases panics.symm.trans fromTx
          · cases ok.symm.trans fromTx
            rw [resolved]
            cases spelled : spelledHash tx.hash with
            | none => exact named
            | some hash => exact own place hashHex tx last hash spelled
    · cases isBatch
      exact fillSlots_of_perm parsed same distinct

/-- The text of a hash whose digits are all the same. -/
def repeatedHash (digit : Char) : String := String.ofList ('0' :: 'x' :: List.replicate 64 digit)

theorem isHex_repeatedHash {digit : Char} (hex : IsHexDigit digit) :
    IsHex 32 (repeatedHash digit).toList := by
  refine ⟨List.replicate 64 digit, List.length_replicate, fun other member => ?_, .inr ?_⟩
  · rw [List.eq_of_mem_replicate member]
    exact hex
  · exact String.toList_ofList

/-- Two requests, the second of which is answered after an error of the first. -/
theorem attributes_of_decimal_id :
    Attributes [repeatedHash '1', repeatedHash '2']
      (.batch [{ id := .string "0x0", error := some {} },
        { id := .string " 1", result := some { hash := repeatedHash '2' } }]) := by
  refine (attributes_iff _ _ fun hashHex member => ?_).mpr ?_
  · simp only [List.mem_cons, List.not_mem_nil, or_false] at member
    rcases member with rfl | rfl
    · exact isHex_repeatedHash (rfl : IsHexDigit '1')
    · exact isHex_repeatedHash (rfl : IsHexDigit '2')
  · have answered : answers [repeatedHash '1', repeatedHash '2']
        [{ id := .string "0x0", error := some {} },
          { id := .string " 1", result := some { hash := repeatedHash '2' } }] =
        [(1, repeatedHash '2', { hash := repeatedHash '2' })] := by
      decide +kernel
    refine ⟨fun result member => ?_, fun index hashHex tx last hash spelled => ?_⟩
    · change result ∈ answers _ [_, _] at member
      rw [answered, List.mem_singleton] at member
      subst member
      rintro (breaks | ⟨text, listed, value, given, -⟩)
      · rw [← @parseFixedHex_eq_panicked_iff 32] at breaks
        revert breaks
        decide +kernel
      · simp only [List.mem_cons, List.not_mem_nil, or_false, or_self] at listed
        subst listed
        cases given
    · have member := (mem_of_latest _ _ last).1
      change _ ∈ answers _ [_, _] at member
      rw [answered, List.mem_singleton] at member
      cases member
      exact spelled

/-- A transaction of another hash takes the slot of the requested one. -/
theorem foreignHash_not_attributes :
    ¬ Attributes [repeatedHash '1', repeatedHash '2']
      (.batch [{ id := .number 0, result := some { hash := repeatedHash '3' } }]) := by
  rintro ⟨⟨fetched, decoded, -, attributed⟩, -⟩
  have slots : ∃ live, decodeTransactionFetchBatchResponseToLiveTxs
      (.batch [{ id := .number 0, result := some { hash := repeatedHash '3' } }])
        [repeatedHash '1', repeatedHash '2'] = .returned [some live, none] ∧
      spelledHash (repeatedHash '1') ≠ some live.hash := by
    refine ⟨{
      hash := 0x3333333333333333333333333333333333333333333333333333333333333333
      sender := 0, toAddress := none, nonce := 0, txType := 0, valueWei := none, gasLimit := none
      chainId := none, gasPriceWei := none, maxFeePerGasWei := none
      maxPriorityFeePerGasWei := none, maxFeePerBlobGasWei := none, input := [] }, ?_, ?_⟩
    · decide +kernel
    · decide +kernel
  obtain ⟨live, result, other⟩ := slots
  cases result.symm.trans decoded
  obtain ⟨hashHex, requested, named⟩ := attributed 0 live rfl
  rw [← Option.some.inj requested] at named
  exact other named

end Mempulse.LiveRpc
