import Mempulse.WebUi.Values

/-!
# The transaction history

The history of the dashboard merges the rows it has with those that come in: first the incoming
rows, then the existing ones, each hash once, without the rows that are too old, up to a cap. A row
that says the same as the existing one of its hash is replaced by it, so that it stays the same
object.
-/

set_option autoImplicit false

namespace Mempulse.WebUi

/-! ## Rows -/

/-- The fields of a row that are read. -/
structure TxSummary where
  hash : JsValue
  sender : JsValue
  nonce : JsValue
  txType : JsValue
  seenUnixMs : JsValue
  sourceId : JsValue
  chainId : JsValue
  deriving DecidableEq

/-- The options of a merge. -/
structure MergeOptions where
  maxAgeMs : JsValue := .undefined
  nowUnixMs : JsValue := .undefined
  deriving DecidableEq

/-- The three functions that the live store has a copy of. -/
def resolveCap (maxItems : JsValue) : Nat :=
  match maxItems.finite? with
  | none => 0
  | some maxItems => floorFromZero maxItems

section Rows

/- A row is a reference; its fields are read through `read`. A value that is no row, such as `null`,
is `none`. -/
variable {Row : Type} (read : Row → TxSummary)

/-- `row?.field`. -/
def readField (field : TxSummary → JsValue) (row : Option Row) : JsValue :=
  match row with
  | none => .undefined
  | some row => field (read row)

/-- `row?.hash`. -/
def hashOf (row : Option Row) : JsValue := readField read (·.hash) row

/-- Whether a row was seen at the cutoff or after it. -/
def isWithinAgeWindow (row : Option Row) (cutoffUnixMs : JsNumber) : Bool :=
  match cutoffUnixMs with
  | .finite cutoffUnixMs =>
    match (readField read (·.seenUnixMs) row).finite? with
    | some seenUnixMs => cutoffUnixMs ≤ seenUnixMs
    | none => true
  | _ => true

/-- Whether two rows have the same fields. -/
def txSummaryEquivalent (left right : Option Row) : Bool :=
  (readField read (·.hash) left).strictEquals (readField read (·.hash) right) &&
    (readField read (·.sender) left).strictEquals (readField read (·.sender) right) &&
    (readField read (·.nonce) left).strictEquals (readField read (·.nonce) right) &&
    (readField read (·.txType) left).strictEquals (readField read (·.txType) right) &&
    (readField read (·.seenUnixMs) left).strictEquals (readField read (·.seenUnixMs) right) &&
    (readField read (·.sourceId) left).strictEquals (readField read (·.sourceId) right) &&
    (readField read (·.chainId) left).strictEquals (readField read (·.chainId) right)

end Rows

/-! ## The merge -/

namespace TxHistory

/-- The clock is read when the options give no time. Differences of numbers are rounded. -/
def resolveCutoffUnixMs (round : ℚ → JsNumber) (options : MergeOptions) (dateNow : ℚ) : JsNumber :=
  let nowUnixMs := options.nowUnixMs.finite?.getD dateNow
  match options.maxAgeMs.finite? with
  | some maxAgeMs => round (nowUnixMs - floorFromZero maxAgeMs)
  | none => .negativeInfinity

variable {Row : Type} (read : Row → TxSummary)

/-- The row that is already there, when it says the same. -/
def resolveStableRow (existingByHash : JsMap Row) (row : Option Row) : Option Row :=
  let hash := hashOf read row
  if hash.truthy then
    let existing := existingByHash hash
    if existing.isSome && txSummaryEquivalent read existing row then existing else row
  else row

/-- The rows merged so far, and the set of their hashes. -/
structure Merge (Row : Type) where
  merged : List (Option Row) := []
  seen : List JsValue := []

/-- Says also whether the cap is reached. -/
def appendRows (cap : Nat) (cutoffUnixMs : JsNumber) (existingByHash : JsMap Row) :
    Merge Row → List (Option Row) → Bool × Merge Row
  | merge, [] => (false, merge)
  | merge, row :: rest =>
    if !isWithinAgeWindow read row cutoffUnixMs then
      appendRows cap cutoffUnixMs existingByHash merge rest
    else
      let hash := hashOf read row
      if !hash.truthy || merge.seen.contains hash then
        appendRows cap cutoffUnixMs existingByHash merge rest
      else
        let merge : Merge Row :=
          { merged := merge.merged ++ [resolveStableRow read existingByHash row]
            seen := merge.seen ++ [hash] }
        if cap ≤ merge.merged.length then (true, merge)
        else appendRows cap cutoffUnixMs existingByHash merge rest

/-- The existing rows by their hashes. -/
def indexByHash (existingRows : List (Option Row)) : JsMap Row :=
  existingRows.foldl (fun existingByHash row =>
    if (hashOf read row).truthy then existingByHash.set (hashOf read row) row
    else existingByHash) .empty

/-- The incoming rows before the existing ones, one a hash, within the window and the bound. -/
def mergeTransactionHistory (round : ℚ → JsNumber)
    (existingRows incomingRows : Option (List (Option Row))) (maxItems : JsValue)
    (options : MergeOptions) (dateNow : ℚ) : List (Option Row) :=
  let cap := resolveCap maxItems
  if cap = 0 then []
  else
    let cutoffUnixMs := resolveCutoffUnixMs round options dateNow
    let existingByHash := indexByHash read (existingRows.getD [])
    let incoming := appendRows read cap cutoffUnixMs existingByHash {} (incomingRows.getD [])
    if incoming.1 then incoming.2.merged
    else (appendRows read cap cutoffUnixMs existingByHash incoming.2
      (existingRows.getD [])).2.merged

end TxHistory

end Mempulse.WebUi
