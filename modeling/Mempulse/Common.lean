import Mathlib

/-!
# Shared primitives

The fixed-width types of the `common` crate and the machine arithmetic the other crates use.

Hashes and addresses are byte arrays in the source and are compared byte by byte, most
significant byte first; that is the numeric order of the bit vector they spell, so they are
bit vectors here. Counters are natural numbers with their saturation written out, and nonces
keep their machine type because `checked_add` on the last nonce is observable.
-/

set_option autoImplicit false

namespace Mempulse

/-- Canonical 32-byte transaction hash. -/
abbrev TxHash := BitVec 256

/-- Canonical 32-byte block hash. -/
abbrev BlockHash := BitVec 256

/-- Canonical 20-byte EVM address. -/
abbrev Address := BitVec 160

/-- `u128`. -/
abbrev U128 := BitVec 128

/-- The name of a peer. -/
abbrev PeerId := String

/-- The name of an event source. -/
abbrev SourceId := String

/-- The id of an opportunity's candidate. -/
abbrev CandidateId := String

/-- The name of a strategy. -/
abbrev StrategyId := String

instance : Std.TransOrd TxHash := inferInstance

instance : Std.TransOrd Address := inferInstance

instance : LawfulBEq TxHash := inferInstance

/-- `{byte:02x}` for every byte of a byte array. -/
def hexString {width : Nat} (bytes : BitVec width) : String :=
  String.ofList <| (List.range (width / 4)).reverse.map fun position =>
    Nat.digitChar (bytes.toNat / 16 ^ position % 16)

/-- A byte array as every crate writes it: the marker and `{byte:02x}` for every byte. -/
def hexText {width : Nat} (bytes : BitVec width) : String := "0x" ++ hexString bytes

/-- `u64::MAX`. -/
def u64Max : Nat := 2 ^ 64 - 1

/-- `usize::MAX` on the 64-bit targets the service is built for. -/
def usizeMax : Nat := 2 ^ 64 - 1

/-- `u128::MAX`. -/
def u128Max : Nat := 2 ^ 128 - 1

/-- `saturating_add` of an unsigned integer type whose largest value is `bound`. -/
def saturatingAdd (bound left right : Nat) : Nat := min (left + right) bound

/-- `saturating_mul` of an unsigned integer type whose largest value is `bound`. -/
def saturatingMul (bound left right : Nat) : Nat := min (left * right) bound

theorem saturatingAdd_of_le {bound left right : Nat} (fits : left + right ≤ bound) :
    saturatingAdd bound left right = left + right :=
  Nat.min_eq_left fits

theorem saturatingAdd_le_bound (bound left right : Nat) : saturatingAdd bound left right ≤ bound :=
  Nat.min_le_right _ _

theorem saturatingAdd_lt_bound {bound left right : Nat}
    (below : saturatingAdd bound left right < bound) :
    saturatingAdd bound left right = left + right := by
  unfold saturatingAdd at below ⊢
  omega

/-- A fold of saturating additions is the exact sum, cut at the bound. -/
theorem foldl_saturatingAdd {α : Type} (bound : Nat) (weight : α → Nat) (list : List α) (start : Nat)
    (within : start ≤ bound) :
    list.foldl (fun total element => saturatingAdd bound total (weight element)) start =
      min (start + (list.map weight).sum) bound := by
  induction list generalizing start with
  | nil => exact (Nat.min_eq_left within).symm
  | cons element rest ih =>
      rw [List.foldl_cons, ih _ (saturatingAdd_le_bound bound start (weight element)), List.map_cons,
        List.sum_cons]
      unfold saturatingAdd
      omega

/-- `nonce.checked_add(1)`. -/
def checkedSucc (nonce : UInt64) : Option UInt64 :=
  if nonce.toNat + 1 < 2 ^ 64 then some (nonce + 1) else none

/-- The checked successor of a nonce is the nonce one above it. -/
theorem checkedSucc_eq_some_iff {nonce successor : UInt64} :
    checkedSucc nonce = some successor ↔ successor.toNat = nonce.toNat + 1 := by
  have bound := successor.toNat_lt
  unfold checkedSucc
  split
  case isTrue fits =>
    have value : (nonce + 1).toNat = nonce.toNat + 1 := by
      rw [UInt64.toNat_add]
      exact Nat.mod_eq_of_lt fits
    rw [Option.some.injEq, ← UInt64.toNat_inj, value, eq_comm]
  case isFalse overflows =>
    simp only [reduceCtorEq, false_iff]
    omega

end Mempulse
