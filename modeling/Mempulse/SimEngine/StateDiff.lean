import Mempulse.Library.TreeMaps
import Mempulse.Replay.CheckpointHashes

/-!
# State diffs

The diff of a simulated transaction is hashed account by account, in the order of their addresses.
Numbers are written in decimal, without separators, so the digits of a slot and of its value can be
parted in several ways: two diffs of different digit counts may be written alike.
-/

set_option autoImplicit false

namespace Mempulse.SimEngine

open Std Library Replay

/-! ## Data -/

/-- The words of the machine. -/
abbrev U256 := BitVec 256

/-- The fields of an account's info that are hashed. -/
structure AccountInfo where
  balance : U256
  nonce : UInt64
  codeHash : BitVec 256
  deriving DecidableEq

/-- An account of the diff. Its slots are the changed ones, each with its present value. -/
structure Account where
  info : AccountInfo
  /-- The bits of the source's status flags. -/
  status : UInt8
  changedStorageSlots : ExtTreeMap U256 U256

/-- The accounts a transaction touched. -/
abbrev EvmState := ExtTreeMap Address Account

/-- The orders in which the hash maps of one run list their entries. -/
structure StateIteration where
  accounts : EvmState → List (Address × Account)
  slots : Account → List (U256 × U256)
  accountsPerm : ∀ state, (accounts state).Perm state.toList
  slotsPerm : ∀ account, (slots account).Perm account.changedStorageSlots.toList

/-- Maps that list their keys in increasing order. -/
def StateIteration.increasing : StateIteration where
  accounts state := state.toList
  slots account := account.changedStorageSlots.toList
  accountsPerm _ := List.Perm.refl _
  slotsPerm _ := List.Perm.refl _

/-! ## The hash -/

/-- `to_string().as_bytes()` of a number. -/
def decimalBytes (value : U256) : List UInt8 :=
  (Nat.toDigits 10 value.toNat).map fun digit => UInt8.ofNat digit.toNat

/-- What is fed to the hasher. Addresses compare as their bytes do. -/
def stateBytes (iteration : StateIteration) (state : EvmState) : List UInt8 :=
  (stableSort (compareOn Prod.fst) (iteration.accounts state)).flatMap fun entry =>
    arrayBytes entry.1 ++ decimalBytes entry.2.info.balance ++
      leBytes entry.2.info.nonce.toBitVec ++ arrayBytes entry.2.info.codeHash ++ [entry.2.status] ++
        (stableSort (compareOn Prod.fst) (iteration.slots entry.2)).flatMap fun slot =>
          decimalBytes slot.1 ++ decimalBytes slot.2

/-- The digest of a state, its accounts and slots taken in the order of the maps. -/
def hashStateDiff (sha256 : List UInt8 → Digest) (iteration : StateIteration) (state : EvmState) :
    Digest :=
  sha256 (stateBytes iteration state)

/-! ## Sorted listings -/

/-- A listing of a map in any order, sorted by its keys, is the list of the map. -/
theorem stableSort_listing {Key Value : Type} [Ord Key] [TransOrd Key] [LawfulEqOrd Key]
    {map : ExtTreeMap Key Value} {listing : List (Key × Value)} (perm : listing.Perm map.toList) :
    stableSort (compareOn Prod.fst) listing = map.toList := by
  have ordered : Ordered (compareOn Prod.fst) map.toList :=
    ExtTreeMap.ordered_keys_toList.imp fun below => by
      have keys : compareOn Prod.fst _ _ = .lt := below
      rw [keys]
      rfl
  rw [← stableSort_eq_self ordered]
  refine stableSort_eq_of_perm perm fun entry listed other alsoListed equal => ?_
  have keys : entry.1 = other.1 := Std.compare_eq_iff_eq.mp equal
  have found := mem_toList.mp (perm.mem_iff.mp listed)
  rw [keys, mem_toList.mp (perm.mem_iff.mp alsoListed)] at found
  exact Prod.ext keys (Option.some.inj found).symm

/-! ## What is hashed -/

/-- The part of an account that is hashed. -/
structure HashedAccount where
  address : Address
  info : AccountInfo
  status : UInt8
  slots : List (U256 × U256)
  deriving DecidableEq

/-- The hashed part of an account. -/
def hashedAccount (entry : Address × Account) : HashedAccount where
  address := entry.1
  info := entry.2.info
  status := entry.2.status
  slots := entry.2.changedStorageSlots.toList

/-- The hashed part of a state, in the order of the addresses. -/
def hashedState (state : EvmState) : List HashedAccount := state.toList.map hashedAccount

theorem hashedAccount_injective : Function.Injective hashedAccount := by
  rintro ⟨address, info, status, slots⟩ ⟨other, otherInfo, otherStatus, otherSlots⟩ same
  obtain ⟨addresses, infos, statuses, listed⟩ := HashedAccount.mk.inj same
  cases addresses
  cases infos
  cases statuses
  cases ExtTreeMap.toList_inj.mp listed
  rfl

theorem hashedState_injective : Function.Injective hashedState := fun _ _ same =>
  ExtTreeMap.toList_inj.mp (hashedAccount_injective.list_map same)

/-- How many digits the numbers of a state have: for each account those of its balance, and of each
slot and its value. -/
abbrev DigitLayout := List (Nat × List (Nat × Nat))

/-- The lengths of the decimals of an account. -/
def HashedAccount.layout (account : HashedAccount) : Nat × List (Nat × Nat) :=
  ((decimalBytes account.info.balance).length,
    account.slots.map fun slot => ((decimalBytes slot.1).length, (decimalBytes slot.2).length))

/-- The lengths of the decimals of a state. -/
def layoutOf (accounts : List HashedAccount) : DigitLayout := accounts.map HashedAccount.layout

/-- The two decimals of a slot. -/
def slotWords (slot : U256 × U256) : List (List UInt8) := [decimalBytes slot.1, decimalBytes slot.2]

/-- The fields of an account, in the order they are written. -/
def HashedAccount.words (account : HashedAccount) : List (List UInt8) :=
  arrayBytes account.address :: decimalBytes account.info.balance ::
    leBytes account.info.nonce.toBitVec :: arrayBytes account.info.codeHash :: [account.status] ::
      account.slots.flatMap slotWords

/-! ## Words -/

/-- The digits of a number are read back from their bytes. -/
theorem map_decimalBytes (value : U256) :
    (decimalBytes value).map (fun byte => Char.ofNat byte.toNat) = Nat.toDigits 10 value.toNat := by
  rw [decimalBytes, List.map_map]
  refine (List.map_congr_left fun digit member => ?_).trans (List.map_id _)
  have isDigit := Nat.isDigit_of_mem_toDigits (by decide) (by decide) member
  have small : digit.toNat ≤ 57 := (Char.isDigit_iff_toNat.mp isDigit).2
  have fits : digit.toNat < UInt8.size := small.trans_lt (by decide)
  rw [Function.comp_apply, UInt8.toNat_ofNat_of_lt' fits, Char.ofNat_toNat, id]

theorem decimalBytes_injective : Function.Injective decimalBytes := by
  intro value other same
  have digits : Nat.toDigits 10 value.toNat = Nat.toDigits 10 other.toNat := by
    rw [← map_decimalBytes, same, map_decimalBytes]
  apply BitVec.eq_of_toNat_eq
  rw [← Nat.ofDigitChars_ten_toDigits (n := value.toNat), digits, Nat.ofDigitChars_ten_toDigits]

theorem delimits_slotWords : DelimitsOn (fun _ => True) slotWords := by
  refine .of_length 2 (fun _ => rfl) fun slot other _ _ same => ?_
  obtain ⟨key, same⟩ := List.cons.inj same
  exact Prod.ext (decimalBytes_injective key) (decimalBytes_injective (List.cons.inj same).1)

/-- An account is read off the words of several when the number of its slots is known. -/
theorem account_of_words {account other : HashedAccount}
    (slots : account.slots.length = other.slots.length) {rest more : List (List UInt8)}
    (same : account.words ++ rest = other.words ++ more) : account = other ∧ rest = more := by
  obtain ⟨address, same⟩ := List.cons.inj same
  obtain ⟨balance, same⟩ := List.cons.inj same
  obtain ⟨nonce, same⟩ := List.cons.inj same
  obtain ⟨codeHash, same⟩ := List.cons.inj same
  obtain ⟨status, same⟩ := List.cons.inj same
  obtain ⟨listed, tail⟩ :=
    delimits_slotWords.flatMap (fun _ _ => trivial) (fun _ _ => trivial) slots same
  refine ⟨?_, tail⟩
  rcases account with ⟨_, ⟨_, _, _⟩, _, _⟩
  rcases other with ⟨_, ⟨_, _, _⟩, _, _⟩
  cases (delimits_arrayBytes (by decide)).eq_of_eq trivial trivial address
  cases decimalBytes_injective balance
  cases UInt64.toBitVec_inj.mp (delimits_leBytes.eq_of_eq trivial trivial nonce)
  cases (delimits_arrayBytes (by decide)).eq_of_eq trivial trivial codeHash
  cases (List.cons.inj status).1
  cases listed
  rfl

theorem accounts_of_words {accounts others : List HashedAccount}
    (layouts : layoutOf accounts = layoutOf others)
    (same : accounts.flatMap HashedAccount.words = others.flatMap HashedAccount.words) :
    accounts = others := by
  induction accounts generalizing others with
  | nil =>
      cases others with
      | nil => rfl
      | cons other others => cases layouts
  | cons account accounts ih =>
      cases others with
      | nil => cases layouts
      | cons other others =>
          obtain ⟨first, behind⟩ := List.cons.inj layouts
          have slots := congrArg (fun layout => layout.2.length) first
          simp only [HashedAccount.layout, List.length_map] at slots
          rw [List.flatMap_cons, List.flatMap_cons] at same
          obtain ⟨rfl, tail⟩ := account_of_words slots same
          rw [ih behind tail]

/-- The lengths of the words of an account. -/
def accountLengths (layout : Nat × List (Nat × Nat)) : List Nat :=
  20 :: layout.1 :: 8 :: 32 :: 1 :: layout.2.flatMap fun slot => [slot.1, slot.2]

theorem map_length_words (account : HashedAccount) :
    account.words.map List.length = accountLengths account.layout := by
  simp [HashedAccount.words, HashedAccount.layout, accountLengths, arrayBytes, leBytes, slotWords,
    List.map_flatMap, List.flatMap_map]

theorem map_length_flatMap_words (accounts : List HashedAccount) :
    (accounts.flatMap HashedAccount.words).map List.length =
      (layoutOf accounts).flatMap accountLengths := by
  rw [List.map_flatMap, layoutOf, List.flatMap_map]
  simp only [map_length_words]

/-- How diffs are hashed. -/
def diffCode : Unframed (List HashedAccount) UInt8 DigitLayout where
  words accounts := accounts.flatMap HashedAccount.words
  layout := layoutOf
  lengths accounts others layouts := by
    rw [map_length_flatMap_words, map_length_flatMap_words, layouts]
  known accounts others layouts same := accounts_of_words layouts same

theorem flatten_slotWords (slots : List (U256 × U256)) :
    (slots.flatMap slotWords).flatten =
      slots.flatMap fun slot => decimalBytes slot.1 ++ decimalBytes slot.2 := by
  induction slots with
  | nil => rfl
  | cons slot rest ih =>
      rw [List.flatMap_cons, List.flatten_append, ih, List.flatMap_cons]
      simp [slotWords]

/-- The number of bytes that a layout is written with. -/
def DigitLayout.writtenSize (layout : DigitLayout) : Nat := (layout.flatMap accountLengths).sum

theorem length_stream (accounts : List HashedAccount) :
    (diffCode.stream accounts).length = (layoutOf accounts).writtenSize := by
  rw [Unframed.stream, List.length_flatten]
  exact congrArg List.sum (map_length_flatMap_words accounts)

/-- The bytes of a diff do not depend on the order of its maps. -/
theorem stateBytes_eq (iteration : StateIteration) (state : EvmState) :
    stateBytes iteration state = diffCode.stream (hashedState state) := by
  have slots : ∀ account : Account, stableSort (compareOn Prod.fst) (iteration.slots account) =
      account.changedStorageSlots.toList := fun account =>
    stableSort_listing (iteration.slotsPerm account)
  rw [stateBytes, stableSort_listing (iteration.accountsPerm state)]
  simp only [slots, Unframed.stream, diffCode, hashedState]
  induction state.toList with
  | nil => rfl
  | cons entry rest ih =>
      rw [List.flatMap_cons, ih, List.map_cons, List.flatMap_cons, List.flatten_append]
      congr 1
      simp [HashedAccount.words, hashedAccount, flatten_slotWords]

/-! ## Identification -/

/-- **The hash identifies a diff** as against another one, unless the digest collides on what is
written of the two. -/
def Identifies (sha256 : List UInt8 → Digest) (iteration other : StateIteration)
    (state another : EvmState) : Prop :=
  ¬ Collides sha256 (stateBytes iteration state) (stateBytes other another) →
    hashStateDiff sha256 iteration state = hashStateDiff sha256 other another → state = another

theorem identifies_iff_tells (sha256 : List UInt8 → Digest) (iteration other : StateIteration)
    (state another : EvmState) : Identifies sha256 iteration other state another ↔
      (diffCode.stream (hashedState state) = diffCode.stream (hashedState another) →
        hashedState state = hashedState another) := by
  have states : hashedState state = hashedState another ↔ state = another :=
    hashedState_injective.eq_iff
  rw [Identifies, states, hashStateDiff, hashStateDiff, stateBytes_eq, stateBytes_eq]
  constructor
  · exact fun identifies same => identifies (fun collides => collides.1 same) (congrArg sha256 same)
  · exact fun tells apart same => tells ((digest_eq_iff apart).mp same)

/-! ## States of ones -/

/-- The numbers of digits that a number of 256 bits can have. -/
abbrev DigitCount := { count : Nat // 0 < count ∧ count ≤ 78 }

/-- The number of some ones. -/
def ones : Nat → Nat
  | 0 => 0
  | count + 1 => 10 * ones count + 1

theorem toDigits_ones (count : Nat) :
    Nat.toDigits 10 (ones (count + 1)) = List.replicate (count + 1) '1' := by
  induction count with
  | zero => rfl
  | succ count ih =>
      have positive : 0 < ones (count + 1) := Nat.succ_pos _
      have digits : Nat.toDigits 10 (ones (count + 1)) ++ Nat.toDigits 10 1 =
          Nat.toDigits 10 (10 * ones (count + 1) + 1) :=
        Nat.toDigits_append_toDigits (by decide) positive (by decide)
      rw [ones, ← digits, ih]
      exact List.replicate_succ'.symm

theorem ones_lt {count : Nat} (few : count ≤ 78) : ones count < 2 ^ 256 := by
  have grows : Monotone ones := monotone_nat_of_le_succ fun count => by
    rw [ones]
    omega
  exact (grows few).trans_lt (by decide +kernel)

/-- The number whose decimal is `count` ones. -/
def onesOf (count : DigitCount) : U256 := BitVec.ofNat 256 (ones count)

theorem decimalBytes_onesOf (count : DigitCount) :
    decimalBytes (onesOf count) = List.replicate count 49 := by
  obtain ⟨count, positive, few⟩ := count
  obtain ⟨rest, rfl⟩ := Nat.exists_eq_add_of_lt positive
  have value : (BitVec.ofNat 256 (ones (0 + rest + 1))).toNat = ones (0 + rest + 1) := by
    rw [BitVec.toNat_ofNat, Nat.mod_eq_of_lt (ones_lt few)]
  rw [decimalBytes, onesOf, value, toDigits_ones, List.map_replicate]
  rfl

/-- The layout of one account with at most one changed slot. -/
def oneAccountLayout (balance : DigitCount) (slot : Option (DigitCount × DigitCount)) : DigitLayout :=
  [(balance, slot.toList.map fun slot => (slot.1.val, slot.2.val))]

/-- At most one slot, its two words of ones. -/
def onesSlots : Option (DigitCount × DigitCount) → ExtTreeMap U256 U256
  | none => ∅
  | some slot => (∅ : ExtTreeMap U256 U256).insert (onesOf slot.1) (onesOf slot.2)

/-- One account with at most one changed slot, all of whose bytes are the digit one. -/
def onesState (balance : DigitCount) (slot : Option (DigitCount × DigitCount)) : EvmState :=
  (∅ : EvmState).insert (BitVec.ofNat 160 (49 * (256 ^ 20 / 255)))
    { info :=
        { balance := onesOf balance
          nonce := .ofNat (49 * (256 ^ 8 / 255))
          codeHash := BitVec.ofNat 256 (49 * (256 ^ 32 / 255)) }
      status := 49
      changedStorageSlots := onesSlots slot }

theorem hashedState_onesState (balance : DigitCount) (slot : Option (DigitCount × DigitCount)) :
    ∃ account : HashedAccount, hashedState (onesState balance slot) = [account] ∧
      account.layout = (balance.val, slot.toList.map fun slot => (slot.1.val, slot.2.val)) ∧
      ∀ word ∈ account.words, ∀ byte ∈ word, byte = 49 := by
  have digits : ∀ count : DigitCount, ∀ byte ∈ decimalBytes (onesOf count), byte = 49 := by
    intro count byte member
    rw [decimalBytes_onesOf] at member
    exact List.eq_of_mem_replicate member
  have slots : (onesSlots slot).toList =
      slot.toList.map fun slot => (onesOf slot.1, onesOf slot.2) := by
    cases slot with
    | none => rfl
    | some slot => exact toList_insert_empty _ _
  refine ⟨_, by rw [hashedState, onesState, toList_insert_empty, List.map_singleton], ?_, ?_⟩
  · simp only [HashedAccount.layout, hashedAccount, slots, decimalBytes_onesOf, List.length_replicate,
      List.map_map, Function.comp_def]
  · have address : ∀ byte ∈ arrayBytes (BitVec.ofNat 160 (49 * (256 ^ 20 / 255))), byte = 49 := by
      decide +kernel
    have nonce : ∀ byte ∈ leBytes (UInt64.ofNat (49 * (256 ^ 8 / 255))).toBitVec, byte = 49 := by
      decide +kernel
    have codeHash : ∀ byte ∈ arrayBytes (BitVec.ofNat 256 (49 * (256 ^ 32 / 255))), byte = 49 := by
      decide +kernel
    simp only [HashedAccount.words, hashedAccount, slots, List.forall_mem_cons, List.mem_flatMap,
      List.mem_map]
    refine ⟨address, digits balance, nonce, codeHash, ⟨trivial, by simp⟩, ?_⟩
    rintro word ⟨_, ⟨slot, -, rfl⟩, member⟩
    simp only [slotWords, List.mem_cons, List.not_mem_nil, or_false] at member
    rcases member with rfl | rfl
    · exact digits slot.1
    · exact digits slot.2

/-- All diffs of ones of one size are written alike. -/
theorem stream_onesState (balance : DigitCount) (slot : Option (DigitCount × DigitCount)) :
    layoutOf (hashedState (onesState balance slot)) = oneAccountLayout balance slot ∧
      diffCode.stream (hashedState (onesState balance slot)) =
        List.replicate (oneAccountLayout balance slot).writtenSize 49 := by
  obtain ⟨account, alone, layout, digits⟩ := hashedState_onesState balance slot
  have own : layoutOf (hashedState (onesState balance slot)) = oneAccountLayout balance slot := by
    rw [alone, layoutOf, List.map_singleton, layout, oneAccountLayout]
  refine ⟨own, List.eq_replicate_iff.mpr ⟨by rw [length_stream, own], fun byte member => ?_⟩⟩
  obtain ⟨word, among, inside⟩ := List.mem_flatten.mp member
  rw [alone] at among
  exact digits word (by simpa [diffCode] using among) byte inside

/-- **The hash of a diff does not depend on the order of its maps, and it identifies the diff** as
against another exactly when their numbers have equally many digits or they are written
differently. So it does when they are written with different numbers of bytes, and for all diffs of
one account with at most one changed slot, of two layouts, exactly when these are the same or of
different sizes. -/
theorem hashStateDiff_identifies_iff (sha256 : List UInt8 → Digest) :
    (∀ (iteration other : StateIteration) (state : EvmState),
      hashStateDiff sha256 iteration state = hashStateDiff sha256 other state) ∧
      (∀ (iteration other : StateIteration) (state another : EvmState),
        Identifies sha256 iteration other state another ↔
          layoutOf (hashedState state) = layoutOf (hashedState another) ∨
            stateBytes iteration state ≠ stateBytes other another) ∧
      (∀ (iteration other : StateIteration) (state another : EvmState),
        (layoutOf (hashedState state)).writtenSize ≠ (layoutOf (hashedState another)).writtenSize →
          Identifies sha256 iteration other state another) ∧
      ∀ (balance otherBalance : DigitCount) (slot otherSlot : Option (DigitCount × DigitCount)),
        (∀ (iteration other : StateIteration) (state another : EvmState),
          layoutOf (hashedState state) = oneAccountLayout balance slot →
            layoutOf (hashedState another) = oneAccountLayout otherBalance otherSlot →
              Identifies sha256 iteration other state another) ↔
          oneAccountLayout balance slot = oneAccountLayout otherBalance otherSlot ∨
            (oneAccountLayout balance slot).writtenSize ≠
              (oneAccountLayout otherBalance otherSlot).writtenSize := by
  have pointwise : ∀ (iteration other : StateIteration) (state another : EvmState),
      Identifies sha256 iteration other state another ↔
        layoutOf (hashedState state) = layoutOf (hashedState another) ∨
          stateBytes iteration state ≠ stateBytes other another := by
    intro iteration other state another
    rw [identifies_iff_tells, stateBytes_eq, stateBytes_eq]
    exact diffCode.tells_iff _ _
  have sized : ∀ (iteration other : StateIteration) (state another : EvmState),
      (layoutOf (hashedState state)).writtenSize ≠ (layoutOf (hashedState another)).writtenSize →
        Identifies sha256 iteration other state another := by
    intro iteration other state another sizes
    refine (pointwise iteration other state another).mpr (.inr fun same => sizes ?_)
    rw [← length_stream, ← length_stream, ← stateBytes_eq iteration, ← stateBytes_eq other, same]
  refine ⟨fun iteration other state => ?_, pointwise, sized,
    fun balance otherBalance slot otherSlot => ⟨fun identifies => ?_, ?_⟩⟩
  · rw [hashStateDiff, hashStateDiff, stateBytes_eq, stateBytes_eq]
  · -- Two diffs of ones are written alike when their sizes are equal.
    obtain ⟨layout, written⟩ := stream_onesState balance slot
    obtain ⟨otherLayout, otherWritten⟩ := stream_onesState otherBalance otherSlot
    by_cases sizes : (oneAccountLayout balance slot).writtenSize =
        (oneAccountLayout otherBalance otherSlot).writtenSize
    · have alike := (pointwise .increasing .increasing _ _).mp
        (identifies .increasing .increasing _ _ layout otherLayout)
      rw [stateBytes_eq, stateBytes_eq, written, otherWritten, sizes, layout, otherLayout] at alike
      exact .inl (alike.resolve_right fun differs => differs rfl)
    · exact .inr sizes
  · rintro (same | sizes) iteration other state another own otherOwn
    · exact (pointwise iteration other state another).mpr
        (.inl (own.trans (same.trans otherOwn.symm)))
    · exact sized iteration other state another (by rw [own, otherOwn]; exact sizes)

/-! ## Samples -/

/-- An account that has changed one slot. -/
def oneSlotState (slot value : U256) : EvmState :=
  (∅ : EvmState).insert 7
    { info := { balance := 1000, nonce := 1, codeHash := 0 }
      status := 4
      changedStorageSlots := (∅ : ExtTreeMap U256 U256).insert slot value }

/-- Slot 1 with value 23 and slot 12 with value 3 have one hash, whatever the digest is. -/
theorem movedDigit_not_identifies :
    ¬ ∃ sha256 : List UInt8 → Digest,
      ∀ (iteration other : StateIteration) (state another : EvmState),
        Identifies sha256 iteration other state another := by
  rintro ⟨sha256, identifies⟩
  have written : diffCode.stream (hashedState (oneSlotState 1 23)) =
      diffCode.stream (hashedState (oneSlotState 12 3)) := by decide +kernel
  have states := (identifies_iff_tells sha256 .increasing .increasing _ _).mp
    (identifies .increasing .increasing (oneSlotState 1 23) (oneSlotState 12 3)) written
  have differs : hashedState (oneSlotState 1 23) ≠ hashedState (oneSlotState 12 3) := by
    decide +kernel
  exact differs states

end Mempulse.SimEngine
