import Mempulse.Common
import Mempulse.Library.Hexadecimal
import Mempulse.Library.TextFiles

/-!
# The hexadecimal parsers

Three crates read hexadecimal texts with a copy of one parser: the live RPC worker, the decoder of
the ingest crate and the protocol registry of the feature engine. They cut the text at byte offsets
and read each pair as a number, so they panic within some characters and read signs.
-/

set_option autoImplicit false

namespace Mempulse

open Library

/-! ## The live RPC worker -/

namespace LiveRpc.Slicing

/-- The bytes of the text, or nothing when some digit is none. -/
def parseHexBytes (value : String) : Outcome (Option (List UInt8)) :=
  (decodeHex () () value.toList).map Except.toOption

/-- `parse_fixed_hex::<N>`. -/
def parseFixedHex (width : Nat) (value : String) : Outcome (Option (List.Vector UInt8 width)) :=
  (decodeFixedHex () () (fun _ => ()) width value.toList).map Except.toOption

/-- The text of the bytes, with its marker. -/
def formatFixedHex (bytes : List UInt8) : String := String.ofList (formatHex bytes)

end LiveRpc.Slicing

/-! ## The decoder of raw transactions -/

namespace Ingest.TxDecode

/-- Errors of the decoder for hexadecimal fields. -/
inductive DecodeError where
  | invalidHex (field : String)
  | invalidLength (field : String) (expected : Nat)
  deriving DecidableEq

/-- The error as it is displayed. -/
def DecodeError.message : DecodeError → String
  | .invalidHex field => "invalid hex value for field '" ++ field ++ "'"
  | .invalidLength field expected =>
    "invalid length for field '" ++ field ++ "', expected " ++ toString expected ++ " bytes"

/-- The bytes of a field of any length. -/
def parseVariableHex (value field : String) : Outcome (Except DecodeError (List UInt8)) :=
  decodeHex (.invalidHex field) (.invalidHex field) value.toList

/-- `parse_fixed_hex::<N>`. -/
def parseFixedHex (width : Nat) (value field : String) :
    Outcome (Except DecodeError (List.Vector UInt8 width)) :=
  decodeFixedHex (.invalidHex field) (.invalidHex field) (fun _ => .invalidLength field width) width
    value.toList

end Ingest.TxDecode

/-! ## The protocol registry -/

namespace FeatureEngine.Registry

/-- An error of the protocol registry. -/
structure RegistryError where
  message : String
  deriving DecidableEq

/-- The registry trims the text first. -/
def parseHexBytes (value : String) : Outcome (Except RegistryError (List UInt8)) :=
  decodeHex ⟨"odd-length hex string: " ++ value⟩ ⟨"invalid hex string: " ++ value⟩
    (trim value.toList)

/-- `parse_hex_array::<N>`. -/
def parseHexArray (width : Nat) (value : String) :
    Outcome (Except RegistryError (List.Vector UInt8 width)) :=
  decodeFixedHex ⟨"odd-length hex string: " ++ value⟩ ⟨"invalid hex string: " ++ value⟩
    (fun found => ⟨"expected " ++ toString width ++ " bytes but found " ++ toString found ++ " in " ++
      value⟩) width (trim value.toList)

end FeatureEngine.Registry

/-! ## Reading -/

section Reading

variable {width : Nat} {value : String} {bytes : List.Vector UInt8 width}

theorem map_toOption_eq_some_iff {ε α : Type} {outcome : Outcome (Except ε α)} {result : α} :
    outcome.map Except.toOption = .returned (some result) ↔ outcome = .returned (.ok result) := by
  rcases outcome with _ | _ | value <;> simp [Outcome.map, Except.toOption]

theorem parseFixedHex_eq_some_iff : LiveRpc.Slicing.parseFixedHex width value =
    .returned (some bytes) ↔ ∃ pairs, stripMarker value.toList = spellPairs pairs ∧
      pairs.map pairByte = bytes.toList.map some := by
  rw [LiveRpc.Slicing.parseFixedHex, map_toOption_eq_some_iff, decodeFixedHex_eq_ok_iff]

theorem parseFixedHex_eq_panicked_iff :
    LiveRpc.Slicing.parseFixedHex width value = .panicked ↔ BreaksCharacter value.toList := by
  rw [LiveRpc.Slicing.parseFixedHex, Outcome.map_eq_panicked_iff, decodeFixedHex_eq_panicked_iff]

theorem parseHexBytes_eq_panicked_iff :
    LiveRpc.Slicing.parseHexBytes value = .panicked ↔ BreaksCharacter value.toList := by
  rw [LiveRpc.Slicing.parseHexBytes, Outcome.map_eq_panicked_iff, decodeHex_eq_panicked_iff]

theorem exists_parseFixedHex_of_isHex (hex : IsHex width value.toList) :
    ∃ bytes, LiveRpc.Slicing.parseFixedHex width value = .returned (some bytes) := by
  obtain ⟨bytes, result⟩ : ∃ bytes, decodeFixedHex () () (fun _ => ()) width value.toList =
    .returned (.ok bytes) := exists_ok_of_isHex hex
  exact ⟨bytes, map_toOption_eq_some_iff.mpr result⟩

/-! ## The texts whose reading follows the grammar -/

/-- The three parsers read a text as its grammar says: none panics, each accepts it exactly when it is
an optional marker and two digits for each byte, they agree on the bytes, and formatted bytes are read
back. -/
structure FollowsGrammar (width : Nat) (value : String) : Prop where
  liveNoPanic : LiveRpc.Slicing.parseFixedHex width value ≠ .panicked
  ingestNoPanic : ∀ field, Ingest.TxDecode.parseFixedHex width value field ≠ .panicked
  registryNoPanic : FeatureEngine.Registry.parseHexArray width value ≠ .panicked
  liveAccepts : (∃ bytes, LiveRpc.Slicing.parseFixedHex width value = .returned (some bytes)) ↔
    IsHex width value.toList
  ingestAccepts : ∀ field, (∃ bytes, Ingest.TxDecode.parseFixedHex width value field =
    .returned (.ok bytes)) ↔ IsHex width value.toList
  registryAccepts : (∃ bytes, FeatureEngine.Registry.parseHexArray width value =
    .returned (.ok bytes)) ↔ IsHex width value.toList
  ingestAgrees : ∀ field bytes, Ingest.TxDecode.parseFixedHex width value field =
    .returned (.ok bytes) ↔ LiveRpc.Slicing.parseFixedHex width value = .returned (some bytes)
  registryAgrees : ∀ bytes, FeatureEngine.Registry.parseHexArray width value =
    .returned (.ok bytes) ↔ LiveRpc.Slicing.parseFixedHex width value = .returned (some bytes)
  roundTrip : ∀ bytes : List.Vector UInt8 width, LiveRpc.Slicing.parseFixedHex width
    (LiveRpc.Slicing.formatFixedHex bytes.toList) = .returned (some bytes)

theorem parseFixedHex_formatFixedHex (bytes : List.Vector UInt8 width) :
    LiveRpc.Slicing.parseFixedHex width (LiveRpc.Slicing.formatFixedHex bytes.toList) =
      .returned (some bytes) := by
  rw [LiveRpc.Slicing.parseFixedHex, map_toOption_eq_some_iff, LiveRpc.Slicing.formatFixedHex,
    String.toList_ofList, decodeFixedHex_formatHex]

/-- **The parsers follow their grammar** on a text without surrounding whitespace exactly when it does
not cut a character behind the pairs that are read, and no pair is read with a sign. -/
theorem followsGrammar_iff (width : Nat) (value : String)
    (untrimmed : trim value.toList = value.toList) :
    FollowsGrammar width value ↔
      ¬ BreaksCharacter value.toList ∧ ¬ ReadWithSign width value.toList := by
  have live := @accepts_iff Unit () () (fun _ => ()) width value.toList
  constructor
  · intro follows
    rw [← live, Ne, decodeFixedHex_eq_panicked_iff, ← parseFixedHex_eq_panicked_iff,
      ← follows.liveAccepts, LiveRpc.Slicing.parseFixedHex]
    simp only [map_toOption_eq_some_iff]
    exact ⟨follows.liveNoPanic, trivial⟩
  · intro reads
    obtain ⟨noPanic, accepts⟩ := live.mpr reads
    rw [Ne, decodeFixedHex_eq_panicked_iff] at noPanic
    refine ⟨?_, fun field => ?_, ?_, ?_, fun field => ?_, ?_, fun field bytes => ?_, fun bytes => ?_,
      parseFixedHex_formatFixedHex⟩
    · rwa [Ne, parseFixedHex_eq_panicked_iff]
    · rwa [Ne, Ingest.TxDecode.parseFixedHex, decodeFixedHex_eq_panicked_iff]
    · rwa [Ne, FeatureEngine.Registry.parseHexArray, decodeFixedHex_eq_panicked_iff, untrimmed]
    · rw [← accepts, LiveRpc.Slicing.parseFixedHex]
      simp only [map_toOption_eq_some_iff]
    · exact (accepts_iff.mpr reads).2
    · rw [FeatureEngine.Registry.parseHexArray, untrimmed]
      exact (accepts_iff.mpr reads).2
    · rw [parseFixedHex_eq_some_iff, Ingest.TxDecode.parseFixedHex, decodeFixedHex_eq_ok_iff]
    · rw [parseFixedHex_eq_some_iff, FeatureEngine.Registry.parseHexArray, untrimmed,
        decodeFixedHex_eq_ok_iff]

end Reading

/-- Digits of either case after a marker are read. -/
theorem followsGrammar_of_digits : FollowsGrammar 2 "0xA1b2" := by
  refine (followsGrammar_iff 2 "0xA1b2" (by decide)).mpr ⟨?_, ?_⟩
  · rw [← @parseFixedHex_eq_panicked_iff 2]
    decide
  · rintro ⟨pairs, stripped, -, -, pair, member, sign⟩
    have listed : '+' ∈ spellPairs pairs :=
      List.mem_flatMap.mpr ⟨pair, member, sign ▸ List.mem_cons_self⟩
    rw [← stripped] at listed
    revert listed
    decide

/-- A signed digit is read as a byte, and a two-byte character that is cut stops the program. -/
theorem signedText_not_followsGrammar :
    (trim "+1".toList = "+1".toList ∧ ¬ FollowsGrammar 1 "+1") ∧
      trim "aé1".toList = "aé1".toList ∧ ¬ FollowsGrammar 2 "aé1" := by
  refine ⟨⟨by decide, fun follows => ?_⟩, by decide, fun follows => ?_⟩
  · have read : LiveRpc.Slicing.parseFixedHex 1 "+1" = .returned (some ⟨[1], rfl⟩) := by decide
    obtain ⟨digits, -, hex, same | marked⟩ := follows.liveAccepts.mp ⟨_, read⟩
    · have sign : IsHexDigit '+' := hex '+' (by rw [← same]; decide)
      exact absurd sign (by unfold IsHexDigit; decide)
    · exact absurd (List.cons.inj marked).1 (by decide)
  · exact follows.liveNoPanic (by decide)

/-! ## Hashes -/

namespace LiveRpc

/-- The hash of some bytes. -/
def hashOfBytes (bytes : List.Vector UInt8 32) : TxHash :=
  BitVec.ofNat 256 (bytes.toList.foldl (fun number byte => 256 * number + byte.toNat) 0)

/-- The hash that a text spells, where `parse_fixed_hex::<32>` returns one. -/
def spelledHash (value : String) : Option TxHash :=
  match Slicing.parseFixedHex 32 value with
  | .returned read => read.map hashOfBytes
  | .panicked => none

theorem spelledHash_eq_some_iff {value : String} {hash : TxHash} :
    spelledHash value = some hash ↔ ∃ bytes,
      Slicing.parseFixedHex 32 value = .returned (some bytes) ∧ hashOfBytes bytes = hash := by
  unfold spelledHash
  cases Slicing.parseFixedHex 32 value with
  | panicked => simp
  | returned read => cases read <;> simp

/-- The bytes of a number. -/
def bytesOf (count number : Nat) : List UInt8 :=
  (List.range count).reverse.map fun position => UInt8.ofNat (number / 256 ^ position % 256)

theorem length_bytesOf (count number : Nat) : (bytesOf count number).length = count := by
  rw [bytesOf, List.length_map, List.length_reverse, List.length_range]

theorem bytesOf_succ (count number : Nat) :
    bytesOf (count + 1) number = UInt8.ofNat (number / 256 ^ count % 256) :: bytesOf count number := by
  rw [bytesOf, List.range_succ, List.reverse_append]
  rfl

theorem foldl_bytesOf (count number start : Nat) :
    (bytesOf count number).foldl (fun total byte => 256 * total + byte.toNat) start =
      start * 256 ^ count + number % 256 ^ count := by
  induction count generalizing start with
  | zero => simp [bytesOf, Nat.mod_one]
  | succ count ih =>
      rw [bytesOf_succ, List.foldl_cons, ih, UInt8.toNat_ofNat_of_lt' (Nat.mod_lt _ (by decide)),
        Nat.mod_pow_succ, Nat.pow_succ]
      ring

/-- The digits of a number are those of its bytes. -/
theorem digits_bytesOf (count number : Nat) :
    ((List.range (2 * count)).reverse.map fun position =>
        Nat.digitChar (number / 16 ^ position % 16)) =
      (bytesOf count number).flatMap fun byte =>
        [Nat.digitChar (byte.toNat / 16), Nat.digitChar (byte.toNat % 16)] := by
  induction count with
  | zero => rfl
  | succ count ih =>
      have power : 16 ^ (2 * count) = 256 ^ count := pow_mul 16 2 count
      have byte : number / 256 ^ count % 256 / 16 = number / 16 ^ (2 * count + 1) % 16 ∧
          number / 256 ^ count % 256 % 16 = number / 16 ^ (2 * count) % 16 := by
        rw [pow_succ, power, ← Nat.div_div_eq_div_mul]
        omega
      have positions : (List.range (2 * (count + 1))).reverse =
          (2 * count + 1) :: 2 * count :: (List.range (2 * count)).reverse := by
        rw [Nat.mul_succ, List.range_succ, List.range_succ, List.reverse_append,
          List.reverse_append]
        rfl
      rw [positions, List.map_cons, List.map_cons, ih, bytesOf_succ, List.flatMap_cons,
        UInt8.toNat_ofNat_of_lt' (Nat.mod_lt _ (by decide)), byte.1, byte.2]
      rfl

/-- The bytes of a hash. -/
def hashBytes (hash : TxHash) : List.Vector UInt8 32 := ⟨bytesOf 32 hash.toNat, length_bytesOf 32 _⟩

theorem hashOfBytes_hashBytes (hash : TxHash) : hashOfBytes (hashBytes hash) = hash := by
  apply BitVec.eq_of_toNat_eq
  rw [hashOfBytes, hashBytes, List.Vector.toList_mk, foldl_bytesOf, Nat.zero_mul, Nat.zero_add,
    BitVec.toNat_ofNat, Nat.mod_mod_of_dvd _ (by decide : 2 ^ 256 ∣ 256 ^ 32)]
  exact Nat.mod_eq_of_lt hash.isLt

/-- Bytes behind a number extend the number they spell. -/
theorem foldl_bytes (bytes : List UInt8) (start : Nat) :
    bytes.foldl (fun total byte => 256 * total + byte.toNat) start =
      start * 256 ^ bytes.length + bytes.foldl (fun total byte => 256 * total + byte.toNat) 0 := by
  induction bytes generalizing start with
  | nil => simp
  | cons byte rest ih =>
      rw [List.foldl_cons, List.foldl_cons, ih, ih (256 * 0 + byte.toNat), List.length_cons,
        Nat.pow_succ]
      ring

theorem foldl_bytes_lt (bytes : List UInt8) :
    bytes.foldl (fun total byte => 256 * total + byte.toNat) 0 < 256 ^ bytes.length := by
  induction bytes with
  | nil => exact Nat.one_pos
  | cons byte rest ih =>
      rw [List.foldl_cons, foldl_bytes, List.length_cons, Nat.pow_succ]
      have small := byte.toNat_lt
      nlinarith

/-- The bytes of the number that some bytes spell are those bytes. -/
theorem bytesOf_foldl (bytes : List UInt8) (start : Nat) :
    bytesOf bytes.length (bytes.foldl (fun total byte => 256 * total + byte.toNat) start) = bytes := by
  induction bytes generalizing start with
  | nil => rfl
  | cons byte rest ih =>
      have onward := ih (256 * start + byte.toNat)
      have small := byte.toNat_lt
      have below := foldl_bytes_lt rest
      rw [List.foldl_cons, List.length_cons, bytesOf_succ, onward, foldl_bytes,
        Nat.add_comm, Nat.add_mul_div_right _ _ (by positivity), Nat.div_eq_of_lt below, Nat.zero_add,
        Nat.mul_add_mod, Nat.mod_eq_of_lt small, UInt8.ofNat_toNat]

theorem hashBytes_hashOfBytes (bytes : List.Vector UInt8 32) :
    hashBytes (hashOfBytes bytes) = bytes := by
  obtain ⟨bytes, length⟩ := bytes
  have below := foldl_bytes_lt bytes
  rw [length] at below
  have number : (hashOfBytes ⟨bytes, length⟩).toNat =
      bytes.foldl (fun total byte => 256 * total + byte.toNat) 0 := by
    unfold hashOfBytes
    rw [BitVec.toNat_ofNat]
    exact Nat.mod_eq_of_lt (below.trans_eq (by decide : 256 ^ 32 = 2 ^ 256))
  have spelled := bytesOf_foldl bytes 0
  rw [length, ← number] at spelled
  exact Subtype.ext spelled

/-- The bit vector of a hash is spelled as its bytes are. -/
theorem hexText_eq_formatFixedHex (hash : TxHash) :
    hexText hash = Slicing.formatFixedHex (hashBytes hash).toList := by
  apply String.toList_inj.mp
  rw [hexText, hexString, String.toList_append, String.toList_ofList, Slicing.formatFixedHex,
    formatHex, hashBytes, List.Vector.toList_mk, ← digits_bytesOf, String.toList_ofList,
    String.toList_ofList]
  rfl

/-- **A formatted hash is read back.** -/
theorem parseFixedHex_hexText (hash : TxHash) :
    Slicing.parseFixedHex 32 (hexText hash) = .returned (some (hashBytes hash)) := by
  rw [hexText_eq_formatFixedHex, parseFixedHex_formatFixedHex]

theorem spelledHash_hexText (hash : TxHash) : spelledHash (hexText hash) = some hash :=
  spelledHash_eq_some_iff.mpr ⟨hashBytes hash, parseFixedHex_hexText hash, hashOfBytes_hashBytes hash⟩

theorem hexText_injective : Function.Injective (hexText : TxHash → String) := by
  intro hash other same
  have read := spelledHash_hexText hash
  rw [same, spelledHash_hexText] at read
  exact (Option.some.inj read).symm

end LiveRpc

/-! ## The encoder of the `hex` crate -/

/-- What the crate says of `hex::encode`: every byte becomes two digits, in lowercase. -/
def HexEncodes (encode : List UInt8 → String) : Prop :=
  ∀ bytes, (encode bytes).toList = bytes.flatMap fun byte =>
    [Nat.digitChar (byte.toNat / 16), Nat.digitChar (byte.toNat % 16)]

/-- An encoder that does what the crate says. -/
def hexEncode (bytes : List UInt8) : String :=
  String.ofList <| bytes.flatMap fun byte =>
    [Nat.digitChar (byte.toNat / 16), Nat.digitChar (byte.toNat % 16)]

theorem hexEncodes_hexEncode : HexEncodes hexEncode := fun _ => String.toList_ofList

section Encoders

variable {encode : List UInt8 → String}

/-- What the crate says leaves no choice. -/
theorem HexEncodes.eq_hexEncode (documented : HexEncodes encode) : encode = hexEncode :=
  funext fun bytes => String.toList_inj.mp <|
    (documented bytes).trans (hexEncodes_hexEncode bytes).symm

/-- After the marker, an encoded text is a formatted one. -/
theorem HexEncodes.marked (documented : HexEncodes encode) (bytes : List UInt8) :
    "0x" ++ encode bytes = LiveRpc.Slicing.formatFixedHex bytes := by
  apply String.toList_inj.mp
  rw [String.toList_append, documented bytes, LiveRpc.Slicing.formatFixedHex, String.toList_ofList,
    String.toList_ofList]
  rfl

theorem HexEncodes.marked_hash (documented : HexEncodes encode) (hash : TxHash) :
    "0x" ++ encode (LiveRpc.hashBytes hash).toList = hexText hash := by
  rw [documented.marked, LiveRpc.hexText_eq_formatFixedHex]

end Encoders

end Mempulse
