import Mempulse.Library.Outcome

/-!
# Hexadecimal texts

Code that reads a text two bytes at a time cuts it at byte offsets. A cut within a character panics,
and a pair that is read as a number may have a sign. What such code accepts is therefore not quite
the texts of hexadecimal digits (`accepts_iff`).
-/

set_option autoImplicit false

namespace Mempulse.Library

/-! ## Cutting texts -/

/-- The length of a text in bytes. -/
def byteLen (text : List Char) : Nat := (text.map Char.utf8Size).sum

/-- Cuts a text behind a number of bytes. It cannot be cut within a character or past its end. -/
def splitBytes : Nat → List Char → Option (List Char × List Char)
  | 0, text => some ([], text)
  | _ + 1, [] => none
  | size + 1, char :: rest =>
    if char.utf8Size ≤ size + 1 then
      (splitBytes (size + 1 - char.utf8Size) rest).map fun pieces => (char :: pieces.1, pieces.2)
    else none

/-! ## Digits -/

/-- `char::to_digit` at radix 16. -/
def hexDigitValue (digit : Char) : Option Nat :=
  if '0' ≤ digit ∧ digit ≤ '9' then some (digit.toNat - '0'.toNat)
  else if 'a' ≤ digit ∧ digit ≤ 'f' then some (digit.toNat - 'a'.toNat + 10)
  else if 'A' ≤ digit ∧ digit ≤ 'F' then some (digit.toNat - 'A'.toNat + 10)
  else none

/-- The character is a hexadecimal digit. -/
def IsHexDigit (digit : Char) : Prop := (hexDigitValue digit).isSome = true

/-- The number with one more digit. -/
def pushHexDigit (total : Nat) (digit : Char) : Option Nat :=
  (hexDigitValue digit).map fun value => 16 * total + value

/-- `from_str_radix` at radix 16 for the unsigned numbers up to a greatest one. A leading plus sign
is read over. -/
def fromHexRadix (greatest : Nat) (text : List Char) : Option Nat :=
  let digits :=
    match text with
    | '+' :: rest => rest
    | digits => digits
  if digits.isEmpty then none
  else
    (digits.foldlM pushHexDigit 0).bind fun value => if value ≤ greatest then some value else none

/-! ## Pairs -/

/-- Reads pairs of bytes until one cannot be read. -/
def decodePairs : Nat → List Char → Outcome (Option (List UInt8))
  | 0, _ => .returned (some [])
  | count + 1, text =>
    match splitBytes 2 text with
    | none => .panicked
    | some (pair, rest) =>
      match fromHexRadix 255 pair with
      | none => .returned none
      | some byte => (decodePairs count rest).map (Option.map (UInt8.ofNat byte :: ·))

/-- `strip_prefix("0x")`, or the text itself. -/
def stripMarker : List Char → List Char
  | '0' :: 'x' :: rest => rest
  | text => text

section Decoding

variable {ε : Type}

/-- The bytes of a text of pairs, with the errors of an odd length and of a pair that is no number. -/
def decodeHex (odd invalid : ε) (text : List Char) : Outcome (Except ε (List UInt8)) :=
  let trimmed := stripMarker text
  if trimmed.isEmpty then .returned (.ok [])
  else if byteLen trimmed % 2 ≠ 0 then .returned (.error odd)
  else (decodePairs (byteLen trimmed / 2) trimmed).map fun
    | none => .error invalid
    | some bytes => .ok bytes

/-- The bytes of a text of pairs of a fixed number, with the error of another number. -/
def decodeFixedHex (odd invalid : ε) (wrongLength : Nat → ε) (width : Nat) (text : List Char) :
    Outcome (Except ε (List.Vector UInt8 width)) :=
  (decodeHex odd invalid text).map fun decoded => do
    let bytes ← decoded
    if same : bytes.length = width then .ok ⟨bytes, same⟩ else .error (wrongLength bytes.length)

end Decoding

/-- `{byte:02x}` for every byte, after the marker. -/
def formatHex (bytes : List UInt8) : List Char :=
  '0' :: 'x' :: bytes.flatMap fun byte =>
    [Nat.digitChar (byte.toNat / 16), Nat.digitChar (byte.toNat % 16)]

/-! ## What is read -/

/-- The byte that a pair of characters is read as. -/
def pairByte (pair : Char × Char) : Option UInt8 :=
  (fromHexRadix 255 [pair.1, pair.2]).map UInt8.ofNat

/-- The text of some pairs. -/
def spellPairs (pairs : List (Char × Char)) : List Char :=
  pairs.flatMap fun pair => [pair.1, pair.2]

/-- The second byte of the text, counted from its start, is not the last of a character. -/
def CutsCharacter : List Char → Prop
  | [] => False
  | char :: rest => 2 < char.utf8Size ∨
    char.utf8Size = 1 ∧ ∃ next ∈ rest.head?, 1 < next.utf8Size

/-- The texts of a number of bytes in hexadecimal: two digits for each, after an optional marker. -/
def IsHex (width : Nat) (text : List Char) : Prop :=
  ∃ digits, digits.length = 2 * width ∧ (∀ digit ∈ digits, IsHexDigit digit) ∧
    (text = digits ∨ text = '0' :: 'x' :: digits)

/-! ## Digits and pairs -/

section Digits

theorem utf8Size_of_lt {char : Char} (ascii : char.toNat < 128) : char.utf8Size = 1 := by
  have small : char.val ≤ 0x7f := UInt32.le_iff_toNat_le.mpr (Nat.le_of_lt_succ ascii)
  simp [Char.utf8Size, small]

theorem IsHexDigit.utf8Size {digit : Char} (hex : IsHexDigit digit) : digit.utf8Size = 1 := by
  refine utf8Size_of_lt ?_
  have bounded : ∀ greatest : Char, digit ≤ greatest → digit.toNat ≤ greatest.toNat :=
    fun _ below => below
  unfold IsHexDigit hexDigitValue at hex
  split at hex
  case isTrue decimal => exact Nat.lt_of_le_of_lt (bounded _ decimal.2) (by decide)
  case isFalse =>
    split at hex
    case isTrue lower => exact Nat.lt_of_le_of_lt (bounded _ lower.2) (by decide)
    case isFalse =>
      split at hex
      case isTrue upper => exact Nat.lt_of_le_of_lt (bounded _ upper.2) (by decide)
      case isFalse => cases hex

theorem hexDigitValue_lt {digit : Char} {value : Nat} (read : hexDigitValue digit = some value) :
    value < 16 := by
  unfold hexDigitValue at read
  have bounded : ∀ greatest : Char, digit ≤ greatest → digit.toNat ≤ greatest.toNat :=
    fun _ below => below
  split at read
  case isTrue decimal =>
    have bound := bounded _ decimal.2
    cases read
    change digit.toNat ≤ 57 at bound
    change digit.toNat - 48 < 16
    omega
  case isFalse =>
    split at read
    case isTrue lower =>
      have bound := bounded _ lower.2
      cases read
      change digit.toNat ≤ 102 at bound
      change digit.toNat - 97 + 10 < 16
      omega
    case isFalse =>
      split at read
      case isTrue upper =>
        have bound := bounded _ upper.2
        cases read
        change digit.toNat ≤ 70 at bound
        change digit.toNat - 65 + 10 < 16
        omega
      case isFalse => cases read

/-- What is read is a digit after a sign, or two digits. -/
theorem pairByte_eq (pair : Char × Char) :
    pairByte pair =
      if pair.1 = '+' then (hexDigitValue pair.2).map UInt8.ofNat
      else (hexDigitValue pair.1).bind fun high =>
        (hexDigitValue pair.2).map fun low => UInt8.ofNat (16 * high + low) := by
  obtain ⟨first, second⟩ := pair
  unfold pairByte fromHexRadix
  dsimp only
  by_cases sign : first = '+'
  · subst sign
    rw [if_pos rfl]
    cases digit : hexDigitValue second with
    | none => simp [pushHexDigit, digit]
    | some low =>
        have bound := hexDigitValue_lt digit
        simp [pushHexDigit, digit, show low ≤ 255 by omega]
  · rw [if_neg sign]
    split
    case h_1 rest same => exact absurd (List.cons.inj same).1 sign
    case h_2 =>
      cases leading : hexDigitValue first with
      | none => simp [pushHexDigit, leading]
      | some high =>
          cases digit : hexDigitValue second with
          | none => simp [pushHexDigit, leading, digit]
          | some low =>
              have highBound := hexDigitValue_lt leading
              have lowBound := hexDigitValue_lt digit
              simp [pushHexDigit, leading, digit, show 16 * high + low ≤ 255 by omega]

/-- A pair that is read has two digits, or a sign and a digit. -/
def ReadPair (pair : Char × Char) : Prop :=
  (pair.1 = '+' ∨ IsHexDigit pair.1) ∧ IsHexDigit pair.2

theorem isSome_pairByte_iff {pair : Char × Char} : (pairByte pair).isSome = true ↔ ReadPair pair := by
  rw [pairByte_eq, ReadPair]
  split
  case isTrue sign => simp [sign, IsHexDigit]
  case isFalse noSign =>
    unfold IsHexDigit
    cases hexDigitValue pair.1 <;> simp [noSign]

theorem ReadPair.utf8Size {pair : Char × Char} (read : ReadPair pair) :
    pair.1.utf8Size = 1 ∧ pair.2.utf8Size = 1 := by
  refine ⟨?_, read.2.utf8Size⟩
  rcases read.1 with sign | hex
  · rw [sign]
    decide
  · exact hex.utf8Size

end Digits

/-! ## The scan -/

section Scan

variable {count : Nat} {text : List Char} {bytes : List UInt8}

theorem byteLen_cons (char : Char) (rest : List Char) :
    byteLen (char :: rest) = char.utf8Size + byteLen rest := rfl

theorem splitBytes_zero (text : List Char) : splitBytes 0 text = some ([], text) := by
  cases text <;> rfl

/-- Where a text of at least two bytes is cut. -/
theorem splitBytes_two (long : 2 ≤ byteLen text) :
    CutsCharacter text ∧ splitBytes 2 text = none ∨
    (∃ char rest, text = char :: rest ∧ char.utf8Size = 2 ∧
      splitBytes 2 text = some ([char], rest)) ∨
    ∃ first second rest, text = first :: second :: rest ∧ first.utf8Size = 1 ∧
      second.utf8Size = 1 ∧ splitBytes 2 text = some ([first, second], rest) := by
  cases text with
  | nil => exact absurd long (by decide)
  | cons char rest =>
      have positive := char.utf8Size_pos
      rw [byteLen_cons] at long
      by_cases wide : 2 < char.utf8Size
      · refine .inl ⟨.inl wide, ?_⟩
        rw [splitBytes, if_neg (by omega)]
      · by_cases two : char.utf8Size = 2
        · refine .inr (.inl ⟨char, rest, rfl, two, ?_⟩)
          rw [splitBytes, if_pos (by omega), two, splitBytes_zero, Option.map_some]
        · have one : char.utf8Size = 1 := by omega
          cases rest with
          | nil =>
              rw [one] at long
              exact absurd long (by decide)
          | cons next rest =>
              have nextPositive := next.utf8Size_pos
              rw [splitBytes, if_pos (by omega), one]
              by_cases cut : 1 < next.utf8Size
              · refine .inl ⟨.inr ⟨one, next, rfl, cut⟩, ?_⟩
                rw [splitBytes, if_neg (by omega)]
                rfl
              · have single : next.utf8Size = 1 := by omega
                refine .inr (.inr ⟨char, next, rest, rfl, one, single, ?_⟩)
                rw [splitBytes, if_pos (by omega), single, splitBytes_zero, Option.map_some,
                  Option.map_some]

theorem fromHexRadix_wide {char : Char} (wide : char.utf8Size = 2) :
    fromHexRadix 255 [char] = none := by
  have noDigit : hexDigitValue char = none := by
    cases digit : hexDigitValue char with
    | none => rfl
    | some value =>
        have hex : IsHexDigit char := by
          rw [IsHexDigit, digit]
          rfl
        have narrow := hex.utf8Size
        omega
  unfold fromHexRadix
  dsimp only
  split
  case h_1 rest same =>
    cases same
    rfl
  case h_2 => simp [pushHexDigit, noDigit]

theorem spellPairs_cons (pair : Char × Char) (pairs : List (Char × Char)) :
    spellPairs (pair :: pairs) = pair.1 :: pair.2 :: spellPairs pairs := rfl

theorem byteLen_spellPairs {pairs : List (Char × Char)} (read : ∀ pair ∈ pairs, ReadPair pair)
    (rest : List Char) : byteLen (spellPairs pairs ++ rest) = 2 * pairs.length + byteLen rest := by
  induction pairs with
  | nil => rw [List.length_nil, Nat.mul_zero, Nat.zero_add]; rfl
  | cons pair pairs ih =>
      obtain ⟨here, others⟩ := List.forall_mem_cons.mp read
      obtain ⟨first, second⟩ := here.utf8Size
      rw [spellPairs_cons, List.cons_append, List.cons_append, byteLen_cons, byteLen_cons, first,
        second, ih others, List.length_cons]
      omega

/-- One round of the scan at a pair that is read. -/
theorem decodePairs_spell {pair : Char × Char} {byte : UInt8} (read : pairByte pair = some byte)
    (count : Nat) (rest : List Char) :
    decodePairs (count + 1) (pair.1 :: pair.2 :: rest) =
      (decodePairs count rest).map (Option.map (byte :: ·)) := by
  obtain ⟨first, second⟩ := (isSome_pairByte_iff.mp (by rw [read]; rfl) : ReadPair pair).utf8Size
  obtain ⟨value, parsed, rfl⟩ := Option.map_eq_some_iff.mp read
  have cut : splitBytes 2 (pair.1 :: pair.2 :: rest) = some ([pair.1, pair.2], rest) := by
    simp [splitBytes, first, second, splitBytes_zero]
  rw [decodePairs, cut]
  dsimp only
  rw [parsed]

theorem decodePairs_spellPairs {pairs : List (Char × Char)}
    (spelled : pairs.map pairByte = bytes.map some) (count : Nat) (rest : List Char) :
    decodePairs (pairs.length + count) (spellPairs pairs ++ rest) =
      (decodePairs count rest).map (Option.map (bytes ++ ·)) := by
  induction pairs generalizing bytes with
  | nil =>
      cases List.map_eq_nil_iff.mp spelled.symm
      rw [List.length_nil, Nat.zero_add]
      change decodePairs count rest = (decodePairs count rest).map (Option.map id)
      rw [Option.map_id]
      cases decodePairs count rest <;> rfl
  | cons pair pairs ih =>
      cases bytes with
      | nil => cases spelled
      | cons byte bytes =>
          obtain ⟨read, others⟩ := List.cons.inj spelled
          rw [List.length_cons, Nat.add_right_comm, spellPairs_cons, List.cons_append,
            List.cons_append, decodePairs_spell read, ih others]
          cases decodePairs count rest with
          | panicked => rfl
          | returned result => cases result <;> rfl

/-- The scan of an even text reads it all, or panics or stops behind the pairs that it reads. -/
theorem decodePairs_cases (even : byteLen text = 2 * count) :
    ∃ pairs bytes rest, text = spellPairs pairs ++ rest ∧ pairs.map pairByte = bytes.map some ∧
      (rest = [] ∧ decodePairs count text = .returned (some bytes) ∨
        CutsCharacter rest ∧ decodePairs count text = .panicked ∨
          decodePairs count text = .returned none) := by
  induction count generalizing text with
  | zero =>
      cases text with
      | nil => exact ⟨[], [], [], rfl, rfl, .inl ⟨rfl, rfl⟩⟩
      | cons char rest =>
          have positive := char.utf8Size_pos
          rw [byteLen_cons] at even
          omega
  | succ count ih =>
      have long : 2 ≤ byteLen text := by omega
      rcases splitBytes_two long with ⟨cuts, cut⟩ |
        ⟨char, rest, rfl, wide, cut⟩ | ⟨first, second, rest, rfl, one, single, cut⟩
      · exact ⟨[], [], text, rfl, rfl, .inr (.inl ⟨cuts, by rw [decodePairs, cut]⟩)⟩
      · refine ⟨[], [], char :: rest, rfl, rfl, .inr (.inr ?_)⟩
        rw [decodePairs, cut]
        dsimp only
        rw [fromHexRadix_wide wide]
      · have shorter : byteLen rest = 2 * count := by
          rw [byteLen_cons, byteLen_cons] at even
          omega
        cases read : pairByte (first, second) with
        | none =>
            have unread : fromHexRadix 255 [first, second] = none := by simpa [pairByte] using read
            refine ⟨[], [], first :: second :: rest, rfl, rfl, .inr (.inr ?_)⟩
            rw [decodePairs, cut]
            dsimp only
            rw [unread]
        | some byte =>
            obtain ⟨pairs, bytes, remaining, rfl, spelled, outcome⟩ := ih shorter
            have round := decodePairs_spell read count (spellPairs pairs ++ remaining)
            dsimp only at round
            refine ⟨(first, second) :: pairs, byte :: bytes, remaining, rfl, ?_, ?_⟩
            · rw [List.map_cons, List.map_cons, read, spelled]
            · rw [round]
              rcases outcome with ⟨done, result⟩ | ⟨cuts, result⟩ | result
              · exact .inl ⟨done, by rw [result]; rfl⟩
              · exact .inr (.inl ⟨cuts, by rw [result]; rfl⟩)
              · exact .inr (.inr (by rw [result]; rfl))

theorem readPair_of_spelled {pairs : List (Char × Char)}
    (spelled : pairs.map pairByte = bytes.map some) : ∀ pair ∈ pairs, ReadPair pair := by
  intro pair member
  have listed : pairByte pair ∈ bytes.map some := spelled ▸ List.mem_map_of_mem member
  obtain ⟨byte, -, read⟩ := List.mem_map.mp listed
  exact isSome_pairByte_iff.mp (by rw [← read]; rfl)

theorem exists_spelled {pairs : List (Char × Char)} (read : ∀ pair ∈ pairs, ReadPair pair) :
    ∃ bytes : List UInt8, pairs.map pairByte = bytes.map some := by
  induction pairs with
  | nil => exact ⟨[], rfl⟩
  | cons pair pairs ih =>
      obtain ⟨here, others⟩ := List.forall_mem_cons.mp read
      obtain ⟨bytes, spelled⟩ := ih others
      obtain ⟨byte, isRead⟩ := Option.isSome_iff_exists.mp (isSome_pairByte_iff.mpr here)
      exact ⟨byte :: bytes, by rw [List.map_cons, List.map_cons, isRead, spelled]⟩

/-- **The scan returns the bytes of the pairs that the text spells.** -/
theorem decodePairs_eq_returned_iff (even : byteLen text = 2 * count) :
    decodePairs count text = .returned (some bytes) ↔
      ∃ pairs, text = spellPairs pairs ∧ pairs.map pairByte = bytes.map some := by
  constructor
  · intro result
    obtain ⟨pairs, others, rest, rfl, spelled, ⟨rfl, all⟩ | ⟨-, panics⟩ | stops⟩ :=
      decodePairs_cases even
    · cases all.symm.trans result
      exact ⟨pairs, List.append_nil _, spelled⟩
    · cases panics.symm.trans result
    · cases stops.symm.trans result
  · rintro ⟨pairs, rfl, spelled⟩
    have length := byteLen_spellPairs (readPair_of_spelled spelled) []
    have scan := decodePairs_spellPairs spelled 0 []
    rw [List.append_nil] at length scan
    have counted : count = pairs.length + 0 := by
      rw [even] at length
      change 2 * count = 2 * pairs.length + 0 at length
      omega
    rw [counted, scan]
    simp [decodePairs, Outcome.map]

/-- **The scan panics where the text behind the pairs that are read cuts a character.** -/
theorem decodePairs_eq_panicked_iff (even : byteLen text = 2 * count) :
    decodePairs count text = .panicked ↔
      ∃ pairs rest, text = spellPairs pairs ++ rest ∧ (∀ pair ∈ pairs, ReadPair pair) ∧
        CutsCharacter rest := by
  constructor
  · intro result
    obtain ⟨pairs, others, rest, rfl, spelled, ⟨rfl, all⟩ | ⟨cuts, -⟩ | stops⟩ :=
      decodePairs_cases even
    · cases all.symm.trans result
    · exact ⟨pairs, rest, rfl, readPair_of_spelled spelled, cuts⟩
    · cases stops.symm.trans result
  · rintro ⟨pairs, rest, rfl, read, cuts⟩
    obtain ⟨bytes, spelled⟩ := exists_spelled read
    have length := byteLen_spellPairs read rest
    have more : 0 < byteLen rest := by
      cases rest with
      | nil => exact cuts.elim
      | cons char rest => exact Nat.lt_of_lt_of_le char.utf8Size_pos (Nat.le_add_right _ _)
    obtain ⟨left, counted⟩ : ∃ left, count = pairs.length + (left + 1) :=
      ⟨count - pairs.length - 1, by omega⟩
    have cut : splitBytes 2 rest = none := by
      have long : 2 ≤ byteLen rest := by omega
      rcases splitBytes_two long with ⟨-, cut⟩ | ⟨char, others, rfl, wide, -⟩ |
        ⟨first, second, others, rfl, one, single, -⟩
      · exact cut
      · rcases cuts with wider | ⟨one, -⟩ <;> omega
      · rcases cuts with wide | ⟨-, next, isNext, wide⟩
        · omega
        · cases isNext
          omega
    rw [counted, decodePairs_spellPairs spelled, decodePairs, cut]
    rfl

end Scan

/-! ## Whole texts -/

/-- The text has an even number of bytes after its marker, and cutting it in pairs ends within a
character behind the pairs that are read. -/
def BreaksCharacter (text : List Char) : Prop :=
  byteLen (stripMarker text) % 2 = 0 ∧ ∃ pairs rest, stripMarker text = spellPairs pairs ++ rest ∧
    (∀ pair ∈ pairs, ReadPair pair) ∧ CutsCharacter rest

/-- The text is read as a number of bytes, one of them with a sign. -/
def ReadWithSign (width : Nat) (text : List Char) : Prop :=
  ∃ pairs, stripMarker text = spellPairs pairs ∧ pairs.length = width ∧
    (∀ pair ∈ pairs, ReadPair pair) ∧ ∃ pair ∈ pairs, pair.1 = '+'

section Whole

variable {ε : Type} {odd invalid : ε} {wrongLength : Nat → ε} {width : Nat} {text : List Char}

theorem decodeHex_eq_panicked_iff : decodeHex odd invalid text = .panicked ↔ BreaksCharacter text := by
  unfold decodeHex BreaksCharacter
  dsimp only
  split
  case isTrue empty =>
    have nothing := List.isEmpty_iff.mp empty
    rw [nothing]
    constructor
    · intro panics
      cases panics
    · rintro ⟨-, pairs, rest, same, -, cuts⟩
      cases (List.append_eq_nil_iff.mp same.symm).2
      exact cuts.elim
  case isFalse =>
    split
    case isTrue odd => simp [show ¬ byteLen (stripMarker text) % 2 = 0 from odd]
    case isFalse even =>
      have halved : byteLen (stripMarker text) = 2 * (byteLen (stripMarker text) / 2) := by omega
      rw [Outcome.map_eq_panicked_iff, decodePairs_eq_panicked_iff halved]
      exact (and_iff_right (not_not.mp even)).symm

theorem decodeHex_eq_ok_iff {bytes : List UInt8} :
    decodeHex odd invalid text = .returned (.ok bytes) ↔
      ∃ pairs, stripMarker text = spellPairs pairs ∧ pairs.map pairByte = bytes.map some := by
  have even : ∀ pairs, stripMarker text = spellPairs pairs → pairs.map pairByte = bytes.map some →
      byteLen (stripMarker text) % 2 = 0 := by
    intro pairs same spelled
    have length := byteLen_spellPairs (readPair_of_spelled spelled) []
    rw [List.append_nil, ← same] at length
    change _ = 2 * pairs.length + 0 at length
    omega
  unfold decodeHex
  dsimp only
  split
  case isTrue empty =>
    have nothing := List.isEmpty_iff.mp empty
    rw [nothing]
    constructor
    · intro result
      cases result
      exact ⟨[], rfl, rfl⟩
    · rintro ⟨pairs, same, spelled⟩
      cases pairs with
      | nil =>
          cases List.map_eq_nil_iff.mp spelled.symm
          rfl
      | cons pair pairs => cases same
  case isFalse =>
    split
    case isTrue odd =>
      constructor
      · intro result
        cases result
      · rintro ⟨pairs, same, spelled⟩
        exact absurd (even pairs same spelled) odd
    case isFalse =>
      have halved : byteLen (stripMarker text) = 2 * (byteLen (stripMarker text) / 2) := by omega
      rw [← decodePairs_eq_returned_iff halved, Outcome.map_eq_returned_iff]
      constructor
      · rintro ⟨_ | others, result, same⟩
        · cases same
        · cases same
          exact result
      · exact fun result => ⟨some bytes, result, rfl⟩

theorem decodeFixedHex_eq_panicked_iff :
    decodeFixedHex odd invalid wrongLength width text = .panicked ↔ BreaksCharacter text := by
  rw [decodeFixedHex, Outcome.map_eq_panicked_iff, decodeHex_eq_panicked_iff]

theorem decodeFixedHex_eq_ok_iff {bytes : List.Vector UInt8 width} :
    decodeFixedHex odd invalid wrongLength width text = .returned (.ok bytes) ↔
      ∃ pairs, stripMarker text = spellPairs pairs ∧
        pairs.map pairByte = bytes.toList.map some := by
  rw [decodeFixedHex, Outcome.map_eq_returned_iff, ← @decodeHex_eq_ok_iff ε odd invalid]
  constructor
  · rintro ⟨error | decoded, result, fixed⟩
    · cases fixed
    · change (if same : decoded.length = width then .ok ⟨decoded, same⟩
        else .error (wrongLength decoded.length)) = Except.ok bytes at fixed
      split at fixed
      · cases fixed
        exact result
      · cases fixed
  · intro result
    refine ⟨.ok bytes.toList, result, ?_⟩
    exact dif_pos bytes.2

/-! ## The grammar -/

theorem stripMarker_eq (text : List Char) :
    text = stripMarker text ∨ text = '0' :: 'x' :: stripMarker text := by
  unfold stripMarker
  split
  · exact .inr rfl
  · exact .inl rfl

theorem stripMarker_of_digits {digits : List Char} (hex : ∀ digit ∈ digits, IsHexDigit digit) :
    stripMarker digits = digits := by
  unfold stripMarker
  split
  · exact absurd (hex 'x' (.tail _ (.head _))) (by unfold IsHexDigit; decide)
  · rfl

theorem exists_pairs {digits : List Char} (length : digits.length = 2 * width) :
    ∃ pairs, digits = spellPairs pairs ∧ pairs.length = width := by
  induction width generalizing digits with
  | zero => exact ⟨[], List.length_eq_zero_iff.mp length, rfl⟩
  | succ width ih =>
      obtain _ | ⟨first, _ | ⟨second, rest⟩⟩ := digits
      · cases length
      · rw [List.length_singleton] at length
        omega
      · rw [List.length_cons, List.length_cons] at length
        obtain ⟨pairs, rfl, counted⟩ := ih (by omega : rest.length = 2 * width)
        exact ⟨(first, second) :: pairs, rfl, by rw [List.length_cons, counted]⟩

theorem length_spellPairs (pairs : List (Char × Char)) :
    (spellPairs pairs).length = 2 * pairs.length := by
  induction pairs with
  | nil => rfl
  | cons pair pairs ih =>
      rw [spellPairs_cons, List.length_cons, List.length_cons, List.length_cons, ih]
      omega

/-- The grammar in pairs. -/
theorem isHex_iff : IsHex width text ↔
    ∃ pairs, stripMarker text = spellPairs pairs ∧ pairs.length = width ∧
      ∀ pair ∈ pairs, IsHexDigit pair.1 ∧ IsHexDigit pair.2 := by
  constructor
  · rintro ⟨digits, length, hex, spelled⟩
    have stripped : stripMarker text = digits := by
      rcases spelled with rfl | rfl
      · exact stripMarker_of_digits hex
      · rfl
    obtain ⟨pairs, rfl, counted⟩ := exists_pairs length
    refine ⟨pairs, stripped, counted, fun pair member => ⟨hex _ ?_, hex _ ?_⟩⟩
    · exact List.mem_flatMap.mpr ⟨pair, member, .head _⟩
    · exact List.mem_flatMap.mpr ⟨pair, member, .tail _ (.head _)⟩
  · rintro ⟨pairs, stripped, counted, hex⟩
    refine ⟨spellPairs pairs, by rw [length_spellPairs, counted], fun digit member => ?_, ?_⟩
    · obtain ⟨pair, listed, within⟩ := List.mem_flatMap.mp member
      simp only [List.mem_cons, List.not_mem_nil, or_false] at within
      rcases within with rfl | rfl
      · exact (hex pair listed).1
      · exact (hex pair listed).2
    · rw [← stripped]
      exact stripMarker_eq text

theorem spellPairs_inj {left right : List (Char × Char)} (same : spellPairs left = spellPairs right) :
    left = right := by
  induction left generalizing right with
  | nil =>
      cases right with
      | nil => rfl
      | cons pair pairs => cases same
  | cons pair pairs ih =>
      cases right with
      | nil => cases same
      | cons other others =>
          obtain ⟨first, rest⟩ := List.cons.inj same
          obtain ⟨second, rest⟩ := List.cons.inj rest
          rw [ih rest, Prod.ext first second]

/-- A text of hexadecimal digits is read. -/
theorem exists_ok_of_isHex (hex : IsHex width text) :
    ∃ bytes, decodeFixedHex odd invalid wrongLength width text = .returned (.ok bytes) := by
  obtain ⟨pairs, stripped, counted, digits⟩ := isHex_iff.mp hex
  obtain ⟨bytes, spelled⟩ := exists_spelled fun pair member =>
    ⟨.inr (digits pair member).1, (digits pair member).2⟩
  have length := congrArg List.length spelled
  rw [List.length_map, List.length_map, counted] at length
  exact ⟨⟨bytes, length.symm⟩, decodeFixedHex_eq_ok_iff.mpr ⟨pairs, stripped, spelled⟩⟩

/-- **The texts whose reading follows the grammar.** Reading does not panic and accepts the text
exactly when it is hexadecimal, unless the scan panics or reads a sign. -/
theorem accepts_iff :
    (decodeFixedHex odd invalid wrongLength width text ≠ .panicked ∧
      ((∃ bytes, decodeFixedHex odd invalid wrongLength width text = .returned (.ok bytes)) ↔
        IsHex width text)) ↔ ¬ BreaksCharacter text ∧ ¬ ReadWithSign width text := by
  rw [Ne, decodeFixedHex_eq_panicked_iff]
  refine and_congr_right fun _ => ⟨fun exact signed => ?_, fun unsigned => ⟨?_, exists_ok_of_isHex⟩⟩
  · obtain ⟨pairs, stripped, counted, read, pair, member, sign⟩ := signed
    obtain ⟨bytes, spelled⟩ := exists_spelled read
    have length := congrArg List.length spelled
    rw [List.length_map, List.length_map, counted] at length
    obtain ⟨others, otherwise, -, digits⟩ := isHex_iff.mp (exact.mp
      ⟨⟨bytes, length.symm⟩, decodeFixedHex_eq_ok_iff.mpr ⟨pairs, stripped, spelled⟩⟩)
    cases spellPairs_inj (stripped.symm.trans otherwise)
    have digit := (digits pair member).1
    rw [sign] at digit
    exact absurd digit (by unfold IsHexDigit; decide)
  · rintro ⟨bytes, result⟩
    obtain ⟨pairs, stripped, spelled⟩ := decodeFixedHex_eq_ok_iff.mp result
    have read := readPair_of_spelled spelled
    have counted : pairs.length = width := by
      have length := congrArg List.length spelled
      rwa [List.length_map, List.length_map, bytes.toList_length] at length
    refine isHex_iff.mpr ⟨pairs, stripped, counted, fun pair member => ⟨?_, (read pair member).2⟩⟩
    refine (read pair member).1.resolve_left fun sign => ?_
    exact unsigned ⟨pairs, stripped, counted, read, pair, member, sign⟩

/-! ## Round trips -/

theorem hexDigitValue_digitChar : ∀ digit < 16, hexDigitValue (Nat.digitChar digit) = some digit := by
  decide

theorem pairByte_digitChar (byte : UInt8) :
    pairByte (Nat.digitChar (byte.toNat / 16), Nat.digitChar (byte.toNat % 16)) = some byte := by
  have bound := byte.toNat_lt
  have high := hexDigitValue_digitChar (byte.toNat / 16) (by omega)
  have low := hexDigitValue_digitChar (byte.toNat % 16) (by omega)
  have noSign : Nat.digitChar (byte.toNat / 16) ≠ '+' := by
    intro sign
    rw [sign] at high
    cases high
  rw [pairByte_eq, if_neg noSign, high, low, Option.bind_some, Option.map_some, Nat.div_add_mod,
    UInt8.ofNat_toNat]

/-- **What is formatted is read back.** -/
theorem decodeFixedHex_formatHex (bytes : List.Vector UInt8 width) :
    decodeFixedHex odd invalid wrongLength width (formatHex bytes.toList) =
      .returned (.ok bytes) := by
  refine decodeFixedHex_eq_ok_iff.mpr ⟨bytes.toList.map fun byte =>
    (Nat.digitChar (byte.toNat / 16), Nat.digitChar (byte.toNat % 16)), ?_, ?_⟩
  · rw [spellPairs, List.flatMap_map]
    rfl
  · rw [List.map_map]
    exact List.map_congr_left fun byte _ => pairByte_digitChar byte

end Whole

end Mempulse.Library
