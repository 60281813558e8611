import Mathlib

/-!
# Decimal numbers

An unsigned number of bounded width is read from the left, one digit at a time. A text is refused
when it has no digit, at its first character that is not a digit, and as soon as the number no longer
fits; one leading plus sign is allowed. A text of digits is therefore read as the number it spells,
if that fits (`parseUnsigned_of_digits`).
-/

set_option autoImplicit false

namespace Mempulse.Library

/-! ## Reading -/

/-- `ParseIntError`, as it is shown. -/
inductive ParseIntError where
  | empty
  | invalidDigit
  | posOverflow
  deriving DecidableEq

/-- The text of a failure. -/
def ParseIntError.text : ParseIntError → String
  | .empty => "cannot parse integer from empty string"
  | .invalidDigit => "invalid digit found in string"
  | .posOverflow => "number too large to fit in target type"

/-- One more digit of a number that is at most a bound. -/
def pushDecimal (bound number : Nat) (digit : Char) : Except ParseIntError Nat :=
  if digit.isDigit then
    if number * 10 + (digit.toNat - '0'.toNat) ≤ bound then
      .ok (number * 10 + (digit.toNat - '0'.toNat))
    else .error .posOverflow
  else .error .invalidDigit

/-- `str::parse` at an unsigned type, by its greatest value. -/
def parseUnsigned (bound : Nat) : List Char → Except ParseIntError Nat
  | [] => .error .empty
  | ['+'] => .error .invalidDigit
  | '+' :: digits => digits.foldlM (pushDecimal bound) 0
  | digits => digits.foldlM (pushDecimal bound) 0

/-- `str::parse::<u64>().ok()`. -/
def parseU64 (raw : List Char) : Option UInt64 :=
  (parseUnsigned (2 ^ 64 - 1) raw).toOption.map UInt64.ofNat

/-- Digits in front do not make the number that the others spell any smaller. -/
theorem le_ofDigitChars (digits : List Char) (number : Nat) :
    number ≤ Nat.ofDigitChars 10 digits number := by
  rw [Nat.ofDigitChars_eq_ofDigitChars_zero]
  exact (Nat.le_mul_of_pos_left number (by positivity)).trans (Nat.le_add_right _ _)

/-- Digits are read on to the number they spell, while it fits. -/
theorem foldlM_pushDecimal {bound : Nat} {digits : List Char}
    (decimal : ∀ char ∈ digits, char.isDigit = true) {number : Nat}
    (fits : Nat.ofDigitChars 10 digits number ≤ bound) :
    digits.foldlM (pushDecimal bound) number = .ok (Nat.ofDigitChars 10 digits number) := by
  induction digits generalizing number with
  | nil => rfl
  | cons digit digits ih =>
      rw [Nat.ofDigitChars_cons, Nat.mul_comm 10 number] at fits ⊢
      have here := (le_ofDigitChars digits _).trans fits
      have pushed : pushDecimal bound number digit =
          .ok (number * 10 + (digit.toNat - '0'.toNat)) := by
        rw [pushDecimal, if_pos (decimal digit List.mem_cons_self), if_pos here]
      rw [List.foldlM_cons, pushed]
      exact ih (fun char member => decimal char (List.mem_cons_of_mem digit member)) fits

/-- **Digits are read as the number they spell.** -/
theorem parseUnsigned_of_digits {bound : Nat} {digits : List Char} (nonempty : digits ≠ [])
    (decimal : ∀ char ∈ digits, char.isDigit = true)
    (fits : Nat.ofDigitChars 10 digits 0 ≤ bound) :
    parseUnsigned bound digits = .ok (Nat.ofDigitChars 10 digits 0) := by
  have read := foldlM_pushDecimal decimal fits
  unfold parseUnsigned
  split
  case h_1 => exact absurd rfl nonempty
  case h_2 | h_3 => exact absurd (decimal '+' List.mem_cons_self) (by decide)
  case h_4 => exact read

theorem parseU64_of_digits {digits : List Char} {number : UInt64} (nonempty : digits ≠ [])
    (decimal : ∀ char ∈ digits, char.isDigit = true)
    (spelled : Nat.ofDigitChars 10 digits 0 = number.toNat) : parseU64 digits = some number := by
  have fits : Nat.ofDigitChars 10 digits 0 ≤ 2 ^ 64 - 1 := by
    have below := number.toNat_lt
    omega
  rw [parseU64, parseUnsigned_of_digits nonempty decimal fits, spelled]
  exact congrArg some UInt64.ofNat_toNat

/-- A number is read back from its decimal digits. -/
theorem parseU64_toDigits (number : UInt64) :
    parseU64 (Nat.toDigits 10 number.toNat) = some number :=
  parseU64_of_digits Nat.toDigits_ne_nil
    (fun _ member => Nat.isDigit_of_mem_toDigits (by decide) (by decide) member)
    Nat.ofDigitChars_ten_toDigits

/-! ## Numbers of fixed width -/

/-- A number in decimal with leading zeros. -/
def paddedDecimal (width number : Nat) : List Char :=
  (List.range width).reverse.map fun position => Nat.digitChar (number / 10 ^ position % 10)

theorem isDigit_digitChar {digit : Nat} (small : digit < 10) :
    (Nat.digitChar digit).isDigit = true := by
  interval_cases digit <;> decide

theorem isDigit_of_mem_paddedDecimal {width number : Nat} {char : Char}
    (member : char ∈ paddedDecimal width number) : char.isDigit = true := by
  obtain ⟨position, -, rfl⟩ := List.mem_map.mp member
  exact isDigit_digitChar (Nat.mod_lt _ (by decide))

theorem ofDigitChars_paddedDecimal (width number start : Nat) :
    Nat.ofDigitChars 10 (paddedDecimal width number) start =
      start * 10 ^ width + number % 10 ^ width := by
  induction width generalizing start with
  | zero => simp [paddedDecimal, Nat.mod_one]
  | succ width ih =>
      have shape : paddedDecimal (width + 1) number =
          Nat.digitChar (number / 10 ^ width % 10) :: paddedDecimal width number := by
        rw [paddedDecimal, List.range_succ, List.reverse_append]
        rfl
      rw [shape, Nat.ofDigitChars_cons_digitChar_of_lt_ten (Nat.mod_lt _ (by decide)), ih,
        Nat.mod_pow_succ, Nat.pow_succ]
      ring

/-- A number is read back from its twenty digits. -/
theorem parseU64_paddedDecimal (number : UInt64) :
    parseU64 (paddedDecimal 20 number.toNat) = some number := by
  have bound := number.toNat_lt
  refine parseU64_of_digits (fun empty => ?_) (fun _ => isDigit_of_mem_paddedDecimal) ?_
  · have counted := congrArg List.length empty
    rw [paddedDecimal, List.length_map, List.length_reverse, List.length_range] at counted
    cases counted
  · rw [ofDigitChars_paddedDecimal, Nat.zero_mul, Nat.zero_add, Nat.mod_eq_of_lt (by omega)]

end Mempulse.Library
