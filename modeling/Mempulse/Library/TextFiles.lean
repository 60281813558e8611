import Mathlib

/-!
# Text files

Lines of a file as a buffered reader yields them, white space, and joined texts. A file is a list of
bytes: a file that was cut anywhere need not be text.
-/

set_option autoImplicit false

namespace Mempulse.Library

/-! ## Lines -/

/-- The newline byte. -/
def newline : UInt8 := 10

/-- A line ending loses its carriage return. -/
def stripCarriageReturn (line : List UInt8) : List UInt8 :=
  if line.getLast? = some 13 then line.dropLast else line

/-- The lines of a file, given the bytes of the current line. -/
def linesFrom (current : List UInt8) : List UInt8 → List (List UInt8)
  | [] => if current.isEmpty then [] else [current]
  | byte :: rest =>
    if byte = newline then stripCarriageReturn current :: linesFrom [] rest
    else linesFrom (current ++ [byte]) rest

/-- The lines of a file. A last line without an ending is a line, unless it is empty. -/
def lines (contents : List UInt8) : List (List UInt8) := linesFrom [] contents

section Lines

theorem linesFrom_of_not_mem (current : List UInt8) {line : List UInt8} (free : newline ∉ line)
    (rest : List UInt8) : linesFrom current (line ++ rest) = linesFrom (current ++ line) rest := by
  induction line generalizing current with
  | nil => rw [List.nil_append, List.append_nil]
  | cons byte others ih =>
      obtain ⟨here, later⟩ := not_or.mp (mt List.mem_cons.mpr free)
      rw [List.cons_append, linesFrom, if_neg (Ne.symm here), ih _ later, List.append_assoc,
        List.singleton_append]

/-- A line with its ending comes first. -/
theorem lines_cons {line : List UInt8} (free : newline ∉ line) (ending : line.getLast? ≠ some 13)
    (rest : List UInt8) : lines (line ++ newline :: rest) = line :: lines rest := by
  rw [lines, linesFrom_of_not_mem [] free, linesFrom, if_pos rfl, List.nil_append,
    stripCarriageReturn, if_neg ending]
  rfl

/-- A cut line is a line of its own. -/
theorem lines_of_not_mem {line : List UInt8} (free : newline ∉ line) :
    lines line = if line.isEmpty then [] else [line] := by
  have whole := linesFrom_of_not_mem [] free []
  rw [List.append_nil, List.nil_append] at whole
  rw [lines, whole, linesFrom]

end Lines

/-! ## Blank text -/

/-- The Unicode white space. -/
def whitespace : List Char :=
  ['\t', '\n', '\x0b', '\x0c', '\r', ' ', '\u0085', '\u00a0', '\u1680', '\u2000', '\u2001',
    '\u2002', '\u2003', '\u2004', '\u2005', '\u2006', '\u2007', '\u2008', '\u2009', '\u200a',
    '\u2028', '\u2029', '\u202f', '\u205f', '\u3000']

/-- The character is white space. -/
def isWhitespace (char : Char) : Bool := char ∈ whitespace

/-- `str::trim`. -/
def trim (text : List Char) : List Char :=
  (text.dropWhile isWhitespace).rdropWhile isWhitespace

theorem isDigit_of_isWhitespace {char : Char} (white : isWhitespace char = true) :
    char.isDigit = false := by
  have listed : ∀ char ∈ whitespace, char.isDigit = false := by simp [whitespace]
  exact listed char (of_decide_eq_true white)

theorem dropWhile_of_digits {text : List Char} (digits : ∀ char ∈ text, char.isDigit = true) :
    text.dropWhile isWhitespace = text := by
  cases text with
  | nil => rfl
  | cons first rest =>
      refine List.dropWhile_cons_of_neg fun white => ?_
      have digit := digits first List.mem_cons_self
      rw [isDigit_of_isWhitespace white] at digit
      cases digit

/-- Digits stay when a text is trimmed. -/
theorem trim_of_digits {value : List Char} (digits : ∀ char ∈ value, char.isDigit = true) :
    trim value = value := by
  rw [trim, dropWhile_of_digits digits, List.rdropWhile, dropWhile_of_digits fun char member =>
    digits char (List.mem_reverse.mp member), List.reverse_reverse]

/-- `text.trim().is_empty()`. -/
def isBlank (text : String) : Bool := text.toList.all isWhitespace

/-- The bytes of a text. -/
def utf8Bytes (text : String) : List UInt8 := text.toByteArray.data.toList

/-- The text of some bytes, if they are text. -/
def textOf (bytes : List UInt8) : Option String := String.fromUTF8? bytes.toByteArray

theorem textOf_utf8Bytes (text : String) : textOf (utf8Bytes text) = some text := by
  have bytes : (utf8Bytes text).toByteArray = text.toByteArray := by
    apply ByteArray.ext
    rw [List.data_toByteArray, utf8Bytes, Array.toArray_toList]
  rw [textOf, bytes]
  exact dif_pos text.isValidUTF8

theorem utf8Bytes_of_textOf {bytes : List UInt8} {text : String} (decoded : textOf bytes = some text) :
    utf8Bytes text = bytes := by
  unfold textOf String.fromUTF8? at decoded
  split at decoded
  case isTrue valid =>
    rw [← Option.some.inj decoded]
    exact List.toList_data_toByteArray
  case isFalse => cases decoded

theorem head?_utf8EncodeChar_of_whitespace {char : Char} (white : char ∈ whitespace) :
    ∃ byte ∈ (String.utf8EncodeChar char).head?, byte ≠ 123 := by
  simp only [whitespace, List.mem_cons, List.not_mem_nil, or_false] at white
  rcases white with rfl | rfl | rfl | rfl | rfl | rfl | rfl | rfl | rfl | rfl | rfl | rfl | rfl |
    rfl | rfl | rfl | rfl | rfl | rfl | rfl | rfl | rfl | rfl | rfl | rfl <;> decide

/-- Text that begins with an opening brace is not blank. -/
theorem not_isBlank_of_brace {text : String} {rest : List UInt8}
    (brace : utf8Bytes text = 123 :: rest) : isBlank text = false := by
  rw [utf8Bytes, ← String.utf8Encode_toList] at brace
  cases chars : text.toList with
  | nil =>
      rw [chars] at brace
      cases brace
  | cons first others =>
      rw [chars, List.utf8Encode_cons, List.utf8Encode_singleton, ByteArray.data_append,
        Array.toList_append, List.data_toByteArray] at brace
      rw [isBlank, chars, List.all_cons]
      cases white : isWhitespace first with
      | false => rfl
      | true =>
          obtain ⟨byte, leading, other⟩ :=
            head?_utf8EncodeChar_of_whitespace (of_decide_eq_true white)
          have first := congrArg List.head? brace
          rw [List.head?_append, Option.mem_def.mp leading] at first
          exact absurd (Option.some.inj first) other

/-! ## Joined texts -/

section Joined

variable {separator : Char} {texts other : List String}

theorem splitOn_toList_intercalate (apart : ∀ text ∈ texts, separator ∉ text.toList)
    (nonempty : texts ≠ []) :
    ((String.singleton separator).intercalate texts).toList.splitOn separator =
      texts.map String.toList := by
  rw [String.toList_intercalate, String.toList_singleton]
  refine List.splitOn_intercalate separator (fun characters member => ?_) ?_
  · obtain ⟨text, listed, rfl⟩ := List.mem_map.mp member
    exact apart text listed
  · exact fun empty => nonempty (List.map_eq_nil_iff.mp empty)

/-- Texts that neither are empty nor have the separator can be told apart once they are joined. -/
theorem intercalate_inj (parts : ∀ text ∈ texts, text ≠ "" ∧ separator ∉ text.toList)
    (otherParts : ∀ text ∈ other, text ≠ "" ∧ separator ∉ text.toList)
    (same : (String.singleton separator).intercalate texts =
      (String.singleton separator).intercalate other) : texts = other := by
  have joined : ∀ texts : List String, (∀ text ∈ texts, text ≠ "" ∧ separator ∉ text.toList) →
      texts ≠ [] →
        ((String.singleton separator).intercalate texts).toList.splitOn separator =
          texts.map String.toList := fun texts parts =>
    splitOn_toList_intercalate fun text member => (parts text member).2
  have lone : ∀ texts : List String, (∀ text ∈ texts, text ≠ "" ∧ separator ∉ text.toList) →
      texts.map String.toList ≠ [[]] := by
    intro texts parts single
    obtain ⟨text, rfl, nothing⟩ := List.map_eq_singleton_iff.mp single
    exact (parts text List.mem_cons_self).1 (String.toList_inj.mp nothing)
  have split := congrArg (fun text => text.toList.splitOn separator) same
  by_cases empty : texts = [] <;> by_cases otherEmpty : other = []
  · rw [empty, otherEmpty]
  · rw [joined other otherParts otherEmpty, empty] at split
    exact absurd split.symm (lone other otherParts)
  · rw [joined texts parts empty, otherEmpty] at split
    exact absurd split (lone texts parts)
  · rw [joined texts parts empty, joined other otherParts otherEmpty] at split
    exact List.map_injective_iff.mpr (fun _ _ => String.toList_inj.mp) split

end Joined

end Mempulse.Library
