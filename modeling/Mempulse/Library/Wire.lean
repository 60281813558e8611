import Mathlib.Data.List.Basic
import Mathlib.Data.UInt

/-!
# Codes on a wire

Values are written one after another without separators. A code delimits its values when what
follows a code word never matters: the word, and where it ends, can be read off any stream that
starts with it. Words of one width delimit, so do words in sequence, and a list after its length.
Streams without lengths are read by their layout.
-/

set_option autoImplicit false

namespace Mempulse.Library

variable {α β γ : Type}

/-! ## Codes that delimit -/

/-- The words of valid values can be split off the front of a stream. -/
def DelimitsOn (valid : α → Prop) (encode : α → List β) : Prop :=
  ∀ a b, valid a → valid b → ∀ rest more, encode a ++ rest = encode b ++ more →
    a = b ∧ rest = more

namespace DelimitsOn

variable {valid : α → Prop} {encode : α → List β}

theorem eq_of_eq (delimits : DelimitsOn valid encode) {a b : α} (validA : valid a)
    (validB : valid b) (same : encode a = encode b) : a = b :=
  (delimits a b validA validB [] [] (by rw [same])).1

/-- Words of one width delimit when they name their values. -/
theorem of_length (width : Nat) (length : ∀ a, (encode a).length = width)
    (injective : ∀ a b, valid a → valid b → encode a = encode b → a = b) :
    DelimitsOn valid encode := by
  intro a b validA validB rest more same
  obtain ⟨word, tail⟩ := List.append_inj same ((length a).trans (length b).symm)
  exact ⟨injective a b validA validB word, tail⟩

/-- Two words, where the second may depend on the first. -/
theorem append {first : α → γ} {validFirst : γ → Prop} {encodeFirst : γ → List β}
    (delimits : DelimitsOn validFirst encodeFirst) (projects : ∀ a, valid a → validFirst (first a))
    (second : ∀ a b, valid a → valid b → first a = first b → ∀ rest more,
      encode a ++ rest = encode b ++ more → a = b ∧ rest = more) :
    DelimitsOn valid fun a => encodeFirst (first a) ++ encode a := by
  intro a b validA validB rest more same
  rw [List.append_assoc, List.append_assoc] at same
  obtain ⟨front, back⟩ :=
    delimits (first a) (first b) (projects a validA) (projects b validB) _ _ same
  exact second a b validA validB front rest more back

/-- The words of two lists that are equally long. -/
theorem flatMap (delimits : DelimitsOn valid encode) {as bs : List α} (validAs : ∀ a ∈ as, valid a)
    (validBs : ∀ b ∈ bs, valid b) (length : as.length = bs.length) {rest more : List β}
    (same : as.flatMap encode ++ rest = bs.flatMap encode ++ more) : as = bs ∧ rest = more := by
  induction as generalizing bs with
  | nil =>
      obtain rfl := List.length_eq_zero_iff.mp length.symm
      exact ⟨rfl, same⟩
  | cons a as ih =>
      cases bs with
      | nil => cases length
      | cons b bs =>
          rw [List.flatMap_cons, List.flatMap_cons, List.append_assoc, List.append_assoc] at same
          obtain ⟨rfl, others⟩ := delimits a b (validAs a List.mem_cons_self)
            (validBs b List.mem_cons_self) _ _ same
          obtain ⟨rfl, tail⟩ := ih (fun a member => validAs a (List.mem_cons_of_mem _ member))
            (fun b member => validBs b (List.mem_cons_of_mem _ member)) (Nat.succ.inj length) others
          exact ⟨rfl, tail⟩

/-- A list after its length. -/
theorem counted {bound : Nat} {count : Nat → List β} (counts : DelimitsOn (· < bound) count)
    (delimits : DelimitsOn valid encode) :
    DelimitsOn (fun list : List α => list.length < bound ∧ ∀ a ∈ list, valid a)
      fun list => count list.length ++ list.flatMap encode :=
  append counts (fun _ fits => fits.1) fun _ _ validAs validBs length _ _ same =>
    delimits.flatMap validAs.2 validBs.2 length same

end DelimitsOn

/-! ## Streams without lengths -/

section Layouts

variable {Layout : Type}

/-- How values are written without lengths: the words of a value, and a layout that says how long
they are. A value is known from its words when its layout is known. -/
structure Unframed (α β Layout : Type) where
  words : α → List (List β)
  layout : α → Layout
  lengths : ∀ a b, layout a = layout b → (words a).map List.length = (words b).map List.length
  known : ∀ a b, layout a = layout b → words a = words b → a = b

namespace Unframed

variable (code : Unframed α β Layout)

/-- The stream of a value: its words, one after the other. -/
def stream (a : α) : List β := (code.words a).flatten

/-- A stream is read by its layout. -/
theorem eq_of_stream {a b : α} (layouts : code.layout a = code.layout b)
    (same : code.stream a = code.stream b) : a = b :=
  code.known a b layouts (List.eq_iff_flatten_eq.mpr ⟨same, code.lengths a b layouts⟩)

/-- **A stream tells two values apart exactly when they have one layout or are written
differently.** -/
theorem tells_iff (a b : α) :
    (code.stream a = code.stream b → a = b) ↔
      code.layout a = code.layout b ∨ code.stream a ≠ code.stream b := by
  constructor
  · intro tells
    by_cases same : code.stream a = code.stream b
    · exact .inl (congrArg code.layout (tells same))
    · exact .inr same
  · rintro (layouts | differs) same
    · exact code.eq_of_stream layouts same
    · exact absurd same differs

end Unframed

end Layouts

/-! ## Collisions -/

/-- Two different messages with one digest. -/
def Collides (digest : List β → γ) (left right : List β) : Prop :=
  left ≠ right ∧ digest left = digest right

/-- A digest tells two messages apart, unless they collide. -/
theorem digest_eq_iff {digest : List β → γ} {left right : List β}
    (apart : ¬ Collides digest left right) : digest left = digest right ↔ left = right := by
  constructor
  · intro same
    by_contra differs
    exact apart ⟨differs, same⟩
  · exact congrArg digest

end Mempulse.Library
