import Mathlib

/-!
# Values of the web UI

The JavaScript values that the modules of the dashboard compute with. A number is a rational number,
an infinity or not a number; the two zeros are one here, nothing the modules do tells them apart.
Objects are references.
-/

set_option autoImplicit false

namespace Mempulse.WebUi

/-- A number of the script: a rational, an infinity or none. -/
inductive JsNumber where
  | nan
  | negativeInfinity
  | positiveInfinity
  | finite (value : ℚ)
  deriving DecidableEq

/-- The values the rows' fields may have. -/
inductive JsValue where
  | undefined
  | null
  | boolean (value : Bool)
  | number (value : JsNumber)
  | string (value : String)
  | object (reference : Nat)
  deriving DecidableEq

namespace JsValue

instance : Inhabited JsValue := ⟨.undefined⟩

/-- The number of a value for which `Number.isFinite` holds. -/
def finite? : JsValue → Option ℚ
  | number (.finite value) => some value
  | _ => none

/-- Whether a condition on the value holds. -/
def truthy : JsValue → Bool
  | undefined | null => false
  | boolean value => value
  | number value => value ≠ .nan && value ≠ .finite 0
  | string value => value ≠ ""
  | object _ => true

/-- `===`. -/
def strictEquals (left right : JsValue) : Bool := left = right && left ≠ number .nan

end JsValue

/-- `Math.max(0, Math.floor(value))`. -/
def floorFromZero (value : ℚ) : Nat := value.floor.toNat

/-- What `new Array` throws for a length that no array has. -/
inductive RangeError where
  | invalidArrayLength
  deriving DecidableEq

/-- `new Array(count)`. The length of an array is below `2 ^ 32`. -/
def newArray (α : Type) [Inhabited α] (count : Nat) : Except RangeError (List α) :=
  if count < 2 ^ 32 then .ok (List.replicate count default) else .error .invalidArrayLength

/-! ## Maps -/

/-- A `Map` from values. A key that is missing gives `none`, as `undefined`. -/
abbrev JsMap (Row : Type) := JsValue → Option Row

/-- The empty map. -/
def JsMap.empty {Row : Type} : JsMap Row := fun _ => none

/-- The map with another row under the key. -/
def JsMap.set {Row : Type} (map : JsMap Row) (key : JsValue) (row : Option Row) : JsMap Row :=
  Function.update map key row

end Mempulse.WebUi
