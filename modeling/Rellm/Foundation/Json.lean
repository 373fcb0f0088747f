import Mathlib.Data.List.Basic

/-!
# JSON values and field decoding

A JSON document as a tree, with the decoding rules of derived deserializers:
object fields are looked up by name, unknown fields are ignored, a missing or
`null` optional field is absent, and an enumeration is a one-field object.
-/

namespace Rellm.Foundation

/-- A JSON document; numbers are the integers this development stores. -/
inductive Json where
  | null
  | bool (value : Bool)
  | num (value : Int)
  | str (value : String)
  | arr (values : List Json)
  | obj (fields : List (String × Json))

namespace Json

/-- The field of an object, if the document is one and has it. -/
def get : Json → String → Option Json
  | .obj fields, key => fields.lookup key
  | _, _ => none

def asArray : Json → Option (List Json)
  | .arr values => some values
  | _ => none

def asString : Json → Option String
  | .str value => some value
  | _ => none

def asBool : Json → Option Bool
  | .bool value => some value
  | _ => none

/-- An integer in the range of an `i32`. -/
def asI32 : Json → Option Int32
  | .num value => if (Int32.ofInt value).toInt = value then some (Int32.ofInt value) else none
  | _ => none

/-- An integer in the range of an `i64`. -/
def asI64 : Json → Option Int64
  | .num value => if (Int64.ofInt value).toInt = value then some (Int64.ofInt value) else none
  | _ => none

/-- `null` reads as absent, anything else must decode. -/
def asOption {α : Type} (decode : Json → Option α) : Json → Option (Option α)
  | .null => some none
  | json => (decode json).map some

/-- An array whose every element decodes. -/
def asList {α : Type} (decode : Json → Option α) (json : Json) : Option (List α) := do
  (← json.asArray).mapM decode

/-- A field that must be there and decode. -/
def field {α : Type} (json : Json) (key : String) (decode : Json → Option α) : Option α := do
  decode (← json.get key)

/-- A field with a default: absent is fine, present must decode. -/
def fieldOr {α : Type} (json : Json) (key : String) (fallback : α) (decode : Json → Option α) :
    Option α :=
  match json.get key with
  | none => some fallback
  | some value => decode value

/-- An optional field: absent and `null` both mean absent. -/
def optionField {α : Type} (json : Json) (key : String) (decode : Json → Option α) :
    Option (Option α) :=
  json.fieldOr key none (asOption decode)

/-- The single field of a one-field object, the encoding of an enumeration with data. -/
def variant : Json → Option (String × Json)
  | .obj [entry] => some entry
  | _ => none

/-- Encodes an optional value. -/
def ofOption {α : Type} (encode : α → Json) : Option α → Json
  | none => .null
  | some value => encode value

/-- A 32-bit integer decodes to itself. -/
@[simp] theorem asI32_num (value : Int32) : asI32 (.num value.toInt) = some value := by
  rw [asI32, Int32.ofInt_toInt, if_pos rfl]

@[simp] theorem asString_str (value : String) : asString (.str value) = some value := rfl

@[simp] theorem asBool_bool (value : Bool) : asBool (.bool value) = some value := rfl

section

variable {α : Type} {encode : α → Json} {decode : Json → Option α}
variable (hdecode : ∀ value, decode (encode value) = some value)

include hdecode

/-- The elements of an encoded list decode to the list. -/
theorem asList_map (values : List α) : asList decode (.arr (values.map encode)) = some values := by
  show (values.map encode).mapM decode = some values
  induction values with
  | nil => rfl
  | cons value values ih => rw [List.map_cons, List.mapM_cons, hdecode, ih]; rfl

/-- An encoded optional value decodes to itself, if no value is encoded as `null`. -/
theorem asOption_ofOption (hnull : ∀ value, encode value ≠ .null) (value : Option α) :
    asOption decode (ofOption encode value) = some value := by
  cases value with
  | none => rfl
  | some value =>
    rw [ofOption, asOption, hdecode, Option.map_some]
    exact hnull value

/-- A field with a default that is encoded decodes to what it was. -/
theorem fieldOr_of_get {json : Json} {key : String} {value : α} (fallback : α)
    (hget : json.get key = some (encode value)) :
    json.fieldOr key fallback decode = some value := by
  rw [fieldOr, hget]
  exact hdecode value

/-- An optional field that is encoded decodes to what it was. -/
theorem optionField_of_get {json : Json} {key : String} {value : Option α}
    (hnull : ∀ value, encode value ≠ .null)
    (hget : json.get key = some (ofOption encode value)) :
    json.optionField key decode = some value :=
  fieldOr_of_get (asOption_ofOption hdecode hnull) none hget

end

end Json

end Rellm.Foundation
