import Mathlib.Algebra.Group.Nat.Defs

/-!
# JSON values

The values of `serde_json` as far as the source inspects them. An object keeps
its fields under distinct keys, so a field is found by its first occurrence.
-/

namespace CodexLb

/-- A number as `serde_json` keeps it; a float is given by the rational it denotes. -/
inductive JsonNumber where
  | posInt (value : Nat)
  | negInt (value : Int)
  | float (value : Rat)
  deriving DecidableEq

/-- `serde_json::Value`. -/
inductive JsonValue where
  | null
  | bool (value : Bool)
  | number (value : JsonNumber)
  | string (value : String)
  | array (items : List JsonValue)
  | object (fields : List (String × JsonValue))

namespace JsonValue

/-- `Value::as_object`. -/
def asObject : JsonValue → Option (List (String × JsonValue))
  | object fields => some fields
  | _ => none

/-- `Value::as_str`. -/
def asStr : JsonValue → Option String
  | string value => some value
  | _ => none

/-- `Value::get` with a key: a field of an object. -/
def get (value : JsonValue) (key : String) : Option JsonValue :=
  value.asObject.bind fun fields ↦ fields.lookup key

/-- `Value::pointer`, by the tokens of the pointer. No token in the source is an array index. -/
def pointer (value : JsonValue) : List String → Option JsonValue
  | [] => some value
  | key :: keys => (value.get key).bind fun child ↦ child.pointer keys

/-- `Value::as_u64`. -/
def asU64 : JsonValue → Option Nat
  | number (.posInt value) => some value
  | _ => none

/-- `Value::as_i64`. -/
def asI64 : JsonValue → Option Int
  | number (.posInt value) => if value < 2 ^ 63 then some value else none
  | number (.negInt value) => some value
  | _ => none

end JsonValue

/-- The text reader that `serde_json` provides. -/
class JsonText where
  fromStr : String → Option JsonValue

end CodexLb
