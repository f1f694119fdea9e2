import Mathlib.Algebra.Group.Nat.Defs
import Mathlib.Data.List.Basic

/-!
# Generic JSON values

`serde_json::Value` as the importer sees it: the elements of the decoded body
before any of them is read as a record.
-/

set_option autoImplicit false

namespace BipaNodes.Source

/-- `serde_json::Number`: unsigned and negative integers are kept apart from
floats, whose bits no reader of this service looks at. -/
inductive Number where
  | posInt (value : UInt64)
  | negInt (value : Int64)
  | float (bits : UInt64)
  deriving DecidableEq, Repr

/-- `serde_json::Value`. An object lists the entries of its map. -/
inductive Value where
  | null
  | bool (value : Bool)
  | number (value : Number)
  | string (value : String)
  | array (elements : List Value)
  | object (entries : List (String × Value))
  deriving Repr

inductive DeserializeError where
  | invalidType
  | invalidValue
  | invalidLength (elements : Nat)
  | missingField (field : String)
  | duplicateField (field : String)
  deriving DecidableEq, Repr

/-- `String::deserialize` on a generic value. -/
def Value.asString : Value → Except DeserializeError String
  | .string value => .ok value
  | _ => .error .invalidType

/-- `i64::deserialize` on a generic value: integers in range only. -/
def Value.asInt64 : Value → Except DeserializeError Int64
  | .number (.posInt value) =>
      if value.toNat < 2 ^ 63 then .ok (Int64.ofNat value.toNat) else .error .invalidValue
  | .number (.negInt value) => .ok value
  | _ => .error .invalidType

end BipaNodes.Source
