import BipaNodes.Domain.Format
import BipaNodes.Lib.Result
import BipaNodes.Source.Json

/-!
# Wire format of the rankings endpoint

Reading a generic JSON value as a record, validating the record into a node,
and skipping the values that fail either step.
-/

set_option autoImplicit false

namespace BipaNodes.Source

open Domain (Node)

/-- One record of the connectivity ranking. Numbers mirror the wire format, so
a negative value is read first and rejected by validation. -/
structure MempoolNodeDto where
  publicKey : String
  «alias» : String
  capacity : Int64
  firstSeen : Int64
  deriving DecidableEq, Repr

inductive ValidationError where
  | emptyPublicKey
  | negativeCapacity (capacity : Int64)
  | invalidFirstSeen (firstSeen : Int64)
  deriving DecidableEq, Repr

/-!
## Derived deserialization
-/

/-- The fields met so far while the entries of an object are visited. -/
structure PartialDto where
  publicKey : Option String := none
  «alias» : Option String := none
  capacity : Option Int64 := none
  firstSeen : Option Int64 := none

def readOnce {Field : Type} (name : String) (read : Value → Except DeserializeError Field)
    (seen : Option Field) (value : Value) : Except DeserializeError (Option Field) :=
  match seen with
  | some _ => .error (.duplicateField name)
  | none => some <$> read value

/-- One turn of the derived visitor: unknown fields are ignored. -/
def visitEntry (fields : PartialDto) : String × Value → Except DeserializeError PartialDto
  | ("publicKey", value) => do
      return { fields with
        publicKey := ← readOnce "publicKey" Value.asString fields.publicKey value }
  | ("alias", value) => do
      return { fields with «alias» := ← readOnce "alias" Value.asString fields.alias value }
  | ("capacity", value) => do
      return { fields with
        capacity := ← readOnce "capacity" Value.asInt64 fields.capacity value }
  | ("firstSeen", value) => do
      return { fields with
        firstSeen := ← readOnce "firstSeen" Value.asInt64 fields.firstSeen value }
  | _ => .ok fields

def visitEntries : PartialDto → List (String × Value) → Except DeserializeError PartialDto
  | fields, [] => .ok fields
  | fields, entry :: entries => do visitEntries (← visitEntry fields entry) entries

def requireField {Field : Type} (name : String) : Option Field → Except DeserializeError Field
  | some field => .ok field
  | none => .error (.missingField name)

/-- `visit_map`: every field must occur once. -/
def visitMap (entries : List (String × Value)) : Except DeserializeError MempoolNodeDto := do
  let fields ← visitEntries {} entries
  let publicKey ← requireField "publicKey" fields.publicKey
  let «alias» ← requireField "alias" fields.alias
  let capacity ← requireField "capacity" fields.capacity
  let firstSeen ← requireField "firstSeen" fields.firstSeen
  return { publicKey, «alias», capacity, firstSeen }

def nextElement {Field : Type} (position : Nat) (read : Value → Except DeserializeError Field) :
    List Value → Except DeserializeError (Field × List Value)
  | [] => .error (.invalidLength position)
  | element :: elements => do return (← read element, elements)

/-- `visit_seq`: an array is read as the fields in declaration order and must
not have an element left over. -/
def visitSeq (elements : List Value) : Except DeserializeError MempoolNodeDto := do
  let (publicKey, rest) ← nextElement 0 Value.asString elements
  let («alias», rest) ← nextElement 1 Value.asString rest
  let (capacity, rest) ← nextElement 2 Value.asInt64 rest
  let (firstSeen, rest) ← nextElement 3 Value.asInt64 rest
  if rest.isEmpty then
    return { publicKey, «alias», capacity, firstSeen }
  else
    .error (.invalidLength elements.length)

def fromValue : Value → Except DeserializeError MempoolNodeDto
  | .array elements => visitSeq elements
  | .object entries => visitMap entries
  | _ => .error .invalidType

/-!
## Validation
-/

def capacityFromWire (capacity : Int64) : Except ValidationError UInt64 :=
  if 0 ≤ capacity.toInt then
    .ok (UInt64.ofNat capacity.toInt.toNat)
  else
    .error (.negativeCapacity capacity)

/-- `TryFrom<MempoolNodeDto> for Node`. -/
def MempoolNodeDto.toNode (dto : MempoolNodeDto) : Except ValidationError Node := do
  if dto.publicKey.isEmpty then
    .error .emptyPublicKey
  else
    let capacitySats ← capacityFromWire dto.capacity
    let firstSeen ← (Domain.timestampFromUnix dto.firstSeen).mapError
      fun _ => .invalidFirstSeen dto.firstSeen
    return { publicKey := dto.publicKey, «alias» := dto.alias, capacitySats, firstSeen }

/-- What one element of the body contributes: malformed and invalid records
are skipped. -/
def parseRecord (record : Value) : Option Node :=
  match fromValue record with
  | .error _ => none
  | .ok dto =>
      match dto.toNode with
      | .ok node => some node
      | .error _ => none

/-- Turns the raw JSON records into validated nodes, preserving order. -/
def parseRecords (records : List Value) : List Node :=
  records.filterMap parseRecord

end BipaNodes.Source
