import BipaNodes.Lib.Json
import BipaNodes.Source.Json
import Mathlib.Algebra.Group.Nat.Defs

/-!
# Bodies as JSON

The bodies that are JSON arrays, and what `serde_json` makes of them. It reads
the whole grammar up to limits on numbers, strings and nesting.
-/

set_option autoImplicit false

namespace BipaNodes.Source

/-- The body is, in UTF-8, the text of a JSON array. -/
def ArrayBody (body : List UInt8) (elements : List Json) : Prop :=
  ∃ text : String, ByteArray.mk body.toArray = text.toByteArray ∧
    Json.IsText (.array elements) text.toList

/-!
## Limits
-/

def IsLeading (unit : Nat) : Prop := 0xd800 ≤ unit ∧ unit ≤ 0xdbff

instance (unit : Nat) : Decidable (IsLeading unit) := inferInstanceAs (Decidable (_ ∧ _))

def IsTrailing (unit : Nat) : Prop := 0xdc00 ≤ unit ∧ unit ≤ 0xdfff

instance (unit : Nat) : Decidable (IsTrailing unit) := inferInstanceAs (Decidable (_ ∧ _))

/-- The surrogates among the escapes of a string come in pairs. -/
inductive Paired : List Json.Item → Prop where
  | nil : Paired []
  | plain {char : Char} {items : List Json.Item} : Paired items → Paired (.plain char :: items)
  | escape {char : Char} {items : List Json.Item} : Paired items → Paired (.escape char :: items)
  | unicode {unit : Nat} {items : List Json.Item} : ¬ IsLeading unit → ¬ IsTrailing unit →
      Paired items → Paired (.unicode unit :: items)
  | pair {leading trailing : Nat} {items : List Json.Item} : IsLeading leading →
      IsTrailing trailing → Paired items →
      Paired (.unicode leading :: .unicode trailing :: items)

/-- The nesting counter of the reader, which must not come down to zero. -/
def recursionLimit : Nat := 128

/-- The values that are read with this much left of the nesting counter. -/
inductive Readable (outOfRange : Json.Literal → Prop) : Nat → Json → Prop where
  | null {remaining : Nat} : Readable outOfRange remaining .null
  | bool {remaining : Nat} {value : Bool} : Readable outOfRange remaining (.bool value)
  | number {remaining : Nat} {literal : Json.Literal} : ¬ outOfRange literal →
      Readable outOfRange remaining (.number literal)
  | string {remaining : Nat} {items : List Json.Item} : Paired items →
      Readable outOfRange remaining (.string items)
  | array {remaining : Nat} {elements : List Json} : 2 ≤ remaining →
      (∀ element ∈ elements, Readable outOfRange (remaining - 1) element) →
      Readable outOfRange remaining (.array elements)
  | object {remaining : Nat} {members : List (List Json.Item × Json)} : 2 ≤ remaining →
      (∀ member ∈ members, Paired member.1) →
      (∀ member ∈ members, Readable outOfRange (remaining - 1) member.2) →
      Readable outOfRange remaining (.object members)

/-- `serde_json::from_slice` for a vector of generic values: how it decodes
bodies, how it reads one element once the body array is entered, and which number
literals are out of range for it. -/
structure SerdeJson (decode : List UInt8 → Except String (List Value))
    (read : Json → Option Value) (outOfRange : Json.Literal → Prop) : Prop where
  readable : ∀ element, (∃ value, read element = some value) ↔
    Readable outOfRange (recursionLimit - 1) element
  array : ∀ body elements values, ArrayBody body elements →
    List.Forall₂ (fun element value => read element = some value) elements values →
    decode body = .ok values
  unreadable : ∀ body elements element, ArrayBody body elements → element ∈ elements →
    read element = none → ∃ reason, decode body = .error reason
  notArray : ∀ body, (∀ elements, ¬ ArrayBody body elements) →
    ∃ reason, decode body = .error reason

/-!
## A decoder within the limits
-/

/-- Half a unit in the last place above the largest finite number, where rounding
to the nearest leads to infinity. -/
def f64Bound : Nat := 2 ^ 1024 - 2 ^ 970

/-- The literals that round to infinity. `serde_json` multiplies significand and
power of ten in floating point, which comes out otherwise close to the bound. -/
def BeyondF64 (literal : Json.Literal) : Prop :=
  let digits := Nat.ofDigitChars 10 (literal.whole ++ literal.fraction) 0
  let exponent := Nat.ofDigitChars 10 literal.exponent 0
  if literal.exponentNegative then
    f64Bound * 10 ^ (literal.fraction.length + exponent) ≤ digits
  else
    f64Bound * 10 ^ literal.fraction.length ≤ digits * 10 ^ exponent

instance (literal : Json.Literal) : Decidable (BeyondF64 literal) :=
  inferInstanceAs (Decidable (ite _ _ _))

/-- Integers that fit are kept; all else is a float. -/
def readNumber (floatBits : Json.Literal → UInt64) (literal : Json.Literal) : Number :=
  let value := Nat.ofDigitChars 10 literal.whole 0
  if literal.fraction = [] ∧ literal.exponent = [] then
    if literal.negative = false ∧ value < 2 ^ 64 then .posInt (UInt64.ofNat value)
    else if literal.negative = true ∧ 0 < value ∧ value ≤ 2 ^ 63 then .negInt (Int64.ofInt (-value))
    else .float (floatBits literal)
  else .float (floatBits literal)

def unescape (char : Char) : Char :=
  match char with
  | 'b' => Char.ofNat 8
  | 'f' => Char.ofNat 12
  | 'n' => '\n'
  | 'r' => '\r'
  | 't' => '\t'
  | char => char

def readItems : List Json.Item → Option (List Char)
  | [] => some []
  | .plain char :: items => (readItems items).map (char :: ·)
  | .escape char :: items => (readItems items).map (unescape char :: ·)
  | .unicode leading :: .unicode trailing :: items =>
      if IsLeading leading then
        if IsTrailing trailing then
          (readItems items).map
            (Char.ofNat (0x10000 + (leading - 0xd800) * 0x400 + (trailing - 0xdc00)) :: ·)
        else none
      else if IsTrailing leading then none
      else (readItems (.unicode trailing :: items)).map (Char.ofNat leading :: ·)
  | .unicode unit :: items =>
      if IsLeading unit ∨ IsTrailing unit then none
      else (readItems items).map (Char.ofNat unit :: ·)

/-- The map of an object is sorted by its keys. What a later member has set
under the key stays. -/
def addEntry (key : String) (value : Value) : List (String × Value) → List (String × Value)
  | [] => [(key, value)]
  | entry :: entries =>
      if entry.1 = key then entry :: entries
      else if key < entry.1 then (key, value) :: entry :: entries
      else entry :: addEntry key value entries

mutual

def readValue (floatBits : Json.Literal → UInt64) (remaining : Nat) : Json → Option Value
  | .null => some .null
  | .bool value => some (.bool value)
  | .number literal =>
      if BeyondF64 literal then none else some (.number (readNumber floatBits literal))
  | .string items => (readItems items).map fun chars => .string (String.ofList chars)
  | .array elements =>
      if 2 ≤ remaining then (readElements floatBits (remaining - 1) elements).map .array else none
  | .object members =>
      if 2 ≤ remaining then (readMembers floatBits (remaining - 1) members).map .object else none

def readElements (floatBits : Json.Literal → UInt64) (remaining : Nat) :
    List Json → Option (List Value)
  | [] => some []
  | element :: elements => do
      let value ← readValue floatBits remaining element
      let values ← readElements floatBits remaining elements
      some (value :: values)

def readMembers (floatBits : Json.Literal → UInt64) (remaining : Nat) :
    List (List Json.Item × Json) → Option (List (String × Value))
  | [] => some []
  | (name, json) :: members => do
      let key ← readItems name
      let value ← readValue floatBits remaining json
      let entries ← readMembers floatBits remaining members
      some (addEntry (String.ofList key) value entries)

end

/-- Parses the body and reads the elements of the array. -/
def decodeArray (floatBits : Json.Literal → UInt64) (body : List UInt8) :
    Except String (List Value) :=
  match String.fromUTF8? ⟨body.toArray⟩ with
  | none => .error "invalid unicode code point"
  | some text =>
      match Json.parse text.toList with
      | some (.array elements) =>
          match readElements floatBits (recursionLimit - 1) elements with
          | some values => .ok values
          | none => .error "number out of range, recursion limit exceeded or lone surrogate"
      | _ => .error "expected a JSON array"

end BipaNodes.Source
