import BipaNodes.Http.Router
import BipaNodes.Lib.JsonRender

/-!
# Bodies in bytes

How `serde_json` writes what the handlers return: compact, the fields of a
struct in the order of their declaration, strings with the escapes they need.
-/

set_option autoImplicit false

namespace BipaNodes.Http

/-!
## Derived serialization
-/

/-- The escape table of `serde_json`. Other characters stand for themselves. -/
def escape (char : Char) : Json.Item :=
  if char = '"' then .escape '"'
  else if char = '\\' then .escape '\\'
  else if char = Char.ofNat 8 then .escape 'b'
  else if char = '\t' then .escape 't'
  else if char = '\n' then .escape 'n'
  else if char = Char.ofNat 12 then .escape 'f'
  else if char = '\r' then .escape 'r'
  else if char.toNat < 32 then .unicode char.toNat
  else .plain char

def escaped (text : String) : List Json.Item := text.toList.map escape

/-- A struct, or a map, whose values are strings. -/
def stringMap (fields : List (String × String)) : Json :=
  .object (fields.map fun field => (escaped field.1, .string (escaped field.2)))

def NodeResponse.fields (response : NodeResponse) : List (String × String) :=
  [("public_key", response.publicKey), ("alias", response.alias),
    ("capacity", response.capacity), ("first_seen", response.firstSeen)]

def NodeResponse.toJson (response : NodeResponse) : Json := stringMap response.fields

def ErrorBody.toJson (body : ErrorBody) : Json := stringMap [("error", body.error)]

def Body.toJson : Body → Json
  | .nodes elements => .array (elements.map NodeResponse.toJson)
  | .error body => body.toJson

/-!
## Answers
-/

def utf8 (text : List Char) : List UInt8 := (String.ofList text).toByteArray.data.toList

def Body.bytes (body : Body) : List UInt8 := utf8 body.toJson.render

def Content.bytes : Content → List UInt8
  | .empty => []
  | .body shape => shape.bytes
  | .status text => utf8 (stringMap [("status", text)]).render

end BipaNodes.Http
