import BipaNodes.Domain.FormatProperties
import BipaNodes.Domain.TimestampProperties
import BipaNodes.Http.Serialize
import BipaNodes.Source.DecodeProperties

/-!
# Reading the bodies back

A client that knows JSON and the two formats recovers the nodes of a listing
from its bytes.
-/

set_option autoImplicit false

namespace BipaNodes.Http

open Domain (Node)
open Source (ArrayBody JsonBody readItems unescape)

/-!
## Strings
-/

theorem escape_cases (char : Char) :
    (∃ mark ∈ ['"', '\\', '/', 'b', 'f', 'n', 'r', 't'], escape char = .escape mark ∧
      unescape mark = char) ∨
    (escape char = .unicode char.toNat ∧ char.toNat < 32) ∨
    (escape char = .plain char ∧ 32 ≤ char.toNat ∧ char ≠ '"' ∧ char ≠ '\\') := by
  unfold escape
  split_ifs with quote backslash backspace tab newline formFeed carriage control
  · exact .inl ⟨'"', by decide, rfl, quote.symm⟩
  · exact .inl ⟨'\\', by decide, rfl, backslash.symm⟩
  · exact .inl ⟨'b', by decide, rfl, backspace.symm⟩
  · exact .inl ⟨'t', by decide, rfl, tab.symm⟩
  · exact .inl ⟨'n', by decide, rfl, newline.symm⟩
  · exact .inl ⟨'f', by decide, rfl, formFeed.symm⟩
  · exact .inl ⟨'r', by decide, rfl, carriage.symm⟩
  · exact .inr (.inl ⟨rfl, control⟩)
  · exact .inr (.inr ⟨rfl, Nat.le_of_not_lt control, quote, backslash⟩)

theorem readItems_unicode {unit : Nat} (below : unit < 0xd800) (items : List Json.Item) :
    readItems (.unicode unit :: items) = (readItems items).map (Char.ofNat unit :: ·) := by
  have notLeading : ¬ Source.IsLeading unit := by unfold Source.IsLeading; omega
  have notTrailing : ¬ Source.IsTrailing unit := by unfold Source.IsTrailing; omega
  cases items with
  | nil => simp [readItems, notLeading, notTrailing]
  | cons item items => cases item <;> simp [readItems, notLeading, notTrailing]

theorem readItems_escape (char : Char) (items : List Json.Item) :
    readItems (escape char :: items) = (readItems items).map (char :: ·) := by
  rcases escape_cases char with marked | control | plain
  · obtain ⟨mark, _, same, back⟩ := marked
    rw [same, readItems, back]
  · obtain ⟨same, below⟩ := control
    rw [same, readItems_unicode (by omega), Char.ofNat_toNat]
  · rw [plain.1, readItems]

theorem readItems_escaped (text : String) : readItems (escaped text) = some text.toList := by
  unfold escaped
  induction text.toList with
  | nil => rfl
  | cons char chars ih => rw [List.map_cons, readItems_escape, ih, Option.map_some]

theorem valid_escape (char : Char) : (escape char).Valid := by
  rcases escape_cases char with marked | control | plain
  · obtain ⟨mark, member, same, _⟩ := marked
    rw [same]
    exact member
  · obtain ⟨same, below⟩ := control
    rw [same]
    exact Nat.lt_trans below (by decide)
  · rw [plain.1]
    exact plain.2

theorem valid_escaped (text : String) : ∀ item ∈ escaped text, item.Valid := by
  intro item member
  obtain ⟨char, _, rfl⟩ := List.mem_map.mp member
  exact valid_escape char

/-!
## Objects
-/

theorem valid_stringMap (fields : List (String × String)) : (stringMap fields).Valid := by
  refine .object ?_ ?_
  · intro member mem
    obtain ⟨field, _, rfl⟩ := List.mem_map.mp mem
    exact valid_escaped field.1
  · intro member mem
    obtain ⟨field, _, rfl⟩ := List.mem_map.mp mem
    exact .string (valid_escaped field.2)

theorem valid_toJson (body : Body) : body.toJson.Valid := by
  cases body with
  | nodes elements =>
      refine .array ?_
      intro element member
      obtain ⟨response, _, rfl⟩ := List.mem_map.mp member
      exact valid_stringMap response.fields
  | error body => exact valid_stringMap _

theorem mapM_map_eq_some {Source Middle Target : Type} {read : Middle → Option Target}
    {write : Source → Middle} {result : Source → Target} {sources : List Source}
    (readsBack : ∀ source ∈ sources, read (write source) = some (result source)) :
    (sources.map write).mapM read = some (sources.map result) := by
  induction sources with
  | nil => rfl
  | cons source sources ih =>
      obtain ⟨head, tail⟩ := List.forall_mem_cons.mp readsBack
      rw [List.map_cons, List.mapM_cons, head, ih tail]
      rfl

def readField (member : List Json.Item × Json) : Option (String × String) :=
  match member.2 with
  | .string items => do
      return (String.ofList (← readItems member.1), String.ofList (← readItems items))
  | _ => none

/-- The fields of an object whose values are all strings. -/
def readStrings : Json → Option (List (String × String))
  | .object members => members.mapM readField
  | _ => none

theorem readStrings_stringMap (fields : List (String × String)) :
    readStrings (stringMap fields) = some fields := by
  have readsBack : ∀ field ∈ fields,
      readField (escaped field.1, .string (escaped field.2)) = some (id field) := by
    intro field _
    simp [readField, readItems_escaped]
  rw [stringMap, readStrings, mapM_map_eq_some readsBack, List.map_id]

/-!
## Listings
-/

/-- What a client makes of a node: the amount in satoshis and the second since
1970. -/
structure Listing where
  publicKey : String
  «alias» : String
  sats : Nat
  seconds : Int
  deriving DecidableEq, Repr

def Listing.ofNode (node : Node) : Listing where
  publicKey := node.publicKey
  «alias» := node.alias
  sats := node.capacitySats.toNat
  seconds := node.firstSeen.secs

/-- Fields are taken by name, so their order does not matter. -/
def readListing (json : Json) : Option Listing := do
  let fields ← readStrings json
  let publicKey ← fields.lookup "public_key"
  let «alias» ← fields.lookup "alias"
  let capacity ← fields.lookup "capacity"
  let firstSeen ← fields.lookup "first_seen"
  let seconds ← Gregorian.readDateTime firstSeen
  return { publicKey, «alias», sats := Domain.decodeBtc capacity, seconds }

def readListings (body : List UInt8) : Option (List Listing) := do
  let text ← String.fromUTF8? ⟨body.toArray⟩
  match ← Json.parse text.toList with
  | .array elements => elements.mapM readListing
  | _ => none

/-- A whole second of a year with four digits. -/
def Dated (node : Node) : Prop :=
  node.firstSeen.nanos = 0 ∧ -62167219200 ≤ node.firstSeen.secs ∧
    node.firstSeen.secs ≤ 253402300799

theorem Dated.readDateTime {node : Node} (dated : Dated node) :
    Gregorian.readDateTime (Domain.formatTimestamp node.firstSeen) = some node.firstSeen.secs := by
  have startYear : Gregorian.daysToYear 0 = -719528 := by decide
  have endYear : Gregorian.daysToYear 10000 = 2932897 := by decide
  obtain ⟨wholeSecond, lower, upper⟩ := dated
  exact Domain.readDateTime_formatTimestamp wholeSecond (by omega) (by omega)

theorem readListing_ofNode {node : Node} (dated : Dated node) :
    readListing (NodeResponse.ofNode node).toJson = some (Listing.ofNode node) := by
  let response := NodeResponse.ofNode node
  have publicKey : response.fields.lookup "public_key" = some node.publicKey := rfl
  have aliasField : response.fields.lookup "alias" = some node.alias := rfl
  have capacity : response.fields.lookup "capacity" = some (Domain.formatBtc node.capacitySats) :=
    rfl
  have firstSeen : response.fields.lookup "first_seen" =
      some (Domain.formatTimestamp node.firstSeen) := rfl
  change readListing response.toJson = _
  simp only [readListing, NodeResponse.toJson, readStrings_stringMap, Option.bind_eq_bind,
    Option.bind_some, publicKey, aliasField, capacity, firstSeen, dated.readDateTime,
    Domain.decodeBtc_formatBtc]
  rfl

theorem fields_injective : Function.Injective NodeResponse.fields := by
  intro left right same
  cases left
  cases right
  simpa [NodeResponse.fields] using same

theorem toJson_injective : Function.Injective NodeResponse.toJson := by
  intro left right same
  have fields := congrArg readStrings same
  rw [NodeResponse.toJson, NodeResponse.toJson, readStrings_stringMap,
    readStrings_stringMap] at fields
  exact fields_injective (Option.some.inj fields)

theorem ofNode_injective {left right : Node} (leftWhole : left.firstSeen.nanos = 0)
    (rightWhole : right.firstSeen.nanos = 0)
    (same : NodeResponse.ofNode left = NodeResponse.ofNode right) : left = right := by
  obtain ⟨leftKey, leftAlias, leftSats, leftSeen⟩ := left
  obtain ⟨rightKey, rightAlias, rightSats, rightSeen⟩ := right
  obtain ⟨rfl, rfl, capacity, firstSeen⟩ := NodeResponse.mk.inj same
  obtain rfl := Domain.formatTimestamp_injective leftWhole rightWhole firstSeen
  have sats := congrArg Domain.decodeBtc capacity
  rw [Domain.decodeBtc_formatBtc, Domain.decodeBtc_formatBtc] at sats
  obtain rfl := UInt64.toNat_inj.mp sats
  rfl

/-!
## Bytes
-/

/-- A body has one reading as JSON. -/
theorem jsonBody_bytes (body : Body) {json : Json} :
    JsonBody body.bytes json ↔ json = body.toJson := by
  have rendered : JsonBody body.bytes body.toJson := by
    refine ⟨String.ofList body.toJson.render, ?_, ?_⟩
    · rw [Body.bytes, utf8, Array.toArray_toList]
    · rw [String.toList_ofList]
      exact Json.isText_render (valid_toJson body)
  constructor
  · intro isText
    exact isText.unique rendered
  · intro same
    rw [same]
    exact rendered

theorem readListings_of_arrayBody {body : List UInt8} {elements : List Json}
    (isArray : ArrayBody body elements) : readListings body = elements.mapM readListing := by
  obtain ⟨text, encoded, isText⟩ := isArray
  rw [readListings, Result.fromUTF8?_eq_some.mpr encoded, Option.bind_eq_bind, Option.bind_some,
    Json.parse_eq_some.mpr isText, Option.bind_eq_bind, Option.bind_some]

theorem not_arrayBody_error (body : ErrorBody) (elements : List Json) :
    ¬ ArrayBody (Body.bytes (.error body)) elements := by
  intro isArray
  cases (jsonBody_bytes (.error body)).mp (Source.arrayBody_iff_jsonBody.mp isArray)

def WholeSeconds (nodes : List Node) : Prop := ∀ node ∈ nodes, node.firstSeen.nanos = 0

theorem map_ofNode_injective {left right : List Node} (leftWhole : WholeSeconds left)
    (rightWhole : WholeSeconds right)
    (same : left.map NodeResponse.ofNode = right.map NodeResponse.ofNode) : left = right := by
  induction left generalizing right with
  | nil => exact (List.map_eq_nil_iff.mp same.symm).symm
  | cons node nodes ih =>
      cases right with
      | nil => cases same
      | cons other others =>
          obtain ⟨head, tail⟩ := List.cons.inj same
          obtain ⟨nodeWhole, nodesWhole⟩ := List.forall_mem_cons.mp leftWhole
          obtain ⟨otherWhole, othersWhole⟩ := List.forall_mem_cons.mp rightWhole
          rw [ofNode_injective nodeWhole otherWhole head, ih nodesWhole othersWhole tail]

/-- The bytes that `GET /nodes` sends for a listing. -/
def listingBytes (nodes : List Node) : List UInt8 := (listNodes (.ok nodes)).body.bytes

theorem jsonBody_listingBytes {nodes : List Node} {json : Json} :
    JsonBody (listingBytes nodes) json ↔
      json = .array ((nodes.map NodeResponse.ofNode).map NodeResponse.toJson) :=
  jsonBody_bytes (.nodes (nodes.map NodeResponse.ofNode))

theorem arrayBody_listingBytes {nodes : List Node} {elements : List Json} :
    ArrayBody (listingBytes nodes) elements ↔
      elements = (nodes.map NodeResponse.ofNode).map NodeResponse.toJson := by
  rw [Source.arrayBody_iff_jsonBody, jsonBody_listingBytes, Json.array.injEq]

theorem readListings_listingBytes {nodes : List Node} (dated : ∀ node ∈ nodes, Dated node) :
    readListings (listingBytes nodes) = some (nodes.map Listing.ofNode) := by
  rw [readListings_of_arrayBody (arrayBody_listingBytes.mpr rfl), List.map_map]
  exact mapM_map_eq_some fun node member => readListing_ofNode (dated node member)

theorem listingBytes_injective {left right : List Node} (leftWhole : WholeSeconds left)
    (rightWhole : WholeSeconds right) (same : listingBytes left = listingBytes right) :
    left = right := by
  have leftArray := arrayBody_listingBytes.mpr (rfl :
    (left.map NodeResponse.ofNode).map NodeResponse.toJson = _)
  rw [same] at leftArray
  have elements := arrayBody_listingBytes.mp leftArray
  exact map_ofNode_injective leftWhole rightWhole (List.map_injective_iff.mpr toJson_injective
    elements)

/-- A listing has one reading, which gives every node back. Listings that differ
do so in their bytes, and a failure is never read as a listing. -/
theorem listing_bytes_read_back (nodes : List Node) :
    (∀ json, JsonBody (listingBytes nodes) json ↔
      json = .array ((nodes.map NodeResponse.ofNode).map NodeResponse.toJson)) ∧
    (∀ elements, ArrayBody (listingBytes nodes) elements ↔
      elements = (nodes.map NodeResponse.ofNode).map NodeResponse.toJson) ∧
    ((∀ node ∈ nodes, Dated node) →
      readListings (listingBytes nodes) = some (nodes.map Listing.ofNode)) ∧
    (∀ others, WholeSeconds nodes → WholeSeconds others →
      (listingBytes nodes = listingBytes others ↔ nodes = others)) ∧
    ∀ error elements, ¬ ArrayBody (listNodes (.error error)).body.bytes elements := by
  refine ⟨fun _ => jsonBody_listingBytes, fun _ => arrayBody_listingBytes,
    readListings_listingBytes, ?_, ?_⟩
  · intro others whole othersWhole
    exact ⟨listingBytes_injective whole othersWhole, congrArg listingBytes⟩
  · intro error elements
    exact not_arrayBody_error _ elements

/-- Only a listing that is there in time is answered with 200. -/
theorem router_success {elapsed after : Nanos}
    {result : Except Storage.StorageError (List Node)} {log : List LogEntry} {answer : Answer}
    (shown : router { method := .get, path := "/nodes" } (.ends elapsed (.returned result)) =
      .answers after log answer) (success : answer.status = 200) :
    ∃ nodes, result = .ok nodes ∧ answer.content.bytes = listingBytes nodes := by
  have routed : route { method := .get, path := "/nodes" } (.ends elapsed (.returned result)) =
      .answers elapsed (failureLog result) (listNodes result).intoAnswer := rfl
  rw [router, routed, catchPanic, timeout] at shown
  split at shown
  · next inner =>
      cases shown
      split at inner
      · cases inner
        cases result with
        | ok nodes => exact ⟨nodes, rfl, rfl⟩
        | error error => cases success
      · cases inner
        cases success
  · cases shown
  · cases shown

end BipaNodes.Http
