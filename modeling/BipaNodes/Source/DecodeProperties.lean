import BipaNodes.Lib.JsonProperties
import BipaNodes.Source.Decode
import BipaNodes.Source.DtoProperties
import BipaNodes.Source.Mempool

/-!
# Which bodies fail as a whole

An element beyond the limits of `serde_json` takes the other elements with it.
-/

set_option autoImplicit false

namespace BipaNodes.Source

/-!
## Reading one element
-/

theorem readItems_isSome (items : List Json.Item) :
    (readItems items).isSome = true ↔ Paired items := by
  constructor
  · intro read
    fun_induction readItems items with
    | case1 => exact .nil
    | case2 char items ih => exact .plain (ih (by simpa using read))
    | case3 char items ih => exact .escape (ih (by simpa using read))
    | case4 leading trailing items isLeading isTrailing ih =>
        exact .pair isLeading isTrailing (ih (by simpa using read))
    | case5 => cases read
    | case6 => cases read
    | case7 leading trailing items notLeading notTrailing ih =>
        exact .unicode notLeading notTrailing (ih (by simpa using read))
    | case8 => cases read
    | case9 unit items _ notSurrogate ih =>
        obtain ⟨notLeading, notTrailing⟩ := not_or.mp notSurrogate
        exact .unicode notLeading notTrailing (ih (by simpa using read))
  · intro paired
    induction paired with
    | nil => rfl
    | plain _ ih | escape _ ih => simpa [readItems] using ih
    | @unicode unit items notLeading notTrailing _ ih =>
        cases items with
        | nil => simp [readItems, notLeading, notTrailing]
        | cons item items =>
            cases item with
            | plain | escape | unicode => simpa [readItems, notLeading, notTrailing] using ih
    | pair isLeading isTrailing _ ih => simpa [readItems, isLeading, isTrailing] using ih

mutual

theorem readValue_isSome (floatBits : Json.Literal → UInt64) (remaining : Nat) (json : Json) :
    (readValue floatBits remaining json).isSome = true ↔ Readable BeyondF64 remaining json := by
  cases json with
  | null => exact iff_of_true rfl .null
  | bool => exact iff_of_true rfl .bool
  | number literal =>
      rw [readValue]
      split
      · next beyond =>
          refine iff_of_false nofun ?_
          intro readable
          cases readable with
          | number within => exact within beyond
      · next within => exact iff_of_true rfl (.number within)
  | string items =>
      rw [readValue, Option.isSome_map, readItems_isSome]
      constructor
      · exact .string
      · intro readable
        cases readable with
        | string paired => exact paired
  | array elements =>
      rw [readValue]
      split
      · next enough =>
          rw [Option.isSome_map, readElements_isSome floatBits (remaining - 1) elements]
          constructor
          · exact .array enough
          · intro readable
            cases readable with
            | array _ elements => exact elements
      · next exhausted =>
          refine iff_of_false nofun ?_
          intro readable
          cases readable with
          | array enough => exact exhausted enough
  | object members =>
      rw [readValue]
      split
      · next enough =>
          rw [Option.isSome_map, readMembers_isSome floatBits (remaining - 1) members]
          constructor
          · intro readable
            exact .object enough (fun member mem => (readable member mem).1)
              fun member mem => (readable member mem).2
          · intro readable member mem
            cases readable with
            | object _ names values => exact ⟨names member mem, values member mem⟩
      · next exhausted =>
          refine iff_of_false nofun ?_
          intro readable
          cases readable with
          | object enough => exact exhausted enough

theorem readElements_isSome (floatBits : Json.Literal → UInt64) (remaining : Nat)
    (elements : List Json) :
    (readElements floatBits remaining elements).isSome = true ↔
      ∀ element ∈ elements, Readable BeyondF64 remaining element := by
  cases elements with
  | nil => exact iff_of_true rfl nofun
  | cons element elements =>
      rw [List.forall_mem_cons, ← readValue_isSome floatBits remaining element,
        ← readElements_isSome floatBits remaining elements, readElements]
      cases readValue floatBits remaining element <;>
        cases readElements floatBits remaining elements <;> simp

theorem readMembers_isSome (floatBits : Json.Literal → UInt64) (remaining : Nat)
    (members : List (List Json.Item × Json)) :
    (readMembers floatBits remaining members).isSome = true ↔
      ∀ member ∈ members, Paired member.1 ∧ Readable BeyondF64 remaining member.2 := by
  cases members with
  | nil => exact iff_of_true rfl nofun
  | cons member members =>
      obtain ⟨name, json⟩ := member
      rw [List.forall_mem_cons, ← readItems_isSome, ← readValue_isSome floatBits remaining json,
        ← readMembers_isSome floatBits remaining members, readMembers]
      cases readItems name <;> cases readValue floatBits remaining json <;>
        cases readMembers floatBits remaining members <;> simp

end

theorem readElements_eq_some {floatBits : Json.Literal → UInt64} {remaining : Nat}
    {elements : List Json} {values : List Value}
    (read : List.Forall₂ (fun element value => readValue floatBits remaining element = some value)
      elements values) : readElements floatBits remaining elements = some values := by
  induction read with
  | nil => rfl
  | cons head _ ih => rw [readElements, head, ih]; rfl

/-!
## Reading bodies
-/

/-- The body is, in UTF-8, a text of the JSON value. -/
def JsonBody (body : List UInt8) (json : Json) : Prop :=
  ∃ text : String, ByteArray.mk body.toArray = text.toByteArray ∧ Json.IsText json text.toList

theorem arrayBody_iff_jsonBody {body : List UInt8} {elements : List Json} :
    ArrayBody body elements ↔ JsonBody body (.array elements) := Iff.rfl

theorem JsonBody.unique {body : List UInt8} {left right : Json} (leftBody : JsonBody body left)
    (rightBody : JsonBody body right) : left = right := by
  obtain ⟨text, encoded, isText⟩ := leftBody
  obtain ⟨other, otherEncoded, otherText⟩ := rightBody
  obtain rfl := String.toByteArray_inj.mp (encoded.symm.trans otherEncoded)
  exact isText.unique otherText

theorem ArrayBody.unique {body : List UInt8} {left right : List Json}
    (leftBody : ArrayBody body left) (rightBody : ArrayBody body right) : left = right :=
  Json.array.inj (JsonBody.unique (arrayBody_iff_jsonBody.mp leftBody)
    (arrayBody_iff_jsonBody.mp rightBody))

theorem decodeArray_eq {floatBits : Json.Literal → UInt64} {body : List UInt8}
    {elements : List Json} (isArray : ArrayBody body elements) :
    decodeArray floatBits body =
      match readElements floatBits (recursionLimit - 1) elements with
      | some values => .ok values
      | none => .error "number out of range, recursion limit exceeded or lone surrogate" := by
  obtain ⟨text, encoded, isText⟩ := isArray
  have decoded := Result.fromUTF8?_eq_some.mpr encoded
  have parsed := Json.parse_eq_some.mpr isText
  cases read : readElements floatBits (recursionLimit - 1) elements with
  | none => simp only [decodeArray, decoded, parsed, read]
  | some values => simp only [decodeArray, decoded, parsed, read]

/-- The decoder reads bodies as the real one is documented to. -/
theorem serdeJson_decodeArray (floatBits : Json.Literal → UInt64) :
    SerdeJson (decodeArray floatBits) (readValue floatBits (recursionLimit - 1)) BeyondF64 where
  readable := by
    intro element
    rw [← Option.isSome_iff_exists]
    exact readValue_isSome floatBits (recursionLimit - 1) element
  array := by
    intro body elements values isArray read
    rw [decodeArray_eq isArray, readElements_eq_some read]
  unreadable := by
    intro body elements element isArray member unread
    have notAll : readElements floatBits (recursionLimit - 1) elements = none := by
      rw [← Option.not_isSome_iff_eq_none, readElements_isSome]
      intro readable
      have isSome := (readValue_isSome floatBits _ element).mpr (readable element member)
      rw [unread] at isSome
      cases isSome
    rw [decodeArray_eq isArray, notAll]
    exact ⟨_, rfl⟩
  notArray := by
    intro body noArray
    unfold decodeArray
    split
    · exact ⟨_, rfl⟩
    · next text decoded =>
        split
        · next elements parsed =>
            exact absurd ⟨text, Result.fromUTF8?_eq_some.mp decoded, Json.parse_eq_some.mp parsed⟩
              (noArray elements)
        · exact ⟨_, rfl⟩

/-!
## Failing as a whole
-/

/-- A successful response with this body fails to decode exactly when the body
is not a JSON array. -/
def FailsOnlyForNonArrays (decode : List UInt8 → Except String (List Value))
    (body : List UInt8) : Prop :=
  ∀ response : HttpResponse, response.isSuccess = true → response.body = .ok body →
    ((∃ reason, fetchNodes decode (.ok response) = .error (.decode reason)) ↔
      ¬∃ elements, ArrayBody body elements)

/-- The nodes that a fetch of the body yields from the elements other than the
one at `position`. -/
def othersNodes (decode : List UInt8 → Except String (List Value)) (position : Nat)
    (body : List UInt8) : List Domain.Node :=
  match decode body with
  | .ok records => parseRecords (records.eraseIdx position)
  | .error _ => []

theorem fetchNodes_success (decode : List UInt8 → Except String (List Value)) {body : List UInt8}
    {response : HttpResponse} (success : response.isSuccess = true)
    (received : response.body = .ok body) :
    fetchNodes decode (.ok response) =
      match decode body with
      | .ok records => .ok (parseRecords records)
      | .error reason => .error (.decode reason) := by
  unfold fetchNodes
  change (if response.isSuccess = true then _ else _) = _
  rw [if_pos success, received]
  change ((decode body).mapError SourceError.decode >>= _) = _
  cases decode body <;> rfl

/-- A fetch yields the nodes of the others, with that of the element among them. -/
theorem fetchNodes_othersNodes {decode : List UInt8 → Except String (List Value)}
    {body : List UInt8} {response : HttpResponse} (success : response.isSuccess = true)
    (received : response.body = .ok body) {before after : List Value} {record : Value}
    (decoded : decode body = .ok (before ++ record :: after)) :
    othersNodes decode before.length body = parseRecords before ++ parseRecords after ∧
      fetchNodes decode (.ok response) =
        .ok (parseRecords before ++ (parseRecord record).toList ++ parseRecords after) := by
  constructor
  · rw [othersNodes, decoded, ← parseRecords_append]
    simp [List.eraseIdx_append_of_length_le]
  · rw [fetchNodes_success decode success received, decoded]
    cases parsed : parseRecord record with
    | none => simp [parseRecords_insert_none parsed, parseRecords_append]
    | some node => simp [parseRecords_insert_some parsed]

section Limits

variable {decode : List UInt8 → Except String (List Value)} {read : Json → Option Value}
  {outOfRange : Json.Literal → Prop}

theorem SerdeJson.reads_all (serde : SerdeJson decode read outOfRange) {elements : List Json}
    (readable : ∀ element ∈ elements, Readable outOfRange (recursionLimit - 1) element) :
    List.Forall₂ (fun element value => read element = some value) elements
      (elements.map fun element => (read element).getD .null) := by
  rw [List.forall₂_map_right_iff, List.forall₂_same]
  intro element member
  obtain ⟨value, isRead⟩ := (serde.readable element).mpr (readable element member)
  rw [isRead]
  rfl

/-- An array is decoded exactly when every element is within the limits. -/
theorem SerdeJson.decode_array (serde : SerdeJson decode read outOfRange) {body : List UInt8}
    {elements : List Json} (isArray : ArrayBody body elements) :
    (∀ element ∈ elements, Readable outOfRange (recursionLimit - 1) element) ∧
        decode body = .ok (elements.map fun element => (read element).getD .null) ∨
      (∃ element ∈ elements, ¬ Readable outOfRange (recursionLimit - 1) element) ∧
        ∃ reason, decode body = .error reason := by
  by_cases readable : ∀ element ∈ elements, Readable outOfRange (recursionLimit - 1) element
  · exact .inl ⟨readable, serde.array body elements _ isArray (serde.reads_all readable)⟩
  · right
    simp only [not_forall] at readable
    obtain ⟨element, member, notReadable⟩ := readable
    have unread : read element = none := by
      rw [Option.eq_none_iff_forall_ne_some]
      intro value isRead
      exact notReadable ((serde.readable element).mp ⟨value, isRead⟩)
    exact ⟨⟨element, member, notReadable⟩,
      serde.unreadable body elements element isArray member unread⟩

theorem fetchNodes_decode_error_iff {body : List UInt8} {response : HttpResponse}
    (success : response.isSuccess = true) (received : response.body = .ok body) :
    (∃ reason, fetchNodes decode (.ok response) = .error (.decode reason)) ↔
      ∃ reason, decode body = .error reason := by
  rw [fetchNodes_success decode success received]
  cases decode body with
  | ok records => exact iff_of_false nofun nofun
  | error reason => exact iff_of_true ⟨reason, rfl⟩ ⟨reason, rfl⟩

theorem SerdeJson.failsOnlyForNonArrays_iff (serde : SerdeJson decode read outOfRange)
    (body : List UInt8) :
    FailsOnlyForNonArrays decode body ↔ ∀ elements, ArrayBody body elements →
      ∀ element ∈ elements, Readable outOfRange (recursionLimit - 1) element := by
  constructor
  · intro failsOnly elements isArray
    rcases serde.decode_array isArray with decoded | failed
    · exact decoded.1
    · obtain ⟨_, failed⟩ := failed
      have fetched := failsOnly { status := 200, body := .ok body } rfl rfl
      rw [fetchNodes_decode_error_iff rfl rfl] at fetched
      exact absurd ⟨elements, isArray⟩ (fetched.mp failed)
  · intro readable response success received
    rw [fetchNodes_decode_error_iff success received]
    constructor
    · intro failed isArray
      obtain ⟨elements, isArray⟩ := isArray
      rcases serde.decode_array isArray with decoded | beyond
      · obtain ⟨reason, failed⟩ := failed
        cases decoded.2.symm.trans failed
      · obtain ⟨⟨element, member, notReadable⟩, _⟩ := beyond
        exact notReadable (readable elements isArray element member)
    · intro noArray
      exact serde.notArray body (not_exists.mp noArray)

/-- The other elements yield all their nodes if every element is within the
limits. -/
theorem SerdeJson.othersNodes_readable (serde : SerdeJson decode read outOfRange)
    {body : List UInt8} {before after : List Json} {element : Json}
    (isArray : ArrayBody body (before ++ element :: after))
    (others : ∀ other ∈ before ++ after, Readable outOfRange (recursionLimit - 1) other)
    (own : Readable outOfRange (recursionLimit - 1) element) :
    othersNodes decode before.length body =
      parseRecords ((before ++ after).map fun other => (read other).getD .null) := by
  rw [List.forall_mem_append] at others
  have readable : ∀ each ∈ before ++ element :: after,
      Readable outOfRange (recursionLimit - 1) each := by
    rw [List.forall_mem_append, List.forall_mem_cons]
    exact ⟨others.1, own, others.2⟩
  rw [othersNodes, serde.array body _ _ isArray (serde.reads_all readable)]
  simp [List.eraseIdx_append_of_length_le]

/-- One element beyond the limits takes them all. -/
theorem SerdeJson.othersNodes_unreadable (serde : SerdeJson decode read outOfRange)
    {body : List UInt8} {elements : List Json} {element : Json} (position : Nat)
    (isArray : ArrayBody body elements) (member : element ∈ elements)
    (beyond : ¬ Readable outOfRange (recursionLimit - 1) element) :
    othersNodes decode position body = [] := by
  rcases serde.decode_array isArray with decoded | failed
  · exact absurd (decoded.1 element member) beyond
  · obtain ⟨_, reason, failed⟩ := failed
    rw [othersNodes, failed]

/-- None of these elements is read as a record. -/
def Fruitless (read : Json → Option Value) (others : List Json) : Prop :=
  ∀ other ∈ others, ∀ value, read other = some value → parseRecord value = none

theorem SerdeJson.parseRecords_eq_nil (serde : SerdeJson decode read outOfRange)
    {others : List Json}
    (readable : ∀ other ∈ others, Readable outOfRange (recursionLimit - 1) other) :
    parseRecords (others.map fun other => (read other).getD .null) = [] ↔
      Fruitless read others := by
  rw [parseRecords, List.filterMap_eq_nil_iff, List.forall_mem_map]
  refine forall₂_congr ?_
  intro other member
  obtain ⟨value, isRead⟩ := (serde.readable other).mpr (readable other member)
  rw [isRead]
  constructor
  · intro skipped read same
    cases same
    exact skipped
  · intro skipped
    exact skipped value rfl

/-- What the others yield changes exactly when the change crosses the limits and
the others, all within them, have something to lose. -/
theorem SerdeJson.othersNodes_unchanged_iff (serde : SerdeJson decode read outOfRange)
    {body changedBody : List UInt8} {before after : List Json} {element changed : Json}
    (isArray : ArrayBody body (before ++ element :: after))
    (changedArray : ArrayBody changedBody (before ++ changed :: after)) :
    othersNodes decode before.length body = othersNodes decode before.length changedBody ↔
      (∃ other ∈ before ++ after, ¬ Readable outOfRange (recursionLimit - 1) other) ∨
        (Readable outOfRange (recursionLimit - 1) element ↔
          Readable outOfRange (recursionLimit - 1) changed) ∨
        Fruitless read (before ++ after) := by
  by_cases others : ∀ other ∈ before ++ after, Readable outOfRange (recursionLimit - 1) other
  · have noneBeyond : ¬∃ other ∈ before ++ after,
        ¬ Readable outOfRange (recursionLimit - 1) other := by
      intro beyond
      obtain ⟨other, member, notReadable⟩ := beyond
      exact notReadable (others other member)
    rw [or_iff_right noneBeyond, ← serde.parseRecords_eq_nil others]
    have elementMember : element ∈ before ++ element :: after := by simp
    have changedMember : changed ∈ before ++ changed :: after := by simp
    by_cases own : Readable outOfRange (recursionLimit - 1) element <;>
      by_cases new : Readable outOfRange (recursionLimit - 1) changed
    · rw [serde.othersNodes_readable isArray others own,
        serde.othersNodes_readable changedArray others new]
      exact iff_of_true rfl (.inl (iff_of_true own new))
    · rw [serde.othersNodes_readable isArray others own,
        serde.othersNodes_unreadable _ changedArray changedMember new,
        or_iff_right fun same => new (same.mp own)]
    · rw [serde.othersNodes_unreadable _ isArray elementMember own,
        serde.othersNodes_readable changedArray others new,
        or_iff_right fun same => own (same.mpr new)]
      exact eq_comm
    · rw [serde.othersNodes_unreadable _ isArray elementMember own,
        serde.othersNodes_unreadable _ changedArray changedMember new]
      exact iff_of_true rfl (.inl (iff_of_false own new))
  · simp only [not_forall] at others
    obtain ⟨other, member, notReadable⟩ := others
    have membership (each : Json) : other ∈ before ++ each :: after := by
      rw [List.mem_append, List.mem_cons]
      exact (List.mem_append.mp member).imp_right .inr
    rw [serde.othersNodes_unreadable _ isArray (membership element) notReadable,
      serde.othersNodes_unreadable _ changedArray (membership changed) notReadable]
    exact iff_of_true rfl (.inl ⟨other, member, notReadable⟩)

end Limits

/-- Decoding judges the elements one by one as far as the limits reach. -/
theorem decoding_one_by_one_iff {decode : List UInt8 → Except String (List Value)}
    {read : Json → Option Value} {outOfRange : Json.Literal → Prop}
    (serde : SerdeJson decode read outOfRange) :
    (∀ body, FailsOnlyForNonArrays decode body ↔ ∀ elements, ArrayBody body elements →
      ∀ element ∈ elements, Readable outOfRange (recursionLimit - 1) element) ∧
    ∀ body changedBody before after element changed,
      ArrayBody body (before ++ element :: after) →
      ArrayBody changedBody (before ++ changed :: after) →
        (othersNodes decode before.length body = othersNodes decode before.length changedBody ↔
          (∃ other ∈ before ++ after, ¬ Readable outOfRange (recursionLimit - 1) other) ∨
            (Readable outOfRange (recursionLimit - 1) element ↔
              Readable outOfRange (recursionLimit - 1) changed) ∨
            Fruitless read (before ++ after)) := by
  constructor
  · exact serde.failsOnlyForNonArrays_iff
  · intro body changedBody before after element changed isArray changedArray
    exact serde.othersNodes_unchanged_iff isArray changedArray

def bodyOf (text : String) : List UInt8 := text.toByteArray.data.toList

theorem arrayBody_pair {left right : String} {first second : Json}
    (firstText : Json.IsText first left.toList) (secondText : Json.IsText second right.toList) :
    ArrayBody (bodyOf ("[" ++ left ++ "," ++ right ++ "]")) [first, second] := by
  refine ⟨"[" ++ left ++ "," ++ right ++ "]", by rw [bodyOf, Array.toArray_toList], ?_⟩
  have elements : Json.Derives (.elements [first, second])
      (left.toList ++ ',' :: right.toList) := .elements firstText (.lastElement secondText)
  have noSpace : Json.Space [] := fun _ member => absurd member List.not_mem_nil
  have array := Json.Derives.element noSpace (.array elements) noSpace
  simpa [Json.IsText] using array

def recordText : String :=
  "\x7b\"publicKey\":\"02ab\",\"alias\":\"ACINQ\",\"capacity\":36010516297,\"firstSeen\":1522941222\x7d"

/-- What becomes of the text of an element, without the text of a float. -/
def readText (text : String) : Option Value :=
  (Json.parse text.toList).bind (readValue (fun _ => 0) (recursionLimit - 1))

theorem exists_readable {text : String} (read : (readText text).isSome = true) :
    ∃ json value, Json.IsText json text.toList ∧ readText text = some value ∧
      readValue (fun _ => 0) (recursionLimit - 1) json = some value ∧
      Readable BeyondF64 (recursionLimit - 1) json := by
  obtain ⟨value, read⟩ := Option.isSome_iff_exists.mp read
  obtain ⟨json, isText, valueRead⟩ := Option.bind_eq_some_iff.mp read
  refine ⟨json, value, Json.parse_eq_some.mp isText, read, valueRead, ?_⟩
  exact (readValue_isSome (fun _ => 0) _ json).mp (by rw [valueRead]; rfl)

theorem exists_beyond {text : String} (isJson : (Json.parse text.toList).isSome = true)
    (unread : (readText text).isNone = true) :
    ∃ json, Json.IsText json text.toList ∧ ¬ Readable BeyondF64 (recursionLimit - 1) json := by
  obtain ⟨json, isText⟩ := Option.isSome_iff_exists.mp isJson
  refine ⟨json, Json.parse_eq_some.mp isText, ?_⟩
  intro readable
  have read := (readValue_isSome (fun _ => 0) _ json).mpr readable
  rw [readText, isText, Option.bind_some, ← Option.not_isSome, read] at unread
  cases unread

theorem decoding_one_by_one_iff_sample :
    FailsOnlyForNonArrays (decodeArray fun _ => 0)
        (bodyOf ("[" ++ recordText ++ "," ++ "1" ++ "]")) ∧
      othersNodes (decodeArray fun _ => 0) 1 (bodyOf ("[" ++ recordText ++ "," ++ "1" ++ "]")) =
        othersNodes (decodeArray fun _ => 0) 1
          (bodyOf ("[" ++ recordText ++ "," ++ "2" ++ "]")) := by
  obtain ⟨record, _, recordIsText, _, _, recordReadable⟩ :=
    exists_readable (show (readText recordText).isSome = true by decide +kernel)
  obtain ⟨one, _, oneIsText, _, _, oneReadable⟩ :=
    exists_readable (show (readText "1").isSome = true by decide +kernel)
  obtain ⟨two, _, twoIsText, _, _, twoReadable⟩ :=
    exists_readable (show (readText "2").isSome = true by decide +kernel)
  have body := arrayBody_pair recordIsText oneIsText
  have changed := arrayBody_pair recordIsText twoIsText
  constructor
  · apply ((decoding_one_by_one_iff (serdeJson_decodeArray fun _ => 0)).1 _).mpr
    intro elements isArray
    rw [isArray.unique body]
    intro element member
    simp only [List.mem_cons, List.not_mem_nil, or_false] at member
    rcases member with rfl | rfl
    · exact recordReadable
    · exact oneReadable
  · exact ((decoding_one_by_one_iff (serdeJson_decodeArray fun _ => 0)).2 _ _ [record] [] one two
      body changed).mpr (.inr (.inl (iff_of_true oneReadable twoReadable)))

/-- A number out of range is JSON, and yet the whole body is lost. -/
theorem number_out_of_range_loses_body :
    let decode := decodeArray fun _ => 0
    let body := bodyOf ("[" ++ recordText ++ "," ++ "1e999" ++ "]")
    (∃ elements, ArrayBody body elements) ∧ (∃ reason, decode body = .error reason) ∧
      ¬ FailsOnlyForNonArrays decode body ∧ othersNodes decode 1 body = [] ∧
      othersNodes decode 1 (bodyOf ("[" ++ recordText ++ "," ++ "1" ++ "]")) =
        [Domain.sampleNode "02ab"] := by
  intro decode body
  have serde := serdeJson_decodeArray fun _ => 0
  obtain ⟨record, value, recordIsText, recordRead, recordValue, recordReadable⟩ :=
    exists_readable (show (readText recordText).isSome = true by decide +kernel)
  obtain ⟨one, _, oneIsText, _, _, oneReadable⟩ :=
    exists_readable (show (readText "1").isSome = true by decide +kernel)
  obtain ⟨beyond, beyondIsText, notReadable⟩ :=
    exists_beyond (show (Json.parse "1e999".toList).isSome = true by decide +kernel)
      (by decide +kernel)
  have isArray := arrayBody_pair recordIsText beyondIsText
  have changed := arrayBody_pair recordIsText oneIsText
  refine ⟨⟨_, isArray⟩, ?_, ?_, ?_, ?_⟩
  · rcases serde.decode_array isArray with decoded | failed
    · exact absurd (decoded.1 beyond (by simp)) notReadable
    · exact failed.2
  · intro failsOnly
    exact notReadable ((serde.failsOnlyForNonArrays_iff body).mp failsOnly _ isArray beyond
      (by simp))
  · exact serde.othersNodes_unreadable 1 isArray (by simp) notReadable
  · have others : ∀ other ∈ [record] ++ [], Readable BeyondF64 (recursionLimit - 1) other := by
      simpa using recordReadable
    have yielded : (readText recordText).bind parseRecord = some (Domain.sampleNode "02ab") := by
      decide +kernel
    rw [recordRead, Option.bind_some] at yielded
    have changed' : ArrayBody (bodyOf ("[" ++ recordText ++ "," ++ "1" ++ "]"))
      ([record] ++ one :: []) := changed
    have kept := serde.othersNodes_readable changed' others oneReadable
    simpa [recordValue, parseRecords, yielded] using kept

end BipaNodes.Source
