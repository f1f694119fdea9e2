import BipaNodes.App.Atomic
import BipaNodes.EndToEnd
import BipaNodes.Http.SerializeProperties

/-!
# From wire to wire

What the running service sends for `GET /nodes`, in terms of the bodies that it
has received from mempool.space.
-/

set_option autoImplicit false

namespace BipaNodes.WireToWire

open App (LastImport ServiceEvent World service)
open Domain (Node)
open EndToEnd (Presents Valid)
open Http (Listing NodeResponse listingBytes readListing readListings)
open Source (ArrayBody HttpResponse JsonBody SerdeJson SourceError Spells Value parseRecord
  parseRecords)

/-!
## Fetches
-/

/-- `fetch_nodes` up to the validation of the records. -/
def fetchRecords (decode : List UInt8 → Except String (List Value))
    (sent : Except String HttpResponse) : Except SourceError (List Value) := do
  let response ← sent.mapError .request
  if response.isSuccess then
    let body ← response.body.mapError .request
    (decode body).mapError .decode
  else
    .error (.status response.status)

theorem fetchNodes_eq (decode : List UInt8 → Except String (List Value))
    (sent : Except String HttpResponse) :
    Source.fetchNodes decode sent = (fetchRecords decode sent).map parseRecords := by
  cases sent with
  | error error => rfl
  | ok response =>
      cases success : response.isSuccess with
      | false => simp [Source.fetchNodes, fetchRecords, success, Except.mapError, Except.map, bind,
          Except.bind]
      | true =>
          cases received : response.body with
          | error error => simp [Source.fetchNodes, fetchRecords, success, received,
              Except.mapError, Except.map, bind, Except.bind]
          | ok body =>
              cases decoded : decode body <;>
                simp [Source.fetchNodes, fetchRecords, success, received, decoded,
                  Except.mapError, Except.map, bind, Except.bind, pure, Except.pure]

/-- A world whose fetches are exchanges with the upstream server. -/
def worldOf (decode : List UInt8 → Except String (List Value))
    (sent : Nat → Except String HttpResponse) (clock : Nat → Int) : World where
  answers iteration := fetchRecords decode (sent iteration)
  clock

theorem fetched_worldOf (decode : List UInt8 → Except String (List Value))
    (sent : Nat → Except String HttpResponse) (clock : Nat → Int) (iteration : Nat) :
    (worldOf decode sent clock).fetched iteration = Source.fetchNodes decode (sent iteration) :=
  (fetchNodes_eq decode (sent iteration)).symm

/-- A response with a success status, whose body has arrived. -/
def Received (sent : Except String HttpResponse) (body : List UInt8) : Prop :=
  ∃ response, sent = .ok response ∧ response.isSuccess = true ∧ response.body = .ok body

theorem fetchRecords_eq_ok {decode : List UInt8 → Except String (List Value)}
    {sent : Except String HttpResponse} {records : List Value}
    (fetched : fetchRecords decode sent = .ok records) :
    ∃ body, Received sent body ∧ decode body = .ok records := by
  obtain ⟨response, sentOk, fetched⟩ := Result.bind_eq_ok.mp fetched
  split at fetched
  · next success =>
      obtain ⟨body, received, decoded⟩ := Result.bind_eq_ok.mp fetched
      exact ⟨body, ⟨response, Result.mapError_eq_ok.mp sentOk, success,
        Result.mapError_eq_ok.mp received⟩, Result.mapError_eq_ok.mp decoded⟩
  · cases fetched

/-!
## Records and listings
-/

/-- What a client learns of a node is what the record says. -/
def Lists (record : Value) (listing : Listing) : Prop :=
  ∃ dto, Spells record dto ∧ listing.publicKey = dto.publicKey ∧ listing.alias = dto.alias ∧
    (listing.sats : Int) = dto.capacity.toInt ∧ listing.seconds = dto.firstSeen.toInt

theorem lists_of_parseRecord {record : Value} {node : Node}
    (parsed : parseRecord record = some node) : Lists record (Listing.ofNode node) := by
  obtain ⟨dto, spelled, carried⟩ := Source.parseRecord_eq_some.mp parsed
  obtain ⟨sameSecs, _⟩ := Domain.timestampFromUnix_ok_iff.mp carried.firstSeen
  exact ⟨dto, spelled, carried.publicKey, carried.alias, carried.capacitySats, sameSecs⟩

theorem lists_parseRecords (records : List Value) :
    List.Forall₂ Lists (records.filter fun record => Valid record)
      ((parseRecords records).map Listing.ofNode) := by
  rw [List.forall₂_map_right_iff]
  apply Source.forall₂_parseRecords
  · intro record _
    rw [Bool.eq_iff_iff, decide_eq_true_iff]
    exact EndToEnd.valid_iff_isSome
  · intro record _ node parsed
    exact lists_of_parseRecord parsed

def FourDigitYear (listing : Listing) : Prop :=
  -62167219200 ≤ listing.seconds ∧ listing.seconds ≤ 253402300799

def Recovers (element : NodeResponse) (listing : Listing) : Prop :=
  FourDigitYear listing → readListing element.toJson = some listing

/-- The body of an answer presents the valid records of a body received, in order,
and has no other reading. A client that knows years of four digits recovers what
the record says from each element that shows one. -/
def Relays (read : Json → Option Value) (received answered : List UInt8) : Prop :=
  ∃ elements records shown listings, ArrayBody received elements ∧
    List.Forall₂ (fun element record => read element = some record) elements records ∧
    shown ≠ [] ∧
    List.Forall₂ Presents (records.filter fun record => Valid record) shown ∧
    (∀ json, JsonBody answered json ↔ json = .array (shown.map NodeResponse.toJson)) ∧
    List.Forall₂ Lists (records.filter fun record => Valid record) listings ∧
    List.Forall₂ Recovers shown listings ∧
    ((∀ listing ∈ listings, FourDigitYear listing) → readListings answered = some listings)

section

variable {decode : List UInt8 → Except String (List Value)} {read : Json → Option Value}
  {outOfRange : Json.Literal → Prop}

theorem records_of_decode (serde : SerdeJson decode read outOfRange) {body : List UInt8}
    {records : List Value} (decoded : decode body = .ok records) :
    ∃ elements, ArrayBody body elements ∧
      List.Forall₂ (fun element record => read element = some record) elements records := by
  by_cases isArray : ∃ elements, ArrayBody body elements
  · obtain ⟨elements, isArray⟩ := isArray
    rcases serde.decode_array isArray with readable | unreadable
    · have reads := serde.reads_all readable.1
      rw [readable.2] at decoded
      rw [Except.ok.inj decoded] at reads
      exact ⟨elements, isArray, reads⟩
    · obtain ⟨_, reason, failed⟩ := unreadable
      rw [failed] at decoded
      cases decoded
  · obtain ⟨reason, failed⟩ := serde.notArray body (not_exists.mp isArray)
    rw [failed] at decoded
    cases decoded

theorem dated_of_parseRecords {records : List Value} {node : Node}
    (member : node ∈ parseRecords records) (fourDigits : FourDigitYear (Listing.ofNode node)) :
    Http.Dated node :=
  ⟨Source.parseRecords_wholeSeconds member, fourDigits⟩

theorem recovers_parseRecords (records : List Value) :
    List.Forall₂ Recovers ((parseRecords records).map NodeResponse.ofNode)
      ((parseRecords records).map Listing.ofNode) := by
  rw [List.forall₂_map_left_iff, List.forall₂_map_right_iff, List.forall₂_same]
  intro node member fourDigits
  exact Http.readListing_ofNode (dated_of_parseRecords member fourDigits)

theorem relays_of_fetched (serde : SerdeJson decode read outOfRange)
    {sent : Except String HttpResponse} {nodes : List Node}
    (fetched : Source.fetchNodes decode sent = .ok nodes) (nonempty : nodes ≠ []) :
    ∃ body, Received sent body ∧ Relays read body (listingBytes nodes) := by
  rw [fetchNodes_eq] at fetched
  obtain ⟨records, recordsFetched, rfl⟩ := Result.map_eq_ok.mp fetched
  obtain ⟨body, received, decoded⟩ := fetchRecords_eq_ok recordsFetched
  obtain ⟨elements, isArray, reads⟩ := records_of_decode serde decoded
  refine ⟨body, received, elements, records, _, _, isArray, reads,
    mt List.map_eq_nil_iff.mp nonempty, EndToEnd.presents_parseRecords records,
    fun _ => Http.jsonBody_listingBytes, lists_parseRecords records,
    recovers_parseRecords records, ?_⟩
  intro fourDigits
  apply Http.readListings_listingBytes
  intro node member
  exact dated_of_parseRecords member
    (fourDigits (Listing.ofNode node) (List.mem_map_of_mem member))

end

/-!
## Runs
-/

/-- In any interleaving a successful `GET /nodes` relays the body fetched by the
last import that its SELECT has seen, or is empty before the first. -/
theorem wire_to_wire {decode : List UInt8 → Except String (List Value)}
    {read : Json → Option Value} {outOfRange : Json.Literal → Prop}
    (serde : SerdeJson decode read outOfRange) (sent : Nat → Except String HttpResponse)
    (clock : Nat → Int) {events : List ServiceEvent} {final : App.Service}
    (ran : (service (worldOf decode sent clock)).run {} events = some final)
    {reader : Nat} {result : Except Storage.StorageError (List Node)} {seen : List Nat}
    (answered : final.readers reader = .answered result seen)
    {elapsed after : Nanos} {log : List Http.LogEntry} {answer : Http.Answer}
    (shown : Http.router { method := .get, path := "/nodes" } (.ends elapsed (.returned result)) =
      .answers after log answer) (success : answer.status = 200) :
    seen = [] ∧ answer.content.bytes = Http.utf8 ['[', ']'] ∨
      ∃ iteration body, seen.getLast? = some iteration ∧ Received (sent iteration) body ∧
        Relays read body answer.content.bytes := by
  obtain ⟨nodes, rfl, bytes⟩ := Http.router_success shown success
  have last := ((App.linear_of_run ran).consistent.answeredKept answered).1
  cases latest : seen.getLast? with
  | none =>
      refine .inl ⟨List.getLast?_eq_none_iff.mp latest, ?_⟩
      rw [bytes, last.empty latest]
      rfl
  | some iteration =>
      obtain ⟨fetched, nonempty⟩ := last.fetched latest
      rw [fetched_worldOf] at fetched
      obtain ⟨body, received, relays⟩ := relays_of_fetched serde fetched nonempty
      exact .inr ⟨iteration, body, rfl, received, bytes ▸ relays⟩

/-- All that the service meets with is what the fetches come to, and the clock. -/
theorem service_congr {left right : World}
    (fetched : ∀ iteration, left.fetched iteration = right.fetched iteration)
    (clock : left.clock = right.clock) : service left = service right := by
  have call : left.call = right.call := by
    funext iteration
    simp only [World.call, fetched, clock]
  unfold service
  congr 1
  funext state event
  cases event <;>
    simp only [App.Service.fetchReturns, App.Service.execute, App.Service.succeeds, fetched, call]

def sampleResponse : HttpResponse where
  status := 200
  body := .ok (Source.bodyOf ("[" ++ Source.recordText ++ "]"))

theorem wire_to_wire_sample :
    [0] = [] ∧ listingBytes [Domain.sampleNode "02ab"] = Http.utf8 ['[', ']'] ∨
      ∃ iteration body, [0].getLast? = some iteration ∧ Received (.ok sampleResponse) body ∧
        Relays (Source.readValue (fun _ => 0) (Source.recursionLimit - 1)) body
          (listingBytes [Domain.sampleNode "02ab"]) := by
  let decode := Source.decodeArray fun _ => 0
  let sent : Nat → Except String HttpResponse := fun _ => .ok sampleResponse
  let simple : World :=
    { answers := fun _ => .ok [Importer.sampleRecord "02ab"], clock := fun _ => 0 }
  have decoded : (decode (Source.bodyOf ("[" ++ Source.recordText ++ "]"))).toOption.map
      parseRecords = some [Domain.sampleNode "02ab"] := by
    decide +kernel
  obtain ⟨records, decodedOk, parsed⟩ := Option.map_eq_some_iff.mp decoded
  have fetched : fetchRecords decode (.ok sampleResponse) = .ok records := by
    simp [fetchRecords, sampleResponse, HttpResponse.isSuccess, Except.mapError, bind, Except.bind,
      Storage.toOption_eq_some.mp decodedOk]
  have same : service (worldOf decode sent fun _ => 0) = service simple := by
    refine service_congr (fun iteration => ?_) rfl
    change (fetchRecords decode (.ok sampleResponse)).map parseRecords = _
    rw [fetched]
    exact congrArg Except.ok parsed
  have reads : ∃ final, (service simple).run {}
      (.spawnImporter :: App.importEvents 0 [] ++ [.select 0, .deliver 0 App.firstRows]) =
        some final ∧
      final.readers 0 = .answered (.ok [Domain.sampleNode "02ab"]) [0] := ⟨_, rfl, rfl⟩
  obtain ⟨final, ran, answered⟩ := reads
  rw [← same] at ran
  have shown : Http.router { method := .get, path := "/nodes" }
      (.ends 0 (.returned (.ok [Domain.sampleNode "02ab"]))) =
        .answers 0 [] (Http.listNodes (.ok [Domain.sampleNode "02ab"])).intoAnswer := rfl
  exact wire_to_wire (Source.serdeJson_decodeArray fun _ => 0) sent (fun _ => 0) ran answered
    shown rfl

end BipaNodes.WireToWire
