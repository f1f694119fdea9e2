import BipaNodes.Http.Response
import BipaNodes.Importer.RunOnceProperties

/-!
# From the wire to the API

What `GET /nodes` shows after an import, in terms of the JSON records that were
imported.
-/

set_option autoImplicit false

namespace BipaNodes.EndToEnd

open Source (MempoolNodeDto Spells Value parseRecord parseRecords)
open Storage
open Importer (ImportOutcome runOnce)
open Http (NodeResponse)

/-- A record that the service accepts: all four fields, a key that is not
empty, a capacity that is not negative and a second that chrono represents. -/
def Valid (record : Value) : Prop :=
  ∃ dto, Spells record dto ∧ dto.publicKey ≠ "" ∧ 0 ≤ dto.capacity.toInt ∧
    Domain.minUnixSecs ≤ dto.firstSeen.toInt ∧ dto.firstSeen.toInt ≤ Domain.maxUnixSecs

theorem valid_iff_isSome {record : Value} : Valid record ↔ (parseRecord record).isSome := by
  rw [Option.isSome_iff_exists]
  constructor
  · intro valid
    obtain ⟨dto, spelled, nonempty, capacity, lower, upper⟩ := valid
    have fits : dto.capacity.toInt.toNat < 2 ^ 64 := by
      have bound := dto.capacity.toInt_lt
      omega
    refine ⟨⟨dto.publicKey, dto.alias, UInt64.ofNat dto.capacity.toInt.toNat,
      ⟨dto.firstSeen.toInt, 0, lower, upper, by decide⟩⟩,
      Source.parseRecord_eq_some.mpr ⟨dto, spelled, nonempty, rfl, rfl, ?_, ?_⟩⟩
    · have roundTrip : (UInt64.ofNat dto.capacity.toInt.toNat).toNat = dto.capacity.toInt.toNat :=
        UInt64.toNat_ofNat_of_lt fits
      dsimp only
      omega
    · exact Domain.timestampFromUnix_ok_iff.mpr ⟨rfl, rfl⟩
  · intro parsed
    obtain ⟨node, parsed⟩ := parsed
    obtain ⟨dto, spelled, carried⟩ := Source.parseRecord_eq_some.mp parsed
    obtain ⟨sameSecs, _⟩ := Domain.timestampFromUnix_ok_iff.mp carried.firstSeen
    refine ⟨dto, spelled, carried.nonempty, ?_, ?_, ?_⟩
    · rw [← carried.capacitySats]
      exact Int.natCast_nonneg _
    · rw [← sameSecs]
      exact node.firstSeen.secs_ge
    · rw [← sameSecs]
      exact node.firstSeen.secs_le

instance : DecidablePred Valid := fun _ => decidable_of_iff _ valid_iff_isSome.symm

/-- The presentation of a record: its own strings, its capacity divided by
10^8, and the formatting of its very second. -/
def Presents (record : Value) (element : NodeResponse) : Prop :=
  ∃ dto, Spells record dto ∧ element.publicKey = dto.publicKey ∧ element.alias = dto.alias ∧
    Decimal.read element.capacity = some ((dto.capacity.toInt : ℚ) / 10 ^ 8) ∧
    ∃ instant : Domain.DateTime, instant.secs = dto.firstSeen.toInt ∧ instant.nanos = 0 ∧
      element.firstSeen = Domain.formatTimestamp instant

theorem presents_of_parseRecord {record : Value} {node : Domain.Node}
    (parsed : parseRecord record = some node) : Presents record (NodeResponse.ofNode node) := by
  obtain ⟨dto, spelled, carried⟩ := Source.parseRecord_eq_some.mp parsed
  obtain ⟨sameSecs, wholeSecond⟩ := Domain.timestampFromUnix_ok_iff.mp carried.firstSeen
  refine ⟨dto, spelled, carried.publicKey, carried.alias, ?_, node.firstSeen, sameSecs,
    wholeSecond, rfl⟩
  have capacity : Decimal.read (NodeResponse.ofNode node).capacity =
      some ((node.capacitySats.toNat : ℚ) / 10 ^ 8) := Domain.read_formatBtc node.capacitySats
  rw [capacity, ← carried.capacitySats]
  rfl

theorem presents_parseRecords (records : List Value) :
    List.Forall₂ Presents (records.filter fun record => Valid record)
      ((parseRecords records).map NodeResponse.ofNode) := by
  rw [List.forall₂_map_right_iff]
  apply Source.forall₂_parseRecords
  · intro record _
    rw [Bool.eq_iff_iff, decide_eq_true_iff]
    exact valid_iff_isSome
  · intro record _ node parsed
    exact presents_of_parseRecord parsed

/-- After a successful import `GET /nodes` presents exactly the valid records,
in order, whatever arrangement the rows were kept in; no capacity conversion
on the way can fail. -/
theorem wire_to_api {records : List Value} {link : Link} {importedAt : Int}
    {table stored : List TableRow} {outcome : ImportOutcome}
    (imported : runOnce (.ok (parseRecords records)) link importedAt table =
      (.ok outcome, stored)) :
    (∃ elements,
      List.Forall₂ Presents (records.filter fun record => Valid record) elements ∧
        outcome.imported = elements.length ∧
        ∀ kept delivered, kept.Perm stored → OrderedByRank kept delivered →
          Http.listNodes (listNodes (.ok delivered)) = { status := 200, body := .nodes elements }) ∧
      (∀ node ∈ parseRecords records, ∃ column, capacityToDb node.capacitySats = .ok column) ∧
      (∀ row ∈ stored, ∃ sats, capacityFromDb row.capacitySats = .ok sats) := by
  obtain ⟨nodes, same, _, ⟨_, accepted⟩, _, length, rfl⟩ := Importer.runOnce_ok_iff.mp imported
  cases same
  have numbered : Numbered (rowsOf importedAt (parseRecords records)) :=
    numbered_rowsOf accepted.inRange.length_le
  refine ⟨⟨_, presents_parseRecords records, by rw [length, List.length_map], ?_⟩, ?_, ?_⟩
  · intro kept delivered arrangement ordered
    rw [numbered.delivered_eq arrangement ordered,
      listNodes_rowsOf accepted.inRange Importer.parseRecords_wholeMicros]
    rfl
  · intro node member
    exact ⟨_, capacityToDb_eq_ok.mpr ⟨accepted.inRange.1 node member, rfl⟩⟩
  · intro row member
    obtain ⟨index, inBounds, rfl⟩ := List.mem_iff_getElem.mp member
    rw [length_rowsOf] at inBounds
    have fits := accepted.inRange.1 _ (List.getElem_mem inBounds)
    refine ⟨(parseRecords records)[index].capacitySats, ?_⟩
    simp only [rowsOf, List.getElem_mapIdx, rowOf]
    exact capacityFromDb_toDb fits

/-- Two valid records among values that are skipped. -/
def sampleRecords : List Value :=
  [.null, Importer.sampleRecord "03cd", .array [], Importer.sampleRecord "02ab"]

/-- Their rows, in the order of the ranking. -/
def sampleRows : List TableRow := rowsOf 0 [Domain.sampleNode "03cd", Domain.sampleNode "02ab"]

/-- The table keeps the rows the other way round, and they are sorted again. -/
theorem wire_to_api_sample :
    ∃ elements,
      List.Forall₂ Presents (sampleRecords.filter fun record => Valid record) elements ∧
        elements.length = 2 ∧ OrderedByRank sampleRows.reverse sampleRows ∧
        Http.listNodes (listNodes (.ok sampleRows)) =
          { status := 200, body := .nodes elements } := by
  have imported : runOnce (.ok (parseRecords sampleRecords)) Link.responsive 0 [] =
      (.ok ⟨2⟩, sampleRows) := by
    decide
  have sorted : OrderedByRank sampleRows.reverse sampleRows := by decide
  obtain ⟨⟨elements, presented, length, listed⟩, _⟩ := wire_to_api imported
  exact ⟨elements, presented, length.symm, sorted,
    listed sampleRows.reverse sampleRows sampleRows.reverse_perm sorted⟩

end BipaNodes.EndToEnd
