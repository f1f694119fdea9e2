import BipaNodes.Source.Dto

/-! What reading and validating a record says about the record, and how the
list of nodes follows the list of records. -/

set_option autoImplicit false

namespace BipaNodes.Source

open Domain (Node)

def fieldValues (field : String) (entries : List (String × Value)) : List Value :=
  (entries.filter fun entry => entry.1 == field).map Prod.snd

@[simp] theorem fieldValues_nil (field : String) : fieldValues field [] = [] := rfl

theorem fieldValues_append (field : String) (first rest : List (String × Value)) :
    fieldValues field (first ++ rest) = fieldValues field first ++ fieldValues field rest := by
  simp [fieldValues]

theorem fieldValues_cons (field name : String) (value : Value)
    (entries : List (String × Value)) :
    fieldValues field ((name, value) :: entries) =
      if name = field then value :: fieldValues field entries else fieldValues field entries := by
  by_cases same : name = field <;> simp [fieldValues, same]

/-- The record that a JSON value spells: an object in which each field occurs
once with a value of its type, or the fields in order as an array. -/
inductive Spells : Value → MempoolNodeDto → Prop where
  | object {entries : List (String × Value)} {dto : MempoolNodeDto} {capacity firstSeen : Value} :
      fieldValues "publicKey" entries = [.string dto.publicKey] →
      fieldValues "alias" entries = [.string dto.alias] →
      fieldValues "capacity" entries = [capacity] → capacity.asInt64 = .ok dto.capacity →
      fieldValues "firstSeen" entries = [firstSeen] → firstSeen.asInt64 = .ok dto.firstSeen →
      Spells (.object entries) dto
  | array {dto : MempoolNodeDto} {capacity firstSeen : Value} :
      capacity.asInt64 = .ok dto.capacity → firstSeen.asInt64 = .ok dto.firstSeen →
      Spells (.array [.string dto.publicKey, .string dto.alias, capacity, firstSeen]) dto

theorem asString_eq_ok {value : Value} {text : String} :
    value.asString = .ok text ↔ value = .string text := by
  cases value <;> simp [Value.asString]

/-!
## Visiting an object
-/

/-- How one field's slot moves while all of its values are read in turn. -/
inductive Fills {Field : Type} (read : Value → Except DeserializeError Field) :
    Option Field → List Value → Option Field → Prop where
  | keep {seen : Option Field} : Fills read seen [] seen
  | fill {value : Value} {field : Field} :
      read value = .ok field → Fills read none [value] (some field)

@[simp] theorem fills_nil_iff {Field : Type} {read : Value → Except DeserializeError Field}
    {seen out : Option Field} : Fills read seen [] out ↔ out = seen := by
  constructor
  · intro filled
    cases filled
    rfl
  · rintro rfl
    exact .keep

theorem fills_append_iff {Field : Type} {read : Value → Except DeserializeError Field}
    {seen out : Option Field} {first rest : List Value} :
    Fills read seen (first ++ rest) out ↔
      ∃ next, Fills read seen first next ∧ Fills read next rest out := by
  constructor
  · intro filled
    cases first with
    | nil => exact ⟨seen, .keep, filled⟩
    | cons value values =>
        cases values with
        | nil =>
            cases filled with
            | fill accepted => exact ⟨_, .fill accepted, .keep⟩
        | cons second values => cases filled
  · rintro ⟨next, filledFirst, filledRest⟩
    cases filledFirst with
    | keep => exact filledRest
    | fill accepted =>
        cases filledRest with
        | keep => exact .fill accepted

theorem readOnce_eq_ok {Field : Type} {name : String}
    {read : Value → Except DeserializeError Field} {seen out : Option Field} {value : Value} :
    readOnce name read seen value = .ok out ↔ Fills read seen [value] out := by
  cases seen with
  | none =>
      rw [readOnce, Result.map_eq_ok]
      constructor
      · rintro ⟨field, accepted, rfl⟩
        exact .fill accepted
      · intro filled
        cases filled with
        | fill accepted => exact ⟨_, accepted, rfl⟩
  | some field =>
      constructor
      · intro accepted
        cases accepted
      · intro filled
        cases filled

structure FillsEach (seen : PartialDto) (entries : List (String × Value))
    (out : PartialDto) : Prop where
  publicKey : Fills Value.asString seen.publicKey (fieldValues "publicKey" entries) out.publicKey
  «alias» : Fills Value.asString seen.alias (fieldValues "alias" entries) out.alias
  capacity : Fills Value.asInt64 seen.capacity (fieldValues "capacity" entries) out.capacity
  firstSeen : Fills Value.asInt64 seen.firstSeen (fieldValues "firstSeen" entries) out.firstSeen

theorem fillsEach_append_iff {seen out : PartialDto} {first rest : List (String × Value)} :
    FillsEach seen (first ++ rest) out ↔
      ∃ next, FillsEach seen first next ∧ FillsEach next rest out := by
  constructor
  · rintro ⟨publicKey, aliasFilled, capacity, firstSeen⟩
    rw [fieldValues_append, fills_append_iff] at publicKey aliasFilled capacity firstSeen
    obtain ⟨nextKey, keyFirst, keyRest⟩ := publicKey
    obtain ⟨nextAlias, aliasFirst, aliasRest⟩ := aliasFilled
    obtain ⟨nextCapacity, capacityFirst, capacityRest⟩ := capacity
    obtain ⟨nextSeen, seenFirst, seenRest⟩ := firstSeen
    exact ⟨⟨nextKey, nextAlias, nextCapacity, nextSeen⟩,
      ⟨keyFirst, aliasFirst, capacityFirst, seenFirst⟩,
      ⟨keyRest, aliasRest, capacityRest, seenRest⟩⟩
  · rintro ⟨next, filledFirst, filledRest⟩
    constructor <;> rw [fieldValues_append, fills_append_iff]
    · exact ⟨_, filledFirst.publicKey, filledRest.publicKey⟩
    · exact ⟨_, filledFirst.alias, filledRest.alias⟩
    · exact ⟨_, filledFirst.capacity, filledRest.capacity⟩
    · exact ⟨_, filledFirst.firstSeen, filledRest.firstSeen⟩

/-- A field that matches fills its slot and leaves the others as they are. -/
theorem visitField_eq_ok {Field : Type} {name : String}
    {read : Value → Except DeserializeError Field} {seen : Option Field} {value : Value}
    {put : Option Field → PartialDto} {out : PartialDto} (slot : Option Field) (others : Prop)
    (puts : ∀ filled, put filled = out ↔ filled = slot ∧ others) :
    put <$> readOnce name read seen value = .ok out ↔ Fills read seen [value] slot ∧ others := by
  rw [Result.map_eq_ok]
  constructor
  · rintro ⟨filled, accepted, same⟩
    obtain ⟨rfl, kept⟩ := (puts filled).mp same
    exact ⟨readOnce_eq_ok.mp accepted, kept⟩
  · rintro ⟨filled, kept⟩
    exact ⟨slot, readOnce_eq_ok.mpr filled, (puts slot).mpr ⟨rfl, kept⟩⟩

theorem fillsEach_singleton_iff {seen out : PartialDto} {name : String} {value : Value} :
    FillsEach seen [(name, value)] out ↔
      Fills Value.asString seen.publicKey (if name = "publicKey" then [value] else [])
        out.publicKey ∧
      Fills Value.asString seen.alias (if name = "alias" then [value] else []) out.alias ∧
      Fills Value.asInt64 seen.capacity (if name = "capacity" then [value] else []) out.capacity ∧
      Fills Value.asInt64 seen.firstSeen (if name = "firstSeen" then [value] else [])
        out.firstSeen := by
  have single (field : String) : fieldValues field [(name, value)] =
      if name = field then [value] else [] := fieldValues_cons field name value []
  rw [← single, ← single, ← single, ← single]
  exact ⟨fun filled => ⟨filled.publicKey, filled.alias, filled.capacity, filled.firstSeen⟩,
    fun ⟨publicKey, aliasFilled, capacity, firstSeen⟩ =>
      ⟨publicKey, aliasFilled, capacity, firstSeen⟩⟩

theorem visitEntry_eq_ok {seen out : PartialDto} {entry : String × Value} :
    visitEntry seen entry = .ok out ↔ FillsEach seen [entry] out := by
  obtain ⟨name, value⟩ := entry
  obtain ⟨outKey, outAlias, outCapacity, outSeen⟩ := out
  obtain ⟨seenKey, seenAlias, seenCapacity, seenSeen⟩ := seen
  rw [fillsEach_singleton_iff]
  unfold visitEntry
  split
  · next matched =>
      obtain ⟨rfl, rfl⟩ := Prod.mk.inj matched
      exact (visitField_eq_ok outKey (outAlias = seenAlias ∧ outCapacity = seenCapacity ∧
        outSeen = seenSeen) (by grind)).trans (by simp)
  · next matched =>
      obtain ⟨rfl, rfl⟩ := Prod.mk.inj matched
      exact (visitField_eq_ok outAlias (outKey = seenKey ∧ outCapacity = seenCapacity ∧
        outSeen = seenSeen) (by grind)).trans (by simp [and_left_comm])
  · next matched =>
      obtain ⟨rfl, rfl⟩ := Prod.mk.inj matched
      exact (visitField_eq_ok outCapacity (outKey = seenKey ∧ outAlias = seenAlias ∧
        outSeen = seenSeen) (by grind)).trans (by simp [and_left_comm])
  · next matched =>
      obtain ⟨rfl, rfl⟩ := Prod.mk.inj matched
      exact (visitField_eq_ok outSeen (outKey = seenKey ∧ outAlias = seenAlias ∧
        outCapacity = seenCapacity) (by grind)).trans (and_comm.trans (by simp [and_assoc]))
  · next notKey notAlias notCapacity notSeen =>
      have isKey : name ≠ "publicKey" := fun same => notKey value (by rw [same])
      have isAlias : name ≠ "alias" := fun same => notAlias value (by rw [same])
      have isCapacity : name ≠ "capacity" := fun same => notCapacity value (by rw [same])
      have isSeen : name ≠ "firstSeen" := fun same => notSeen value (by rw [same])
      simp [isKey, isAlias, isCapacity, isSeen, eq_comm]

theorem visitEntries_eq_ok {seen out : PartialDto} {entries : List (String × Value)} :
    visitEntries seen entries = .ok out ↔ FillsEach seen entries out := by
  induction entries generalizing seen with
  | nil =>
      obtain ⟨seenKey, seenAlias, seenCapacity, seenSeen⟩ := seen
      obtain ⟨outKey, outAlias, outCapacity, outSeen⟩ := out
      constructor
      · intro visited
        cases visited
        exact ⟨.keep, .keep, .keep, .keep⟩
      · rintro ⟨publicKey, aliasFilled, capacity, firstSeen⟩
        simp_all [visitEntries]
  | cons entry entries ih =>
      rw [visitEntries, Result.bind_eq_ok, ← List.singleton_append, fillsEach_append_iff]
      exact exists_congr fun next => and_congr visitEntry_eq_ok ih

theorem requireField_eq_ok {Field : Type} {name : String} {slot : Option Field} {field : Field} :
    requireField name slot = .ok field ↔ slot = some field := by
  cases slot <;> simp [requireField]

theorem fills_none_some_iff {Field : Type} {read : Value → Except DeserializeError Field}
    {values : List Value} {field : Field} :
    Fills read none values (some field) ↔ ∃ value, values = [value] ∧ read value = .ok field := by
  constructor
  · intro filled
    cases filled with
    | fill accepted => exact ⟨_, rfl, accepted⟩
  · rintro ⟨value, rfl, accepted⟩
    exact .fill accepted

theorem visitMap_eq_ok {entries : List (String × Value)} {dto : MempoolNodeDto} :
    visitMap entries = .ok dto ↔ Spells (.object entries) dto := by
  constructor
  · intro visited
    unfold visitMap at visited
    obtain ⟨fields, filled, visited⟩ := Result.bind_eq_ok.mp visited
    obtain ⟨publicKey, hasKey, visited⟩ := Result.bind_eq_ok.mp visited
    obtain ⟨aliasText, hasAlias, visited⟩ := Result.bind_eq_ok.mp visited
    obtain ⟨capacity, hasCapacity, visited⟩ := Result.bind_eq_ok.mp visited
    obtain ⟨firstSeen, hasSeen, visited⟩ := Result.bind_eq_ok.mp visited
    cases Result.pure_eq_ok.mp visited
    have each := visitEntries_eq_ok.mp filled
    rw [requireField_eq_ok] at hasKey hasAlias hasCapacity hasSeen
    obtain ⟨keyFilled, aliasFilled, capacityFilled, seenFilled⟩ := each
    rw [hasKey, fills_none_some_iff] at keyFilled
    rw [hasAlias, fills_none_some_iff] at aliasFilled
    rw [hasCapacity, fills_none_some_iff] at capacityFilled
    rw [hasSeen, fills_none_some_iff] at seenFilled
    obtain ⟨keyValue, keyOnly, keyRead⟩ := keyFilled
    obtain ⟨aliasValue, aliasOnly, aliasRead⟩ := aliasFilled
    obtain ⟨capacityValue, capacityOnly, capacityRead⟩ := capacityFilled
    obtain ⟨seenValue, seenOnly, seenRead⟩ := seenFilled
    rw [asString_eq_ok] at keyRead aliasRead
    subst keyRead aliasRead
    exact .object keyOnly aliasOnly capacityOnly capacityRead seenOnly seenRead
  · intro spelled
    cases spelled with
    | object keyOnly aliasOnly capacityOnly capacityRead seenOnly seenRead =>
        have filled : FillsEach {} entries
            ⟨some dto.publicKey, some dto.alias, some dto.capacity, some dto.firstSeen⟩ :=
          ⟨fills_none_some_iff.mpr ⟨_, keyOnly, rfl⟩, fills_none_some_iff.mpr ⟨_, aliasOnly, rfl⟩,
            fills_none_some_iff.mpr ⟨_, capacityOnly, capacityRead⟩,
            fills_none_some_iff.mpr ⟨_, seenOnly, seenRead⟩⟩
        rw [visitMap, visitEntries_eq_ok.mpr filled]
        rfl

theorem nextElement_eq_ok {Field : Type} {position : Nat}
    {read : Value → Except DeserializeError Field} {elements rest : List Value} {field : Field} :
    nextElement position read elements = .ok (field, rest) ↔
      ∃ element, elements = element :: rest ∧ read element = .ok field := by
  cases elements with
  | nil => simp [nextElement]
  | cons element elements =>
      rw [nextElement, Result.bind_eq_ok]
      simp only [Result.pure_eq_ok, Prod.mk.injEq, List.cons.injEq]
      constructor
      · rintro ⟨value, accepted, rfl, rfl⟩
        exact ⟨element, ⟨rfl, rfl⟩, accepted⟩
      · rintro ⟨_, ⟨rfl, rfl⟩, accepted⟩
        exact ⟨field, accepted, rfl, rfl⟩

theorem visitSeq_eq_ok {elements : List Value} {dto : MempoolNodeDto} :
    visitSeq elements = .ok dto ↔ Spells (.array elements) dto := by
  constructor
  · intro visited
    unfold visitSeq at visited
    obtain ⟨⟨publicKey, afterKey⟩, keyNext, visited⟩ := Result.bind_eq_ok.mp visited
    obtain ⟨⟨aliasText, afterAlias⟩, aliasNext, visited⟩ := Result.bind_eq_ok.mp visited
    obtain ⟨⟨capacity, afterCapacity⟩, capacityNext, visited⟩ := Result.bind_eq_ok.mp visited
    obtain ⟨⟨firstSeen, leftOver⟩, seenNext, visited⟩ := Result.bind_eq_ok.mp visited
    obtain ⟨keyValue, rfl, keyRead⟩ := nextElement_eq_ok.mp keyNext
    obtain ⟨aliasValue, rfl, aliasRead⟩ := nextElement_eq_ok.mp aliasNext
    obtain ⟨capacityValue, rfl, capacityRead⟩ := nextElement_eq_ok.mp capacityNext
    obtain ⟨seenValue, rfl, seenRead⟩ := nextElement_eq_ok.mp seenNext
    cases leftOver with
    | nil =>
        cases Result.pure_eq_ok.mp visited
        rw [asString_eq_ok] at keyRead aliasRead
        subst keyRead aliasRead
        exact @Spells.array ⟨publicKey, aliasText, capacity, firstSeen⟩ _ _ capacityRead seenRead
    | cons extra leftOver => cases visited
  · intro spelled
    cases spelled with
    | array capacityRead seenRead =>
        simp [visitSeq, nextElement, Value.asString, capacityRead, seenRead, bind, Except.bind,
          pure, Except.pure]

/-- Deserialization reads exactly the record that the value spells. -/
theorem fromValue_eq_ok {value : Value} {dto : MempoolNodeDto} :
    fromValue value = .ok dto ↔ Spells value dto := by
  cases value with
  | array elements => exact visitSeq_eq_ok
  | object entries => exact visitMap_eq_ok
  | null | bool | number | string =>
      constructor
      · intro visited
        cases visited
      · intro spelled
        cases spelled

/-!
## Validation
-/

theorem capacityFromWire_eq_ok {capacity : Int64} {sats : UInt64} :
    capacityFromWire capacity = .ok sats ↔ (sats.toNat : Int) = capacity.toInt := by
  have upper : capacity.toInt < 2 ^ 63 := by
    have := capacity.toInt_lt
    omega
  unfold capacityFromWire
  split
  · rename_i nonnegative
    have small : capacity.toInt.toNat < 2 ^ 64 := by omega
    have roundTrip : (UInt64.ofNat capacity.toInt.toNat).toNat = capacity.toInt.toNat :=
      UInt64.toNat_ofNat_of_lt small
    constructor
    · intro accepted
      cases accepted
      omega
    · intro same
      congr 1
      apply UInt64.toNat_inj.mp
      omega
  · rename_i negative
    constructor
    · intro accepted
      cases accepted
    · intro same
      omega

structure Carries (dto : MempoolNodeDto) (node : Node) : Prop where
  nonempty : dto.publicKey ≠ ""
  publicKey : node.publicKey = dto.publicKey
  «alias» : node.alias = dto.alias
  capacitySats : (node.capacitySats.toNat : Int) = dto.capacity.toInt
  firstSeen : Domain.timestampFromUnix dto.firstSeen = .ok node.firstSeen

theorem toNode_eq_ok {dto : MempoolNodeDto} {node : Node} :
    dto.toNode = .ok node ↔ Carries dto node := by
  unfold MempoolNodeDto.toNode
  by_cases empty : dto.publicKey = ""
  · rw [if_pos (by rw [empty]; rfl)]
    constructor
    · intro accepted
      cases accepted
    · intro carried
      exact absurd empty carried.nonempty
  · rw [if_neg (by simpa using empty)]
    constructor
    · intro accepted
      obtain ⟨capacitySats, capacityRead, accepted⟩ := Result.bind_eq_ok.mp accepted
      obtain ⟨firstSeen, seenRead, accepted⟩ := Result.bind_eq_ok.mp accepted
      cases Result.pure_eq_ok.mp accepted
      exact ⟨empty, rfl, rfl, capacityFromWire_eq_ok.mp capacityRead,
        Result.mapError_eq_ok.mp seenRead⟩
    · rintro ⟨_, sameKey, sameAlias, sameCapacity, sameSeen⟩
      obtain ⟨publicKey, aliasText, capacitySats, firstSeen⟩ := node
      dsimp only at sameKey sameAlias sameCapacity sameSeen
      rw [capacityFromWire_eq_ok.mpr sameCapacity, sameSeen, sameKey, sameAlias]
      rfl

theorem parseRecord_eq_some {record : Value} {node : Node} :
    parseRecord record = some node ↔ ∃ dto, Spells record dto ∧ Carries dto node := by
  unfold parseRecord
  constructor
  · intro parsed
    split at parsed
    · cases parsed
    · rename_i dto visited
      split at parsed
      · rename_i built accepted
        cases parsed
        exact ⟨dto, fromValue_eq_ok.mp visited, toNode_eq_ok.mp accepted⟩
      · cases parsed
  · rintro ⟨dto, spelled, carried⟩
    rw [fromValue_eq_ok.mpr spelled]
    simp only [toNode_eq_ok.mpr carried]

theorem parseRecords_wholeSeconds {records : List Value} {node : Node}
    (member : node ∈ parseRecords records) : node.firstSeen.nanos = 0 := by
  obtain ⟨record, _, parsed⟩ := List.mem_filterMap.mp member
  obtain ⟨dto, _, carried⟩ := parseRecord_eq_some.mp parsed
  exact (Domain.timestampFromUnix_ok_iff.mp carried.firstSeen).2

theorem parseRecords_capacity_lt {records : List Value} {node : Node}
    (member : node ∈ parseRecords records) : node.capacitySats.toNat < 2 ^ 63 := by
  obtain ⟨record, _, parsed⟩ := List.mem_filterMap.mp member
  obtain ⟨dto, _, carried⟩ := parseRecord_eq_some.mp parsed
  have same := carried.capacitySats
  have upper := dto.capacity.toInt_lt
  omega

/-- What holds of each parsed record and its node holds of the records that
parse and the nodes, in order. -/
theorem forall₂_parseRecords {related : Value → Node → Prop} {selects : Value → Bool}
    {records : List Value}
    (selected : ∀ record ∈ records, selects record = (parseRecord record).isSome)
    (each : ∀ record ∈ records, ∀ node, parseRecord record = some node → related record node) :
    List.Forall₂ related (records.filter selects) (parseRecords records) := by
  induction records with
  | nil => exact .nil
  | cons record records ih =>
      have rest := ih (fun other member => selected other (List.mem_cons_of_mem record member))
        fun other member => each other (List.mem_cons_of_mem record member)
      have select := selected record List.mem_cons_self
      cases parsed : parseRecord record with
      | none =>
          rw [parsed, Option.isSome_none] at select
          rw [List.filter_cons_of_neg (by simp [select]), parseRecords,
            List.filterMap_cons_none parsed]
          exact rest
      | some node =>
          rw [parsed, Option.isSome_some] at select
          rw [List.filter_cons_of_pos select, parseRecords, List.filterMap_cons_some parsed]
          exact .cons (each record List.mem_cons_self node parsed) rest

theorem parseRecords_append (before after : List Value) :
    parseRecords (before ++ after) = parseRecords before ++ parseRecords after := by
  simp [parseRecords]

theorem parseRecords_insert_none {before after : List Value} {record : Value}
    (skipped : parseRecord record = none) :
    parseRecords (before ++ record :: after) = parseRecords (before ++ after) := by
  simp [parseRecords, skipped]

theorem parseRecords_insert_some {before after : List Value} {record : Value} {node : Node}
    (parsed : parseRecord record = some node) :
    parseRecords (before ++ record :: after) = parseRecords before ++ node :: parseRecords after := by
  simp [parseRecords, parsed]

theorem length_parseRecords_le (records : List Value) :
    (parseRecords records).length ≤ records.length :=
  List.length_filterMap_le parseRecord records

end BipaNodes.Source
