import BipaNodes.Source.DtoProperties

/-! Which elements of a body become nodes: the objects with the four fields,
and the arrays that list the fields in order. -/

set_option autoImplicit false

namespace BipaNodes.Source

open Domain (Node)

/-- The integer that a JSON number denotes, without fraction or exponent. -/
def Value.integer : Value → Option Int
  | .number (.posInt value) => some value.toNat
  | .number (.negInt value) => some value.toInt
  | _ => none

theorem asInt64_eq_ok {value : Value} {read : Int64} :
    value.asInt64 = .ok read ↔ value.integer = some read.toInt := by
  cases value with
  | number number =>
      cases number with
      | posInt natural =>
          rw [Value.asInt64, Value.integer, Option.some.injEq]
          have upper := read.toInt_lt
          split
          · rename_i fits
            have same : (Int64.ofNat natural.toNat).toInt = natural.toNat :=
              Int64.toInt_ofNat_of_lt fits
            rw [Except.ok.injEq, ← same, Int64.toInt_inj]
          · rename_i tooLarge
            constructor
            · intro failed
              cases failed
            · intro same
              omega
      | negInt integer =>
          rw [Value.asInt64, Value.integer, Except.ok.injEq, Option.some.injEq, Int64.toInt_inj]
      | float bits => simp [Value.asInt64, Value.integer]
  | null | bool | string | array | object => simp [Value.asInt64, Value.integer]

theorem exists_asInt64_eq_ok {value : Value} {integer : Int} (found : value.integer = some integer)
    (lower : -2 ^ 63 ≤ integer) (upper : integer < 2 ^ 63) :
    ∃ read, value.asInt64 = .ok read ∧ read.toInt = integer := by
  have same : (Int64.ofInt integer).toInt = integer := Int64.toInt_ofInt_of_le lower upper
  refine ⟨Int64.ofInt integer, asInt64_eq_ok.mpr ?_, same⟩
  rw [same, found]

/-- An object with a non-empty key, an alias, a capacity from 0 to `i64::MAX`
and a second that chrono represents, whatever else it holds. -/
inductive Accepts : Value → Node → Prop where
  | object {entries : List (String × Value)} {node : Node} {capacity firstSeen : Value} :
      fieldValues "publicKey" entries = [.string node.publicKey] → node.publicKey ≠ "" →
      fieldValues "alias" entries = [.string node.alias] →
      fieldValues "capacity" entries = [capacity] →
      capacity.integer = some (node.capacitySats.toNat : Int) → node.capacitySats.toNat < 2 ^ 63 →
      fieldValues "firstSeen" entries = [firstSeen] →
      firstSeen.integer = some node.firstSeen.secs → node.firstSeen.nanos = 0 →
      Accepts (.object entries) node

/-- An array that lists the values of an acceptable object in the order in
which the fields are declared. -/
inductive Positional : Value → Node → Prop where
  | array {node : Node} {capacity firstSeen : Value} :
      node.publicKey ≠ "" → capacity.integer = some (node.capacitySats.toNat : Int) →
      node.capacitySats.toNat < 2 ^ 63 → firstSeen.integer = some node.firstSeen.secs →
      node.firstSeen.nanos = 0 →
      Positional (.array [.string node.publicKey, .string node.alias, capacity, firstSeen]) node

/-- The integers of a record whose node carries them. -/
theorem carries_of_integers {node : Node} {capacity firstSeen : Value}
    (nonempty : node.publicKey ≠ "")
    (capacityValue : capacity.integer = some (node.capacitySats.toNat : Int))
    (capacityFits : node.capacitySats.toNat < 2 ^ 63)
    (seenValue : firstSeen.integer = some node.firstSeen.secs)
    (wholeSecond : node.firstSeen.nanos = 0) :
    ∃ readCapacity readSeen, capacity.asInt64 = .ok readCapacity ∧
      firstSeen.asInt64 = .ok readSeen ∧
        Carries ⟨node.publicKey, node.alias, readCapacity, readSeen⟩ node := by
  obtain ⟨readCapacity, capacityRead, sameCapacity⟩ :=
    exists_asInt64_eq_ok capacityValue (by omega) (by omega)
  have lower := node.firstSeen.secs_ge
  have upper := node.firstSeen.secs_le
  unfold Domain.minUnixSecs at lower
  unfold Domain.maxUnixSecs at upper
  obtain ⟨readSeen, seenRead, sameSeen⟩ :=
    exists_asInt64_eq_ok seenValue (by omega) (by omega)
  exact ⟨readCapacity, readSeen, capacityRead, seenRead, nonempty, rfl, rfl, sameCapacity.symm,
    Domain.timestampFromUnix_ok_iff.mpr ⟨sameSeen.symm, wholeSecond⟩⟩

/-- The integers that a node carries from its record. -/
theorem integers_of_carries {dto : MempoolNodeDto} {node : Node} (carried : Carries dto node)
    {capacity firstSeen : Value} (capacityRead : capacity.asInt64 = .ok dto.capacity)
    (seenRead : firstSeen.asInt64 = .ok dto.firstSeen) :
    capacity.integer = some (node.capacitySats.toNat : Int) ∧ node.capacitySats.toNat < 2 ^ 63 ∧
      firstSeen.integer = some node.firstSeen.secs ∧ node.firstSeen.nanos = 0 := by
  obtain ⟨sameSeen, wholeSecond⟩ := Domain.timestampFromUnix_ok_iff.mp carried.firstSeen
  have upper := dto.capacity.toInt_lt
  have same := carried.capacitySats
  refine ⟨?_, by omega, ?_, wholeSecond⟩
  · rw [same]
    exact asInt64_eq_ok.mp capacityRead
  · rw [sameSeen]
    exact asInt64_eq_ok.mp seenRead

theorem parseRecord_eq_some_iff {record : Value} {node : Node} :
    parseRecord record = some node ↔ Accepts record node ∨ Positional record node := by
  rw [parseRecord_eq_some]
  constructor
  · intro parsed
    obtain ⟨dto, spelled, carried⟩ := parsed
    cases spelled with
    | object key aliasText capacity capacityRead firstSeen seenRead =>
        obtain ⟨capacityValue, fits, seenValue, whole⟩ :=
          integers_of_carries carried capacityRead seenRead
        rw [← carried.publicKey] at key
        rw [← carried.alias] at aliasText
        have nonempty : node.publicKey ≠ "" := by
          rw [carried.publicKey]
          exact carried.nonempty
        exact .inl (.object key nonempty aliasText capacity capacityValue fits firstSeen seenValue
          whole)
    | array capacityRead seenRead =>
        obtain ⟨capacityValue, fits, seenValue, whole⟩ :=
          integers_of_carries carried capacityRead seenRead
        have nonempty : node.publicKey ≠ "" := by
          rw [carried.publicKey]
          exact carried.nonempty
        rw [← carried.publicKey, ← carried.alias]
        exact .inr (.array nonempty capacityValue fits seenValue whole)
  · intro shape
    rcases shape with accepted | positional
    · cases accepted with
      | object key nonempty aliasText capacity capacityValue fits firstSeen seenValue whole =>
          obtain ⟨readCapacity, readSeen, capacityRead, seenRead, carried⟩ :=
            carries_of_integers nonempty capacityValue fits seenValue whole
          exact ⟨_, .object key aliasText capacity capacityRead firstSeen seenRead, carried⟩
    · cases positional with
      | array nonempty capacityValue fits seenValue whole =>
          obtain ⟨readCapacity, readSeen, capacityRead, seenRead, carried⟩ :=
            carries_of_integers nonempty capacityValue fits seenValue whole
          exact ⟨_, @Spells.array ⟨node.publicKey, node.alias, readCapacity, readSeen⟩ _ _
            capacityRead seenRead, carried⟩

/-!
## Exactness
-/

def Acceptable (record : Value) : Prop := ∃ node, Accepts record node

theorem not_acceptable_of_positional {record : Value} {node : Node}
    (positional : Positional record node) : ¬ Acceptable record := by
  cases positional with
  | array =>
      intro acceptable
      obtain ⟨_, accepted⟩ := acceptable
      cases accepted

theorem acceptable_iff {record : Value} (notPositional : ∀ node, ¬ Positional record node) :
    Acceptable record ↔ (parseRecord record).isSome := by
  rw [Option.isSome_iff_exists]
  apply exists_congr
  intro node
  rw [parseRecord_eq_some_iff]
  exact (or_iff_left (notPositional node)).symm

/-- Objects are the only values that can be acceptable. -/
def isObject : Value → Bool
  | .object _ => true
  | _ => false

theorem acceptable_iff_isObject {record : Value} :
    Acceptable record ↔ (isObject record && (parseRecord record).isSome) = true := by
  cases record with
  | object entries =>
      rw [isObject, Bool.true_and]
      apply acceptable_iff
      intro node positional
      cases positional
  | null | bool | number | string | array =>
      refine iff_of_false ?_ (by simp [isObject])
      intro acceptable
      obtain ⟨_, accepted⟩ := acceptable
      cases accepted

instance : DecidablePred Acceptable := fun _ => decidable_of_iff _ acceptable_iff_isObject.symm

structure ExactAcceptance (records : List Value) : Prop where
  /-- One node for each acceptable element, in order, with that element's values. -/
  exact : List.Forall₂ Accepts (records.filter fun record => Acceptable record)
    (parseRecords records)
  others : ∀ before record after, records = before ++ record :: after → ¬ Acceptable record →
    parseRecords records = parseRecords (before ++ after)
  /-- `received - nodes.len()` does not underflow. -/
  no_longer : (parseRecords records).length ≤ records.length

/-- Acceptance is exact for the bodies in which no array spells a record. -/
theorem acceptance_exact_iff (records : List Value) :
    ExactAcceptance records ↔ ∀ record ∈ records, ∀ node, ¬ Positional record node := by
  constructor
  · intro exact record member node positional
    obtain ⟨before, after, rfl⟩ := List.append_of_mem member
    have unchanged := exact.others before record after rfl (not_acceptable_of_positional positional)
    have parsed := parseRecord_eq_some_iff.mpr (.inr positional)
    have lengths := congrArg List.length unchanged
    simp [parseRecords, parsed] at lengths
  · intro notPositional
    refine ⟨?_, ?_, length_parseRecords_le records⟩
    · apply forall₂_parseRecords
      · intro record member
        rw [Bool.eq_iff_iff, decide_eq_true_iff]
        exact acceptable_iff (notPositional record member)
      · intro record member node parsed
        exact (parseRecord_eq_some_iff.mp parsed).resolve_right (notPositional record member node)
    · intro before record after split notAcceptable
      subst split
      have skipped : parseRecord record = none := by
        rw [← Option.not_isSome_iff_eq_none, ← acceptable_iff (notPositional record (by simp))]
        exact notAcceptable
      simp [parseRecords, skipped]

/-- The values of a record as an array without field names. -/
def positionalRecord : Value :=
  .array [.string "02ab", .string "ACINQ", .number (.posInt 36010516297),
    .number (.posInt 1522941222)]

/-- An array is no record, and yet becomes a node. -/
theorem positional_record_accepted :
    parseRecords [positionalRecord] = [Domain.sampleNode "02ab"] ∧
      ¬ Acceptable positionalRecord ∧ ¬ ExactAcceptance [positionalRecord] := by
  have parsed : parseRecords [positionalRecord] = [Domain.sampleNode "02ab"] := by decide
  have rejected : ¬ Acceptable positionalRecord := by decide
  refine ⟨parsed, rejected, ?_⟩
  intro exact
  have contributes := exact.others [] positionalRecord [] rfl rejected
  rw [parsed] at contributes
  cases contributes

end BipaNodes.Source
