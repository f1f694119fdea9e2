import BipaNodes.Importer.RunOnce
import BipaNodes.Source.DtoProperties
import BipaNodes.Storage.PostgresProperties

/-! What a single import leaves behind: whether its result tells the truth
about the table, and when one record can block the others. -/

set_option autoImplicit false

namespace BipaNodes.Importer

open Domain (Node sampleNode)
open Source (SourceError Value parseRecord parseRecords parseRecords_append
  parseRecords_insert_none parseRecords_insert_some)
open Storage

theorem runOnce_of_nonempty {nodes : List Node} (nonempty : nodes ≠ []) (link : Link)
    (importedAt : Int) (table : List TableRow) :
    runOnce (.ok nodes) link importedAt table =
      match replaceAll link importedAt table nodes with
      | (.ok imported, stored) => (.ok { imported }, stored)
      | (.error error, stored) => (.error (.storage error), stored) := by
  have present : ¬ nodes.isEmpty = true := mt List.isEmpty_iff.mp nonempty
  exact if_neg present

theorem runOnce_ok_iff {link : Link} {importedAt : Int} {table stored : List TableRow}
    {fetched : Except SourceError (List Node)} {outcome : ImportOutcome} :
    runOnce fetched link importedAt table = (.ok outcome, stored) ↔
      ∃ nodes, fetched = .ok nodes ∧ nodes ≠ [] ∧ ReachesCommit link nodes ∧
        link .commit = .answered ∧ outcome.imported = nodes.length ∧
          stored = rowsOf importedAt nodes := by
  cases fetched with
  | error error => simp [runOnce]
  | ok nodes =>
      by_cases empty : nodes = []
      · simp [runOnce, empty]
      · rw [runOnce_of_nonempty empty]
        constructor
        · intro succeeded
          split at succeeded
          · rename_i imported _ replaced
            cases succeeded
            obtain ⟨reaches, answered, length, rows⟩ := replaceAll_ok_iff.mp replaced
            exact ⟨nodes, rfl, empty, reaches, answered, length, rows⟩
          · cases succeeded
        · intro conditions
          obtain ⟨_, same, _, reaches, answered, length, rows⟩ := conditions
          cases same
          rw [replaceAll_ok_iff.mpr ⟨reaches, answered, rfl, rfl⟩, rows, ← length]

/-!
## Results and the table
-/

/-- An error promises an untouched table, success the given list with ranks
0..n-1. -/
def ReplaceTellsTruth (importedAt : Int) (table : List TableRow) (nodes : List Node) :
    Except StorageError Nat × List TableRow → Prop
  | (.error _, stored) => stored = table
  | (.ok imported, stored) =>
      stored = rowsOf importedAt nodes ∧ Numbered stored ∧ imported = nodes.length

def ImportTellsTruth (importedAt : Int) (table : List TableRow)
    (fetched : Except SourceError (List Node)) :
    Except ImportError ImportOutcome × List TableRow → Prop
  | (.error _, stored) => stored = table
  | (.ok outcome, stored) =>
      ∃ nodes, fetched = .ok nodes ∧ stored = rowsOf importedAt nodes ∧ Numbered stored ∧
        outcome.imported = nodes.length

/-- The server has applied COMMIT and the connection is lost before the client
has read the acknowledgement. -/
def CommitReplyLost (link : Link) (nodes : List Node) : Prop :=
  ReachesCommit link nodes ∧ ∃ error, link .commit = .replyLost error

theorem replaceTellsTruth_iff {link : Link} {importedAt : Int} {table : List TableRow}
    {nodes : List Node} :
    ReplaceTellsTruth importedAt table nodes (replaceAll link importedAt table nodes) ↔
      (CommitReplyLost link nodes → table = rowsOf importedAt nodes) := by
  by_cases reaches : ReachesCommit link nodes
  · rw [replaceAll_of_reachesCommit reaches]
    cases delivery : link .commit with
    | answered =>
        have numbered : Numbered (rowsOf importedAt nodes) :=
          numbered_rowsOf reaches.2.inRange.length_le
        simp [ReplaceTellsTruth, CommitReplyLost, delivery, numbered]
    | notExecuted error => simp [ReplaceTellsTruth, CommitReplyLost, delivery]
    | replyLost error => simp [ReplaceTellsTruth, CommitReplyLost, delivery, reaches, eq_comm]
  · obtain ⟨error, failed⟩ := replaceAll_of_not_reachesCommit reaches importedAt table
    simp [failed, ReplaceTellsTruth, CommitReplyLost, reaches]

theorem importTellsTruth_of_nonempty {link : Link} {importedAt : Int} {table : List TableRow}
    {nodes : List Node} (nonempty : nodes ≠ []) :
    ImportTellsTruth importedAt table (.ok nodes) (runOnce (.ok nodes) link importedAt table) ↔
      ReplaceTellsTruth importedAt table nodes (replaceAll link importedAt table nodes) := by
  rw [runOnce_of_nonempty nonempty]
  obtain ⟨result, stored⟩ := replaceAll link importedAt table nodes
  cases result with
  | error error => exact Iff.rfl
  | ok imported => simp [ImportTellsTruth, ReplaceTellsTruth]

/-- Results tell the truth except when the acknowledgement of an applied COMMIT
is lost, unless the table already held the very rows that were committed. -/
theorem results_tell_truth_iff (link : Link) (importedAt : Int) (table : List TableRow) :
    (∀ nodes, ReplaceTellsTruth importedAt table nodes (replaceAll link importedAt table nodes) ↔
      (CommitReplyLost link nodes → table = rowsOf importedAt nodes)) ∧
    (∀ fetched,
      ImportTellsTruth importedAt table fetched (runOnce fetched link importedAt table) ↔
        ∀ nodes, fetched = .ok nodes → nodes ≠ [] →
          CommitReplyLost link nodes → table = rowsOf importedAt nodes) := by
  refine ⟨fun nodes => replaceTellsTruth_iff, ?_⟩
  intro fetched
  cases fetched with
  | error error => simp [runOnce, ImportTellsTruth]
  | ok nodes =>
      by_cases empty : nodes = []
      · subst empty
        simp [runOnce, ImportTellsTruth]
      · rw [importTellsTruth_of_nonempty empty, replaceTellsTruth_iff]
        constructor
        · intro truthful other same _
          cases same
          exact truthful
        · intro truthful
          exact truthful nodes rfl empty

def commitReplyLost : Link
  | .commit => .replyLost (.io "connection reset by peer")
  | _ => .answered

/-- The import of one node into an empty table returns an error, is logged as
keeping the previous snapshot, and has replaced it. -/
theorem lost_commit_reply_hides_replacement :
    replaceAll commitReplyLost 0 [] [sampleNode "02ab"] =
        (.error (.database (.io "connection reset by peer")), rowsOf 0 [sampleNode "02ab"]) ∧
      logResult (runOnce (.ok [sampleNode "02ab"]) commitReplyLost 0 []).1 =
        (.error, "import failed, keeping previous snapshot") ∧
      ¬ReplaceTellsTruth 0 [] [sampleNode "02ab"]
        (replaceAll commitReplyLost 0 [] [sampleNode "02ab"]) := by
  refine ⟨by decide, by decide, ?_⟩
  have replaced : replaceAll commitReplyLost 0 [] [sampleNode "02ab"] =
      (.error (.database (.io "connection reset by peer")), rowsOf 0 [sampleNode "02ab"]) := by
    decide
  rw [replaced]
  change ¬rowsOf 0 [sampleNode "02ab"] = []
  decide

/-!
## One bad record
-/

theorem runOnce_responsive_ok_iff {importedAt : Int} {table stored : List TableRow}
    {nodes : List Node} {outcome : ImportOutcome} :
    runOnce (.ok nodes) Link.responsive importedAt table = (.ok outcome, stored) ↔
      nodes ≠ [] ∧ Accepted nodes ∧ outcome.imported = nodes.length ∧
        stored = rowsOf importedAt nodes := by
  rw [runOnce_ok_iff]
  constructor
  · intro succeeded
    obtain ⟨_, same, nonempty, ⟨_, accepted⟩, _, length, rows⟩ := succeeded
    cases same
    exact ⟨nonempty, accepted, length, rows⟩
  · intro conditions
    obtain ⟨nonempty, accepted, length, rows⟩ := conditions
    exact ⟨nodes, rfl, nonempty, ⟨⟨rfl, rfl, rfl⟩, accepted⟩, rfl, length, rows⟩

/-- The import of `records` into `table`, fetched through `parse_records` and
stored by a responsive database, leaves the snapshot `listed`. -/
def Imports (importedAt : Int) (table : List TableRow) (records : List Value)
    (listed : List Node) : Prop :=
  ∃ outcome stored,
    runOnce (.ok (parseRecords records)) Link.responsive importedAt table = (.ok outcome, stored) ∧
      listNodes (.ok stored) = .ok listed

theorem parseRecords_wholeMicros {records : List Value} :
    ∀ node ∈ parseRecords records, WholeMicros node := by
  intro node member
  have whole := Source.parseRecords_wholeSeconds member
  exact ⟨by rw [whole], by rw [whole]; decide⟩

theorem imports_iff {importedAt : Int} {table : List TableRow} {records : List Value}
    {listed : List Node} :
    Imports importedAt table records listed ↔
      parseRecords records ≠ [] ∧ Accepted (parseRecords records) ∧
        listed = parseRecords records := by
  constructor
  · intro imported
    obtain ⟨outcome, stored, succeeded, list⟩ := imported
    obtain ⟨nonempty, accepted, _, rfl⟩ := runOnce_responsive_ok_iff.mp succeeded
    rw [listNodes_rowsOf accepted.inRange parseRecords_wholeMicros] at list
    cases list
    exact ⟨nonempty, accepted, rfl⟩
  · intro conditions
    obtain ⟨nonempty, accepted, rfl⟩ := conditions
    exact ⟨⟨(parseRecords records).length⟩, _,
      runOnce_responsive_ok_iff.mpr ⟨nonempty, accepted, rfl, rfl⟩,
      listNodes_rowsOf accepted.inRange parseRecords_wholeMicros⟩

def recordKey (record : Value) : Option String :=
  match Source.fromValue record with
  | .ok dto => some dto.publicKey
  | .error _ => none

/-- If the import of the other records succeeds, so does the import with
`record` among them, and the other nodes are stored in the same order. -/
def NeverBlocks (before : List Value) (record : Value) (after : List Value) : Prop :=
  ∀ importedAt table listed, Imports importedAt table (before ++ after) listed →
    ∀ laterAt laterTable, ∃ listedWith,
      Imports laterAt laterTable (before ++ record :: after) listedWith ∧
        (listed.filter fun node => recordKey record ≠ some node.publicKey).Sublist listedWith

/-- The other records can be imported: one of them is valid, the valid ones have
distinct keys, and Postgres can hold them. -/
def Importable (records : List Value) : Prop :=
  parseRecords records ≠ [] ∧ (∀ node ∈ parseRecords records, Storable node) ∧
    ((parseRecords records).map Node.publicKey).Nodup

/-- The record is skipped by validation, or the table can hold it along with
the others. -/
def Harmless (record : Value) (others : List Value) : Prop :=
  ∀ node, parseRecord record = some node →
    Storable node ∧ node.publicKey ∉ (parseRecords others).map Node.publicKey

theorem inRange_parseRecords {records : List Value} (short : records.length < 2 ^ 31) :
    InRange 0 (parseRecords records) := by
  constructor
  · intro node member
    exact Source.parseRecords_capacity_lt member
  · intro _
    have bound := Source.length_parseRecords_le records
    omega

theorem accepted_parseRecords_iff {records : List Value} (short : records.length < 2 ^ 31) :
    parseRecords records ≠ [] ∧ Accepted (parseRecords records) ↔ Importable records := by
  constructor
  · intro accepted
    exact ⟨accepted.1, accepted.2.storable, accepted.2.distinct⟩
  · intro importable
    exact ⟨importable.1, inRange_parseRecords short, importable.2.1, importable.2.2⟩

theorem importable_insert_iff {before after : List Value} {record : Value} {node : Node}
    (parsed : parseRecord record = some node) (importable : Importable (before ++ after)) :
    Importable (before ++ record :: after) ↔ Harmless record (before ++ after) := by
  obtain ⟨_, storable, distinct⟩ := importable
  have harmless : Harmless record (before ++ after) ↔
      Storable node ∧ node.publicKey ∉ (parseRecords (before ++ after)).map Node.publicKey := by
    constructor
    · intro each
      exact each node parsed
    · intro one other same
      rw [parsed] at same
      cases same
      exact one
  rw [harmless]
  rw [parseRecords_append] at storable distinct
  rw [List.map_append] at distinct
  rw [Importable, parseRecords_insert_some parsed, parseRecords_append, List.map_append,
    List.map_append, List.map_cons, List.nodup_middle, List.nodup_cons]
  constructor
  · intro conditions
    exact ⟨conditions.2.1 node (by simp), conditions.2.2.1⟩
  · intro conditions
    obtain ⟨nodeStorable, fresh⟩ := conditions
    refine ⟨by simp, ?_, fresh, distinct⟩
    intro other member
    rcases List.mem_append.mp member with earlier | later
    · exact storable other (List.mem_append_left _ earlier)
    · rcases List.mem_cons.mp later with rfl | later
      · exact nodeStorable
      · exact storable other (List.mem_append_right _ later)

/-- A record blocks nothing exactly when the others cannot be imported anyway,
or it is skipped, or the table can hold it beside them. -/
theorem record_never_blocks_iff (before : List Value) (record : Value) (after : List Value)
    (short : (before ++ record :: after).length < 2 ^ 31) :
    NeverBlocks before record after ↔
      (Importable (before ++ after) → Harmless record (before ++ after)) := by
  have shortOthers : (before ++ after).length < 2 ^ 31 := by
    rw [List.length_append, List.length_cons] at short
    rw [List.length_append]
    omega
  constructor
  · intro neverBlocks importable
    cases parsed : parseRecord record with
    | none =>
        intro node found
        rw [parsed] at found
        cases found
    | some node =>
        obtain ⟨nonempty, accepted⟩ := (accepted_parseRecords_iff shortOthers).mpr importable
        obtain ⟨listedWith, imported, _⟩ := neverBlocks 0 [] (parseRecords (before ++ after))
          (imports_iff.mpr ⟨nonempty, accepted, rfl⟩) 0 []
        obtain ⟨nonemptyWith, acceptedWith, _⟩ := imports_iff.mp imported
        exact (importable_insert_iff parsed importable).mp
          ((accepted_parseRecords_iff short).mp ⟨nonemptyWith, acceptedWith⟩)
  · intro harmlessIf importedAt table listed imported laterAt laterTable
    obtain ⟨nonempty, accepted, rfl⟩ := imports_iff.mp imported
    have importable := (accepted_parseRecords_iff shortOthers).mp ⟨nonempty, accepted⟩
    have importableWith : Importable (before ++ record :: after) := by
      cases parsed : parseRecord record with
      | none =>
          rw [Importable, parseRecords_insert_none parsed]
          exact importable
      | some node => exact (importable_insert_iff parsed importable).mpr (harmlessIf importable)
    obtain ⟨nonemptyWith, acceptedWith⟩ := (accepted_parseRecords_iff short).mpr importableWith
    refine ⟨_, imports_iff.mpr ⟨nonemptyWith, acceptedWith, rfl⟩, ?_⟩
    apply List.filter_sublist.trans
    cases parsed : parseRecord record with
    | none => rw [parseRecords_insert_none parsed]
    | some node =>
        rw [parseRecords_insert_some parsed, parseRecords_append]
        exact (List.Sublist.refl _).append (List.sublist_cons_self node _)

def sampleRecord (publicKey : String) : Value :=
  .object [("publicKey", .string publicKey), ("alias", .string "ACINQ"),
    ("capacity", .number (.posInt 36010516297)), ("firstSeen", .number (.posInt 1522941222))]

theorem record_never_blocks_iff_sample :
    NeverBlocks [sampleRecord "02ab"] (sampleRecord "03cd") [] ↔
      (Importable [sampleRecord "02ab"] → Harmless (sampleRecord "03cd") [sampleRecord "02ab"]) :=
  record_never_blocks_iff [sampleRecord "02ab"] (sampleRecord "03cd") [] (by decide)

/-- A second record of the same node fails the whole import. -/
theorem repeated_record_blocks_import :
    Imports 0 [] [sampleRecord "02ab"] [sampleNode "02ab"] ∧
      runOnce (.ok (parseRecords [sampleRecord "02ab", sampleRecord "02ab"])) Link.responsive 0 [] =
        (.error (.storage (.database (.database (.inl .uniqueViolation)))), []) ∧
      ¬NeverBlocks [sampleRecord "02ab"] (sampleRecord "02ab") [] := by
  have alone : Imports 0 [] [sampleRecord "02ab"] [sampleNode "02ab"] :=
    ⟨⟨1⟩, rowsOf 0 [sampleNode "02ab"], by decide, by decide⟩
  have repeated :
      runOnce (.ok (parseRecords [sampleRecord "02ab", sampleRecord "02ab"])) Link.responsive 0 [] =
        (.error (.storage (.database (.database (.inl .uniqueViolation)))), []) := by
    decide
  refine ⟨alone, repeated, ?_⟩
  intro neverBlocks
  obtain ⟨listedWith, ⟨outcome, stored, succeeded, _⟩, _⟩ := neverBlocks 0 [] _ alone 0 []
  cases repeated.symm.trans succeeded

end BipaNodes.Importer
