import BipaNodes.Storage.Concurrent

/-! Lists that no column can hold are rejected before any SQL runs, and every
list that is committed comes back unchanged. -/

set_option autoImplicit false

namespace BipaNodes.Storage

open Domain (Node sampleNode)

/-!
## Rejection
-/

/-- A capacity above `i64::MAX`, or more nodes than there are ranks. -/
def TooLarge (nodes : List Node) : Prop :=
  (∃ node ∈ nodes, 2 ^ 63 ≤ node.capacitySats.toNat) ∨ 2 ^ 31 < nodes.length

theorem tooLarge_iff {nodes : List Node} : TooLarge nodes ↔ ¬ InRange 0 nodes := by
  constructor
  · intro tooLarge inRange
    rcases tooLarge with large | long
    · obtain ⟨node, member, large⟩ := large
      exact Nat.not_lt.mpr large (inRange.1 node member)
    · exact Nat.not_lt.mpr inRange.length_le long
  · intro outside
    by_contra fits
    apply outside
    constructor
    · intro node member
      exact Nat.not_le.mp fun large => fits (.inl ⟨node, member, large⟩)
    · intro _
      rw [Nat.zero_add]
      exact Nat.not_lt.mp fun long => fits (.inr long)

theorem pushNodes_error {columns : Columns} {first : Nat} {nodes : List Node}
    {error : StorageError} (failed : pushNodes columns first nodes = .error error) :
    ∃ field value, error = .outOfRange field value := by
  induction nodes generalizing columns first with
  | nil => cases failed
  | cons node nodes ih =>
      by_cases capacityFits : node.capacitySats.toNat < 2 ^ 63
      · by_cases rankFits : first < 2 ^ 31
        · rw [pushNodes, capacityToDb, if_pos capacityFits, rankToDb, if_pos rankFits] at failed
          exact ih failed
        · rw [pushNodes, capacityToDb, if_pos capacityFits, rankToDb, if_neg rankFits] at failed
          cases failed
          exact ⟨_, _, rfl⟩
      · rw [pushNodes, capacityToDb, if_neg capacityFits] at failed
        cases failed
        exact ⟨_, _, rfl⟩

theorem toColumns_of_tooLarge {nodes : List Node} (tooLarge : TooLarge nodes) :
    ∃ field value, toColumns nodes = .error (.outOfRange field value) := by
  cases built : toColumns nodes with
  | error error =>
      obtain ⟨field, value, rfl⟩ := pushNodes_error built
      exact ⟨field, value, rfl⟩
  | ok columns => exact absurd (toColumns_eq_ok.mp built).1 (tooLarge_iff.mp tooLarge)

theorem replaceAll_of_tooLarge {nodes : List Node} (tooLarge : TooLarge nodes) :
    ∃ field value, ∀ link importedAt table,
      replaceAll link importedAt table nodes = (.error (.outOfRange field value), table) := by
  obtain ⟨field, value, rejected⟩ := toColumns_of_tooLarge tooLarge
  refine ⟨field, value, ?_⟩
  intro link importedAt table
  rw [replaceAll, rejected]

theorem replaceAll_outOfRange_iff {link : Link} {importedAt : Int} {table : List TableRow}
    {nodes : List Node} :
    (∃ field value,
      (replaceAll link importedAt table nodes).1 = .error (.outOfRange field value)) ↔
        TooLarge nodes := by
  constructor
  · intro rejected
    obtain ⟨field, value, rejected⟩ := rejected
    rw [tooLarge_iff]
    intro inRange
    rw [replaceAll, toColumns_eq_ok.mpr ⟨inRange, rfl⟩] at rejected
    -- past the columns, every error is the client's
    dsimp only at rejected
    split at rejected
    · cases rejected
    · split at rejected <;> cases rejected
  · intro tooLarge
    obtain ⟨field, value, rejected⟩ := replaceAll_of_tooLarge tooLarge
    exact ⟨field, value, by rw [rejected]⟩

/-- Not even BEGIN is sent. -/
theorem begin_of_tooLarge {nodes : List Node} (tooLarge : TooLarge nodes) {Tid : Type}
    [DecidableEq Tid] {calls : Tid → Call} {tid : Tid} (same : (calls tid).nodes = nodes)
    (state : Replacement.State Tid TableRow) :
    (database calls).step state (.begin tid) = none := by
  obtain ⟨field, value, rejected⟩ := toColumns_of_tooLarge tooLarge
  have closed : (program calls).opens tid = false := by
    dsimp only [program]
    rw [same, rejected]
    rfl
  change state.begin (program calls) tid = none
  unfold Replacement.State.begin
  split
  · rw [closed]
    rfl
  · rfl

/-!
## Column arrays
-/

/-- Five arrays of one length which, read across, are the nodes and their
positions. -/
structure ZipsBack (nodes : List Node) (columns : Columns) : Prop where
  lengths : columns.publicKeys.length = nodes.length ∧ columns.aliases.length = nodes.length ∧
    columns.capacities.length = nodes.length ∧ columns.firstSeens.length = nodes.length ∧
      columns.ranks.length = nodes.length
  zips : ∀ (index : Nat) (node : Node), nodes[index]? = some node →
    columns.publicKeys[index]? = some node.publicKey ∧
      columns.aliases[index]? = some node.alias ∧
      columns.capacities[index]?.map Int64.toInt = some (node.capacitySats.toNat : Int) ∧
      columns.firstSeens[index]? = some node.firstSeen ∧
      columns.ranks[index]?.map Int32.toInt = some (index : Int)

theorem zipsBack_columnsOf {nodes : List Node} (inRange : InRange 0 nodes) :
    ZipsBack nodes (columnsOf 0 nodes) where
  lengths := by simp [columnsOf]
  zips := by
    intro index node found
    obtain ⟨inside, _⟩ := List.getElem?_eq_some_iff.mp found
    have capacity := inRange.1 node (List.mem_of_getElem? found)
    have rank : index < 2 ^ 31 := Nat.lt_of_lt_of_le inside inRange.length_le
    have position : (List.range' 0 nodes.length)[index]? = some index := by
      rw [List.getElem?_range' inside, Nat.zero_add, Nat.one_mul]
    simp only [columnsOf, List.getElem?_map, found, position, Option.map_some,
      toInt_ofNat_capacity capacity, Int32.toInt_ofNat_of_lt rank, and_self]

/-!
## Round trip
-/

/-- The server applies COMMIT, whether or not its reply arrives. -/
def Commits (link : Link) (importedAt : Int) (table : List TableRow) (nodes : List Node) : Prop :=
  ∃ columns view, toColumns nodes = .ok columns ∧
    transactionView link importedAt table columns = .ok view ∧
      ∀ error, link .commit ≠ .notExecuted error

theorem stored_of_commits {link : Link} {importedAt : Int} {table : List TableRow}
    {nodes : List Node} (commits : Commits link importedAt table nodes) :
    InRange 0 nodes ∧ (replaceAll link importedAt table nodes).2 = rowsOf importedAt nodes := by
  obtain ⟨columns, view, built, opened, applied⟩ := commits
  obtain ⟨inRange, rfl⟩ := toColumns_eq_ok.mp built
  obtain ⟨answers, accepted, _⟩ := (transactionView_eq_ok inRange).mp opened
  refine ⟨inRange, ?_⟩
  rw [replaceAll_of_reachesCommit ⟨answers, accepted⟩]
  cases delivery : link .commit with
  | answered => rfl
  | notExecuted error => exact absurd delivery (applied error)
  | replyLost error => rfl

/-- `list_nodes` returns the list however the rows are kept. -/
def ListsAs (stored : List TableRow) (nodes : List Node) : Prop :=
  ∀ kept delivered, kept.Perm stored → OrderedByRank kept delivered →
    listNodes (.ok delivered) = .ok nodes

theorem listsAs_rowsOf {importedAt : Int} {nodes : List Node} (inRange : InRange 0 nodes)
    (whole : ∀ node ∈ nodes, node.firstSeen.nanos = 0) :
    ListsAs (rowsOf importedAt nodes) nodes := by
  intro kept delivered arrangement ordered
  rw [(numbered_rowsOf inRange.length_le).delivered_eq arrangement ordered]
  apply listNodes_rowsOf inRange
  intro node member
  have wholeSecond := whole node member
  exact ⟨by rw [wholeSecond], by rw [wholeSecond]; decide⟩

/-- Calls one after the other, as long as they succeed. -/
def replaceInTurn (table : List TableRow) :
    List (Link × Int × List Node) → Except StorageError (List TableRow)
  | [] => .ok table
  | (link, importedAt, nodes) :: calls =>
      match replaceAll link importedAt table nodes with
      | (.ok _, stored) => replaceInTurn stored calls
      | (.error error, _) => .error error

theorem replaceInTurn_concat {table stored : List TableRow}
    {earlier : List (Link × Int × List Node)} {link : Link} {importedAt : Int} {nodes : List Node}
    (ran : replaceInTurn table (earlier ++ [(link, importedAt, nodes)]) = .ok stored) :
    InRange 0 nodes ∧ stored = rowsOf importedAt nodes := by
  induction earlier generalizing table with
  | nil =>
      rw [List.nil_append, replaceInTurn] at ran
      split at ran
      · rename_i imported after replaced
        cases ran
        obtain ⟨reaches, _, _, rows⟩ := replaceAll_ok_iff.mp replaced
        exact ⟨reaches.2.inRange, rows⟩
      · cases ran
  | cons call earlier ih =>
      obtain ⟨firstLink, firstAt, first⟩ := call
      rw [List.cons_append, replaceInTurn] at ran
      split at ran
      · exact ih ran
      · cases ran

structure RoundTrips (nodes : List Node) : Prop where
  out_of_range_iff : ∀ link importedAt table,
    (∃ field value,
      (replaceAll link importedAt table nodes).1 = .error (.outOfRange field value)) ↔
        TooLarge nodes
  /-- No exchange with the database has a say in it. -/
  untouched : TooLarge nodes → ∃ field value, ∀ link importedAt table,
    replaceAll link importedAt table nodes = (.error (.outOfRange field value), table)
  not_begun : TooLarge nodes → ∀ {Tid : Type} [DecidableEq Tid] (calls : Tid → Call) (tid : Tid),
    (calls tid).nodes = nodes → ∀ state, (database calls).step state (.begin tid) = none
  zips_back : ¬ TooLarge nodes → ∃ columns, toColumns nodes = .ok columns ∧ ZipsBack nodes columns
  lists_back : ∀ link importedAt table, Commits link importedAt table nodes →
    ListsAs (replaceAll link importedAt table nodes).2 nodes
  last_wins : ∀ table earlier link importedAt stored,
    replaceInTurn table (earlier ++ [(link, importedAt, nodes)]) = .ok stored →
      stored = rowsOf importedAt nodes ∧ ListsAs stored nodes

/-- Lists of whole-second nodes are rejected exactly where a value does not fit,
and otherwise survive the five columns and the table. -/
theorem codec_round_trips (nodes : List Node)
    (whole : ∀ node ∈ nodes, node.firstSeen.nanos = 0) : RoundTrips nodes where
  out_of_range_iff := fun _ _ _ => replaceAll_outOfRange_iff
  untouched := replaceAll_of_tooLarge
  not_begun := fun tooLarge _ _ _ _ same state => begin_of_tooLarge tooLarge same state
  zips_back := by
    intro fits
    have inRange := not_not.mp (mt tooLarge_iff.mpr fits)
    exact ⟨columnsOf 0 nodes, toColumns_eq_ok.mpr ⟨inRange, rfl⟩, zipsBack_columnsOf inRange⟩
  lists_back := by
    intro link importedAt table commits
    obtain ⟨inRange, stored⟩ := stored_of_commits commits
    rw [stored]
    exact listsAs_rowsOf inRange whole
  last_wins := by
    intro table earlier link importedAt stored ran
    obtain ⟨inRange, rfl⟩ := replaceInTurn_concat ran
    exact ⟨rfl, listsAs_rowsOf inRange whole⟩

theorem codec_round_trips_sample : RoundTrips [sampleNode "02ab", sampleNode "03cd"] :=
  codec_round_trips [sampleNode "02ab", sampleNode "03cd"] (by decide)

end BipaNodes.Storage
