import BipaNodes.Storage.Postgres
import Mathlib.Data.List.Nodup
import Mathlib.Data.List.Sort

/-! The column arrays zip back to the nodes, the INSERT accepts exactly the
storable lists, and reading the rows by rank recovers the list. -/

set_option autoImplicit false

namespace BipaNodes.Storage

open Domain (DateTime Node)

/-!
## Conversions
-/

theorem capacityToDb_eq_ok {sats : UInt64} {column : Int64} :
    capacityToDb sats = .ok column ↔ sats.toNat < 2 ^ 63 ∧ column = Int64.ofNat sats.toNat := by
  unfold capacityToDb
  split
  · rename_i fits
    rw [and_iff_right fits, Except.ok.injEq, eq_comm]
  · rename_i tooLarge
    exact iff_of_false nofun fun accepted => tooLarge accepted.1

theorem rankToDb_eq_ok {index : Nat} {column : Int32} :
    rankToDb index = .ok column ↔ index < 2 ^ 31 ∧ column = Int32.ofNat index := by
  unfold rankToDb
  split
  · rename_i fits
    rw [and_iff_right fits, Except.ok.injEq, eq_comm]
  · rename_i tooLarge
    exact iff_of_false nofun fun accepted => tooLarge accepted.1

theorem toInt_ofNat_capacity {sats : UInt64} (fits : sats.toNat < 2 ^ 63) :
    (Int64.ofNat sats.toNat).toInt = sats.toNat :=
  Int64.toInt_ofNat_of_lt fits

theorem capacityFromDb_toDb {sats : UInt64} (fits : sats.toNat < 2 ^ 63) :
    capacityFromDb (Int64.ofNat sats.toNat) = .ok sats := by
  unfold capacityFromDb
  rw [toInt_ofNat_capacity fits, if_pos (Int.natCast_nonneg _), Int.toNat_natCast,
    UInt64.ofNat_toNat]

/-- Nothing is cut off from whole microseconds, on either side of the epoch. -/
theorem encodeTimestamp_of_wholeMicros {instant : DateTime}
    (wholeMicros : instant.nanos % 1000 = 0) :
    encodeTimestamp instant = instant.secs * 1000000 + (instant.nanos / 1000 : Nat) := by
  have exact : (instant.secs - timestampEpoch) * 1000000000 + (instant.nanos : Int) =
      1000 * ((instant.secs - timestampEpoch) * 1000000 + (instant.nanos / 1000 : Nat)) := by
    omega
  rw [encodeTimestamp, exact, Int.mul_tdiv_cancel_left _ (by decide)]
  omega

theorem decodeTimestamp_encode {instant : DateTime}
    (wholeMicros : instant.nanos % 1000 = 0) (noLeap : instant.nanos < 1000000000) :
    decodeTimestamp (encodeTimestamp instant) = .ok instant := by
  have secs : encodeTimestamp instant / 1000000 = instant.secs := by
    rw [encodeTimestamp_of_wholeMicros wholeMicros]
    omega
  have nanos : (encodeTimestamp instant % 1000000).toNat * 1000 = instant.nanos := by
    rw [encodeTimestamp_of_wholeMicros wholeMicros]
    omega
  rw [decodeTimestamp, secs, nanos, DateTime.fromTimestamp_self]

/-!
## Rows of a list
-/

def rowOf (importedAt : Int) (index : Nat) (node : Node) : TableRow where
  publicKey := node.publicKey
  «alias» := node.alias
  capacitySats := Int64.ofNat node.capacitySats.toNat
  firstSeen := encodeTimestamp node.firstSeen
  rank := Int32.ofNat index
  importedAt := importedAt

/-- The given list as rows, in its order with ranks from 0. -/
def rowsOf (importedAt : Int) (nodes : List Node) : List TableRow :=
  nodes.mapIdx (rowOf importedAt)

@[simp] theorem length_rowsOf (importedAt : Int) (nodes : List Node) :
    (rowsOf importedAt nodes).length = nodes.length := by
  simp [rowsOf]

@[simp] theorem map_publicKey_rowsOf (importedAt : Int) (nodes : List Node) :
    (rowsOf importedAt nodes).map TableRow.publicKey = nodes.map Node.publicKey := by
  apply List.ext_getElem
  · simp
  · intro index _ _
    simp [rowsOf, rowOf]

theorem map_rank_rowsOf {importedAt : Int} {nodes : List Node}
    (short : nodes.length ≤ 2 ^ 31) :
    (rowsOf importedAt nodes).map (fun row => row.rank.toInt) =
      (List.range nodes.length).map Int.ofNat := by
  apply List.ext_getElem
  · simp
  · intro index _ inRange
    have fits : index < 2 ^ 31 := by
      simp only [List.length_map, List.length_range] at inRange
      omega
    simp [rowsOf, rowOf, Int32.toInt_ofNat_of_lt fits]

/-!
## Column arrays
-/

def columnsOf (first : Nat) (nodes : List Node) : Columns where
  publicKeys := nodes.map Node.publicKey
  aliases := nodes.map Node.alias
  capacities := nodes.map fun node => Int64.ofNat node.capacitySats.toNat
  firstSeens := nodes.map Node.firstSeen
  ranks := (List.range' first nodes.length).map Int32.ofNat

def Columns.append (left right : Columns) : Columns where
  publicKeys := left.publicKeys ++ right.publicKeys
  aliases := left.aliases ++ right.aliases
  capacities := left.capacities ++ right.capacities
  firstSeens := left.firstSeens ++ right.firstSeens
  ranks := left.ranks ++ right.ranks

def InRange (first : Nat) (nodes : List Node) : Prop :=
  (∀ node ∈ nodes, node.capacitySats.toNat < 2 ^ 63) ∧ (nodes ≠ [] → first + nodes.length ≤ 2 ^ 31)

theorem inRange_cons_iff {first : Nat} {node : Node} {nodes : List Node} :
    InRange first (node :: nodes) ↔
      node.capacitySats.toNat < 2 ^ 63 ∧ first < 2 ^ 31 ∧ InRange (first + 1) nodes := by
  constructor
  · rintro ⟨capacities, short⟩
    have bound := short (List.cons_ne_nil node nodes)
    rw [List.length_cons] at bound
    exact ⟨capacities node List.mem_cons_self, by omega,
      fun other member => capacities other (List.mem_cons_of_mem node member),
      fun _ => by omega⟩
  · rintro ⟨capacity, rank, capacities, short⟩
    constructor
    · intro other member
      rcases List.mem_cons.mp member with rfl | member
      · exact capacity
      · exact capacities other member
    · intro _
      rw [List.length_cons]
      cases nodes with
      | nil => simp only [List.length_nil]; omega
      | cons second nodes =>
          have bound := short (List.cons_ne_nil second nodes)
          omega

theorem pushNodes_eq_ok {columns out : Columns} {first : Nat} {nodes : List Node} :
    pushNodes columns first nodes = .ok out ↔
      InRange first nodes ∧ out = columns.append (columnsOf first nodes) := by
  induction nodes generalizing columns first with
  | nil =>
      obtain ⟨publicKeys, aliases, capacities, firstSeens, ranks⟩ := columns
      simp [pushNodes, InRange, Columns.append, columnsOf, eq_comm]
  | cons node nodes ih =>
      rw [pushNodes, Result.bind_eq_ok, inRange_cons_iff]
      constructor
      · rintro ⟨capacity, capacityOk, rest⟩
        obtain ⟨rank, rankOk, rest⟩ := Result.bind_eq_ok.mp rest
        obtain ⟨capacityFits, rfl⟩ := capacityToDb_eq_ok.mp capacityOk
        obtain ⟨rankFits, rfl⟩ := rankToDb_eq_ok.mp rankOk
        obtain ⟨restFits, rfl⟩ := ih.mp rest
        refine ⟨⟨capacityFits, rankFits, restFits⟩, ?_⟩
        simp [Columns.append, columnsOf, List.range'_succ]
      · rintro ⟨⟨capacityFits, rankFits, restFits⟩, rfl⟩
        refine ⟨_, capacityToDb_eq_ok.mpr ⟨capacityFits, rfl⟩, Result.bind_eq_ok.mpr
          ⟨_, rankToDb_eq_ok.mpr ⟨rankFits, rfl⟩, ih.mpr ⟨restFits, ?_⟩⟩⟩
        simp [Columns.append, columnsOf, List.range'_succ]

theorem toColumns_eq_ok {nodes : List Node} {columns : Columns} :
    toColumns nodes = .ok columns ↔ InRange 0 nodes ∧ columns = columnsOf 0 nodes := by
  rw [toColumns, pushNodes_eq_ok]
  simp [Columns.append]

/-!
## The INSERT statement
-/

/-- Values that Postgres can hold: no U+0000 in the texts and no instant before
the start of `timestamptz`. -/
def Storable (node : Node) : Prop :=
  Char.ofNat 0 ∉ node.publicKey.toList ∧ Char.ofNat 0 ∉ node.alias.toList ∧
    minTimestamp ≤ encodeTimestamp node.firstSeen

instance (node : Node) : Decidable (Storable node) :=
  inferInstanceAs (Decidable (_ ∧ _ ∧ _))

theorem bindText_eq_ok {text out : String} :
    bindText text = .ok out ↔ Char.ofNat 0 ∉ text.toList ∧ out = text := by
  unfold bindText
  split
  · rename_i present
    simp [present]
  · rename_i absent
    simp [absent, eq_comm]

theorem encodeTimestamp_lt (instant : DateTime) : encodeTimestamp instant < endTimestamp := by
  have upper := instant.secs_le
  have fraction := instant.nanos_lt
  unfold Domain.maxUnixSecs at upper
  have below : (instant.secs - timestampEpoch) * 1000000000 + (instant.nanos : Int) ≤
      9223371331199999999 * 1000 := by
    unfold timestampEpoch
    omega
  have cut := Int.tdiv_le_tdiv (by decide : (0 : Int) < 1000) below
  rw [Int.mul_tdiv_cancel _ (by decide)] at cut
  unfold encodeTimestamp endTimestamp
  unfold timestampEpoch at cut ⊢
  omega

theorem bindTimestamp_eq_ok {instant : DateTime} {out : Int} :
    bindTimestamp instant = .ok out ↔
      minTimestamp ≤ encodeTimestamp instant ∧ out = encodeTimestamp instant := by
  unfold bindTimestamp
  have upper := encodeTimestamp_lt instant
  by_cases lower : minTimestamp ≤ encodeTimestamp instant
  · simp [lower, upper, eq_comm]
  · simp [lower]

def boundColumnsOf (nodes : List Node) : BoundColumns where
  publicKeys := nodes.map Node.publicKey
  aliases := nodes.map Node.alias
  capacities := nodes.map fun node => Int64.ofNat node.capacitySats.toNat
  firstSeens := nodes.map fun node => encodeTimestamp node.firstSeen
  ranks := (List.range' 0 nodes.length).map Int32.ofNat

private theorem mapM_columns_eq_ok {Column Bound : Type} {bind : Column → Except DataError Bound}
    {accepts : Column → Prop} {convert : Column → Bound} (column : Node → Column)
    (bind_eq_ok : ∀ value out, bind value = .ok out ↔ accepts value ∧ out = convert value)
    {nodes : List Node} {outs : List Bound} :
    (nodes.map column).mapM bind = .ok outs ↔
      (∀ node ∈ nodes, accepts (column node)) ∧ outs = nodes.map fun node => convert (column node) := by
  rw [Result.mapM_eq_ok]
  induction nodes generalizing outs with
  | nil => simp
  | cons node nodes ih =>
      cases outs with
      | nil => simp
      | cons out outs =>
          rw [List.map_cons, List.forall₂_cons, ih, bind_eq_ok, List.forall_mem_cons,
            List.map_cons, List.cons.injEq]
          exact ⟨fun ⟨⟨first, same⟩, rest, others⟩ => ⟨⟨first, rest⟩, same, others⟩,
            fun ⟨⟨first, rest⟩, same, others⟩ => ⟨⟨first, same⟩, rest, others⟩⟩

private theorem mapM_bindText_eq_ok (column : Node → String) {nodes : List Node}
    {outs : List String} :
    (nodes.map column).mapM bindText = .ok outs ↔
      (∀ node ∈ nodes, Char.ofNat 0 ∉ (column node).toList) ∧ outs = nodes.map column :=
  @mapM_columns_eq_ok _ _ bindText (fun text => Char.ofNat 0 ∉ text.toList) id column
    (fun _ _ => bindText_eq_ok) nodes outs

private theorem mapM_bindTimestamp_eq_ok {nodes : List Node} {outs : List Int} :
    (nodes.map Node.firstSeen).mapM bindTimestamp = .ok outs ↔
      (∀ node ∈ nodes, minTimestamp ≤ encodeTimestamp node.firstSeen) ∧
        outs = nodes.map fun node => encodeTimestamp node.firstSeen :=
  mapM_columns_eq_ok Node.firstSeen fun _ _ => bindTimestamp_eq_ok

theorem bind_columnsOf_eq_ok {nodes : List Node} {bound : BoundColumns} :
    (columnsOf 0 nodes).bind = .ok bound ↔
      (∀ node ∈ nodes, Storable node) ∧ bound = boundColumnsOf nodes := by
  unfold Columns.bind
  constructor
  · intro accepted
    obtain ⟨publicKeys, keysOk, accepted⟩ := Result.bind_eq_ok.mp accepted
    obtain ⟨aliases, aliasesOk, accepted⟩ := Result.bind_eq_ok.mp accepted
    obtain ⟨firstSeens, seensOk, accepted⟩ := Result.bind_eq_ok.mp accepted
    cases Result.pure_eq_ok.mp accepted
    obtain ⟨keysHold, rfl⟩ := (mapM_bindText_eq_ok Node.publicKey).mp keysOk
    obtain ⟨aliasesHold, rfl⟩ := (mapM_bindText_eq_ok Node.alias).mp aliasesOk
    obtain ⟨seensHold, rfl⟩ := mapM_bindTimestamp_eq_ok.mp seensOk
    exact ⟨fun node member => ⟨keysHold node member, aliasesHold node member,
      seensHold node member⟩, rfl⟩
  · rintro ⟨storable, rfl⟩
    have keys := (mapM_bindText_eq_ok Node.publicKey).mpr
      ⟨fun node member => (storable node member).1, rfl⟩
    have aliases := (mapM_bindText_eq_ok Node.alias).mpr
      ⟨fun node member => (storable node member).2.1, rfl⟩
    have seens := mapM_bindTimestamp_eq_ok.mpr
      ⟨fun node member => (storable node member).2.2, rfl⟩
    simp only [columnsOf, keys, aliases, seens]
    rfl

/-- Arrays of one length: UNNEST pads nothing with NULL. -/
theorem unnest_boundColumnsOf (nodes : List Node) :
    (boundColumnsOf nodes).unnest = nodes.mapIdx fun index node =>
      { publicKey := some node.publicKey
        «alias» := some node.alias
        capacitySats := some (Int64.ofNat node.capacitySats.toNat)
        firstSeen := some (encodeTimestamp node.firstSeen)
        rank := some (Int32.ofNat index) } := by
  apply List.ext_getElem
  · simp [BoundColumns.unnest, boundColumnsOf]
  · intro index _ inRange
    rw [List.length_mapIdx] at inRange
    simp [BoundColumns.unnest, boundColumnsOf, inRange]

theorem mapM_check_eq_ok {importedAt : Int} {nodes : List Node}
    (capacities : ∀ node ∈ nodes, node.capacitySats.toNat < 2 ^ 63) :
    (boundColumnsOf nodes).unnest.mapM (RowValues.check importedAt) =
      .ok (rowsOf importedAt nodes) := by
  rw [unnest_boundColumnsOf, Result.mapM_eq_ok, List.forall₂_iff_get]
  refine ⟨by simp, ?_⟩
  intro index inRange _
  rw [List.length_mapIdx] at inRange
  have fits := capacities nodes[index] (List.getElem_mem inRange)
  simp only [List.get_eq_getElem, List.getElem_mapIdx, rowsOf, RowValues.check, notNull, rowOf,
    bind, Except.bind, toInt_ofNat_capacity fits, Int.natCast_nonneg, if_true]
  rfl

/-- The INSERT of a list is accepted, its keys apart, when all values can be
held, and then writes the list as rows. -/
theorem toRows_eq_ok {importedAt : Int} {nodes : List Node} {rows : List TableRow}
    (capacities : ∀ node ∈ nodes, node.capacitySats.toNat < 2 ^ 63) :
    (columnsOf 0 nodes).toRows importedAt = .ok rows ↔
      (∀ node ∈ nodes, Storable node) ∧ rows = rowsOf importedAt nodes := by
  unfold Columns.toRows
  rw [Result.bind_eq_ok]
  constructor
  · rintro ⟨bound, bindOk, checked⟩
    obtain ⟨storable, rfl⟩ := bind_columnsOf_eq_ok.mp bindOk
    rw [mapM_check_eq_ok capacities] at checked
    cases checked
    exact ⟨storable, rfl⟩
  · rintro ⟨storable, rfl⟩
    exact ⟨_, bind_columnsOf_eq_ok.mpr ⟨storable, rfl⟩, mapM_check_eq_ok capacities⟩

theorem insertRows_eq_ok {table rows out : List TableRow}
    (unique : (table.map TableRow.publicKey).Nodup) :
    insertRows table rows = .ok out ↔
      ((table ++ rows).map TableRow.publicKey).Nodup ∧ out = table ++ rows := by
  induction rows generalizing table with
  | nil => simp [insertRows, unique, eq_comm]
  | cons row rows ih =>
      rw [insertRows]
      split
      · rename_i present
        constructor
        · intro accepted
          cases accepted
        · rintro ⟨nodup, _⟩
          rw [List.map_append, List.nodup_append] at nodup
          exact absurd rfl (nodup.2.2 _ present _ List.mem_cons_self)
      · rename_i absent
        have extended : ((table ++ [row]).map TableRow.publicKey).Nodup := by
          rw [List.map_append, List.nodup_append]
          refine ⟨unique, by simp, ?_⟩
          intro key member other otherMember same
          have sameRow : other = row.publicKey := by simpa using otherMember
          exact absent (sameRow ▸ same ▸ member)
        rw [ih extended, List.append_assoc, List.singleton_append]

/-!
## Replacing the table
-/

/-- A list that the table can hold as a whole. -/
structure Accepted (nodes : List Node) : Prop where
  inRange : InRange 0 nodes
  storable : ∀ node ∈ nodes, Storable node
  distinct : (nodes.map Node.publicKey).Nodup

theorem insertRows_rowsOf_eq_ok {importedAt : Int} {nodes : List Node} {view : List TableRow} :
    insertRows [] (rowsOf importedAt nodes) = .ok view ↔
      (nodes.map Node.publicKey).Nodup ∧ view = rowsOf importedAt nodes := by
  rw [insertRows_eq_ok (by simp), List.nil_append, map_publicKey_rowsOf]

def Link.AnswersBody (link : Link) : Prop :=
  link .begin = .answered ∧ link .delete = .answered ∧ link .insert = .answered

theorem receive_eq_ok {Reply : Type} {delivery : Delivery} {executed : Except DataError Reply}
    {reply : Reply} :
    delivery.receive executed = .ok reply ↔ delivery = .answered ∧ executed = .ok reply := by
  cases delivery with
  | answered => simp [Delivery.receive, Result.mapError_eq_ok]
  | notExecuted error => simp [Delivery.receive]
  | replyLost error => simp [Delivery.receive]

/-- Up to COMMIT the transaction comes through exactly on an accepted list and
then sees that list alone, whatever the table held. -/
theorem transactionView_eq_ok {link : Link} {importedAt : Int} {table view : List TableRow}
    {nodes : List Node} (inRange : InRange 0 nodes) :
    transactionView link importedAt table (columnsOf 0 nodes) = .ok view ↔
      link.AnswersBody ∧ Accepted nodes ∧ view = rowsOf importedAt nodes := by
  unfold transactionView
  constructor
  · intro opened
    obtain ⟨_, begun, opened⟩ := Result.bind_eq_ok.mp opened
    obtain ⟨afterDelete, deleted, opened⟩ := Result.bind_eq_ok.mp opened
    obtain ⟨beginAnswered, _⟩ := receive_eq_ok.mp begun
    obtain ⟨deleteAnswered, emptied⟩ := receive_eq_ok.mp deleted
    obtain ⟨insertAnswered, inserted⟩ := receive_eq_ok.mp opened
    cases emptied
    obtain ⟨rows, bound, inserted⟩ := Result.bind_eq_ok.mp inserted
    obtain ⟨storable, rfl⟩ := (toRows_eq_ok inRange.1).mp bound
    rw [List.filter_false] at inserted
    obtain ⟨distinct, rfl⟩ := insertRows_rowsOf_eq_ok.mp inserted
    exact ⟨⟨beginAnswered, deleteAnswered, insertAnswered⟩, ⟨inRange, storable, distinct⟩, rfl⟩
  · rintro ⟨⟨beginAnswered, deleteAnswered, insertAnswered⟩, accepted, rfl⟩
    have bound : (columnsOf 0 nodes).toRows importedAt = .ok (rowsOf importedAt nodes) :=
      (toRows_eq_ok inRange.1).mpr ⟨accepted.storable, rfl⟩
    have inserted : insertRows [] (rowsOf importedAt nodes) = .ok (rowsOf importedAt nodes) :=
      insertRows_rowsOf_eq_ok.mpr ⟨accepted.distinct, rfl⟩
    simp only [beginAnswered, deleteAnswered, insertAnswered, Delivery.receive, Except.mapError,
      bind, Except.bind, bound, List.filter_false, inserted]

def ReachesCommit (link : Link) (nodes : List Node) : Prop :=
  link.AnswersBody ∧ Accepted nodes

/-- Once COMMIT is sent, its delivery alone decides result and table. -/
theorem replaceAll_of_reachesCommit {link : Link} {nodes : List Node}
    (reaches : ReachesCommit link nodes) (importedAt : Int) (table : List TableRow) :
    replaceAll link importedAt table nodes =
      match link .commit with
      | .answered => (.ok nodes.length, rowsOf importedAt nodes)
      | .notExecuted error => (.error (.database error), table)
      | .replyLost error => (.error (.database error), rowsOf importedAt nodes) := by
  obtain ⟨answers, accepted⟩ := reaches
  have columns : toColumns nodes = .ok (columnsOf 0 nodes) :=
    toColumns_eq_ok.mpr ⟨accepted.inRange, rfl⟩
  have view : transactionView link importedAt table (columnsOf 0 nodes) =
      .ok (rowsOf importedAt nodes) :=
    (transactionView_eq_ok accepted.inRange).mpr ⟨answers, accepted, rfl⟩
  unfold replaceAll
  cases link .commit <;> simp only [columns, view]

/-- A call that fails before COMMIT reports it and leaves the table alone. -/
theorem replaceAll_of_not_reachesCommit {link : Link} {nodes : List Node}
    (stops : ¬ReachesCommit link nodes) (importedAt : Int) (table : List TableRow) :
    ∃ error, replaceAll link importedAt table nodes = (.error error, table) := by
  unfold replaceAll
  cases built : toColumns nodes with
  | error error => exact ⟨error, rfl⟩
  | ok columns =>
      obtain ⟨inRange, rfl⟩ := toColumns_eq_ok.mp built
      cases opened : transactionView link importedAt table (columnsOf 0 nodes) with
      | error error => exact ⟨.database error, by simp only [opened]⟩
      | ok view =>
          obtain ⟨answers, accepted, _⟩ := (transactionView_eq_ok inRange).mp opened
          exact absurd ⟨answers, accepted⟩ stops

theorem replaceAll_ok_iff {link : Link} {importedAt : Int} {table stored : List TableRow}
    {nodes : List Node} {imported : Nat} :
    replaceAll link importedAt table nodes = (.ok imported, stored) ↔
      ReachesCommit link nodes ∧ link .commit = .answered ∧ imported = nodes.length ∧
        stored = rowsOf importedAt nodes := by
  by_cases reaches : ReachesCommit link nodes
  · rw [replaceAll_of_reachesCommit reaches]
    cases delivery : link .commit with
    | answered => simp [reaches, eq_comm]
    | notExecuted error => simp
    | replyLost error => simp
  · obtain ⟨error, failed⟩ := replaceAll_of_not_reachesCommit reaches importedAt table
    simp [failed, reaches]

/-!
## Listing the table
-/

/-- Ranks that are exactly 0..n-1, in order. -/
def Numbered (rows : List TableRow) : Prop :=
  rows.map (fun row => row.rank.toInt) = (List.range rows.length).map Int.ofNat

theorem Numbered.nodup {rows : List TableRow} (numbered : Numbered rows) :
    (rows.map fun row => row.rank.toInt).Nodup := by
  rw [numbered]
  exact (List.nodup_range).map fun _ _ same => Int.ofNat.inj same

theorem Numbered.pairwise {rows : List TableRow} (numbered : Numbered rows) :
    rows.Pairwise fun left right => left.rank.toInt ≤ right.rank.toInt := by
  have sorted : ((List.range rows.length).map Int.ofNat).Pairwise (· ≤ ·) := by
    rw [List.pairwise_map]
    exact List.pairwise_le_range.imp fun le => Int.ofNat_le.mpr le
  rw [← numbered, List.pairwise_map] at sorted
  exact sorted

/-- Distinct ranks leave one arrangement only, so the order in which the rows
were kept cannot show. -/
theorem Numbered.delivered_eq {rows stored delivered : List TableRow} (numbered : Numbered rows)
    (kept : stored.Perm rows) (ordered : OrderedByRank stored delivered) : delivered = rows := by
  have arrangement : delivered.Perm rows := ordered.1.trans kept
  apply List.Perm.eq_of_pairwise _ ordered.2 numbered.pairwise arrangement
  intro left right leftMember rightMember le ge
  exact List.inj_on_of_nodup_map numbered.nodup (arrangement.mem_iff.mp leftMember) rightMember
    (le_antisymm le ge)

theorem numbered_rowsOf {importedAt : Int} {nodes : List Node} (short : nodes.length ≤ 2 ^ 31) :
    Numbered (rowsOf importedAt nodes) := by
  rw [Numbered, map_rank_rowsOf short, length_rowsOf]

theorem InRange.length_le {nodes : List Node} (inRange : InRange 0 nodes) :
    nodes.length ≤ 2 ^ 31 := by
  cases nodes with
  | nil => exact Nat.zero_le _
  | cons node nodes =>
      have bound := inRange.2 (List.cons_ne_nil node nodes)
      omega

def WholeMicros (node : Node) : Prop :=
  node.firstSeen.nanos % 1000 = 0 ∧ node.firstSeen.nanos < 1000000000

theorem select_rowOf {importedAt : Int} {index : Nat} {node : Node} (whole : WholeMicros node) :
    (rowOf importedAt index node).select =
      .ok ⟨node.publicKey, node.alias, Int64.ofNat node.capacitySats.toNat, node.firstSeen⟩ := by
  simp only [TableRow.select, rowOf, decodeTimestamp_encode whole.1 whole.2, bind, Except.bind,
    pure, Except.pure]

theorem listNodes_rowsOf {importedAt : Int} {nodes : List Node} (inRange : InRange 0 nodes)
    (whole : ∀ node ∈ nodes, WholeMicros node) :
    listNodes (.ok (rowsOf importedAt nodes)) = .ok nodes := by
  have selected : (rowsOf importedAt nodes).mapM TableRow.select = .ok (nodes.map fun node =>
      ⟨node.publicKey, node.alias, Int64.ofNat node.capacitySats.toNat, node.firstSeen⟩) := by
    rw [Result.mapM_eq_ok, List.forall₂_iff_get]
    refine ⟨by simp, ?_⟩
    intro index _ inBounds
    rw [List.length_map] at inBounds
    simp only [rowsOf, List.get_eq_getElem, List.getElem_mapIdx, List.getElem_map]
    exact select_rowOf (whole nodes[index] (List.getElem_mem inBounds))
  have converted : (nodes.map fun node => (⟨node.publicKey, node.alias,
      Int64.ofNat node.capacitySats.toNat, node.firstSeen⟩ : NodeRow)).mapM NodeRow.toNode =
        .ok nodes := by
    rw [Result.mapM_eq_ok, List.forall₂_map_left_iff]
    apply List.forall₂_same.mpr
    intro node member
    simp only [NodeRow.toNode, capacityFromDb_toDb (inRange.1 node member), bind, Except.bind,
      pure, Except.pure]
  simp only [listNodes, bind, Except.bind, selected, Except.mapError, converted]

end BipaNodes.Storage
