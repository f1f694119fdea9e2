import BipaNodes.Domain.Node
import BipaNodes.Lib.Result
import BipaNodes.Storage.Error
import Mathlib.Algebra.Group.Nat.Defs

/-!
# PostgreSQL repository

The `nodes` table, the conversions between nodes and rows, and the two
operations of `PgNodeRepository` as one caller sees them. The operations are
seen with several transactions at once in `Storage.Concurrent`.
-/

set_option autoImplicit false

namespace BipaNodes.Storage

open Domain (DateTime Node)

/-- A row of `nodes`. Timestamps are microseconds since 1970, and `importedAt`
is the `now()` of the transaction that wrote the row. -/
structure TableRow where
  publicKey : String
  «alias» : String
  capacitySats : Int64
  firstSeen : Int
  rank : Int32
  importedAt : Int
  deriving DecidableEq, Repr

/-!
## Conversions
-/

def capacityToDb (sats : UInt64) : Except StorageError Int64 :=
  if sats.toNat < 2 ^ 63 then
    .ok (Int64.ofNat sats.toNat)
  else
    .error (.outOfRange "capacity_sats" (toString sats.toNat))

def capacityFromDb (sats : Int64) : Except StorageError UInt64 :=
  if 0 ≤ sats.toInt then
    .ok (UInt64.ofNat sats.toInt.toNat)
  else
    .error (.outOfRange "capacity_sats" (toString sats.toInt))

def rankToDb (index : Nat) : Except StorageError Int32 :=
  if index < 2 ^ 31 then
    .ok (Int32.ofNat index)
  else
    .error (.outOfRange "rank" (toString index))

/-- Unix second of 2000-01-01T00:00:00Z, from which `timestamptz` counts. -/
def timestampEpoch : Int := 946684800

/-- `timestamptz` has a resolution of one microsecond. The client cuts off what
is finer from the distance to the epoch, which it counts in either direction. -/
def encodeTimestamp (instant : DateTime) : Int :=
  timestampEpoch * 1000000 +
    ((instant.secs - timestampEpoch) * 1000000000 + instant.nanos).tdiv 1000

/-- The client panics on a value beyond chrono's range, where the model has an
error; no fetched list leaves one in the table. -/
def decodeTimestamp (micros : Int) : Except SqlxError DateTime :=
  match DateTime.fromTimestamp (micros / 1000000) ((micros % 1000000).toNat * 1000) with
  | some instant => .ok instant
  | none => .error (.columnDecode "first_seen" "timestamp out of range")

structure NodeRow where
  publicKey : String
  «alias» : String
  capacitySats : Int64
  firstSeen : DateTime
  deriving DecidableEq, Repr

def TableRow.select (row : TableRow) : Except SqlxError NodeRow := do
  let firstSeen ← decodeTimestamp row.firstSeen
  return { publicKey := row.publicKey, «alias» := row.alias,
           capacitySats := row.capacitySats, firstSeen }

/-- `TryFrom<NodeRow> for Node`. -/
def NodeRow.toNode (row : NodeRow) : Except StorageError Node := do
  let capacitySats ← capacityFromDb row.capacitySats
  return { publicKey := row.publicKey, «alias» := row.alias, capacitySats,
           firstSeen := row.firstSeen }

/-!
## Column arrays
-/

/-- The five arrays that `replace_all` fills in step. -/
structure Columns where
  publicKeys : List String := []
  aliases : List String := []
  capacities : List Int64 := []
  firstSeens : List DateTime := []
  ranks : List Int32 := []
  deriving DecidableEq, Repr

/-- The loop of `replace_all` over the nodes from position `index` on. -/
def pushNodes : Columns → Nat → List Node → Except StorageError Columns
  | columns, _, [] => .ok columns
  | columns, index, node :: nodes => do
      let capacity ← capacityToDb node.capacitySats
      let rank ← rankToDb index
      pushNodes
        { publicKeys := columns.publicKeys ++ [node.publicKey]
          aliases := columns.aliases ++ [node.alias]
          capacities := columns.capacities ++ [capacity]
          firstSeens := columns.firstSeens ++ [node.firstSeen]
          ranks := columns.ranks ++ [rank] }
        (index + 1) nodes

def toColumns (nodes : List Node) : Except StorageError Columns :=
  pushNodes {} 0 nodes

/-!
## The INSERT statement
-/

structure BoundColumns where
  publicKeys : List String
  aliases : List String
  capacities : List Int64
  firstSeens : List Int
  ranks : List Int32

def bindText (text : String) : Except DataError String :=
  if Char.ofNat 0 ∈ text.toList then .error .untranslatableCharacter else .ok text

/-- 4714-11-24 BC, where `timestamptz` starts. -/
def minTimestamp : Int := -210866803200000000

/-- 294277-01-01, the first instant past `timestamptz`. -/
def endTimestamp : Int := 9224318016000000000

def bindTimestamp (instant : DateTime) : Except DataError Int :=
  if minTimestamp ≤ encodeTimestamp instant ∧ encodeTimestamp instant < endTimestamp then
    .ok (encodeTimestamp instant)
  else
    .error .datetimeFieldOverflow

def Columns.bind (columns : Columns) : Except DataError BoundColumns := do
  let publicKeys ← columns.publicKeys.mapM bindText
  let aliases ← columns.aliases.mapM bindText
  let firstSeens ← columns.firstSeens.mapM bindTimestamp
  return { publicKeys, aliases, capacities := columns.capacities, firstSeens,
           ranks := columns.ranks }

/-- One output row of `UNNEST`; a column whose array has run out is NULL. -/
structure RowValues where
  publicKey : Option String
  «alias» : Option String
  capacitySats : Option Int64
  firstSeen : Option Int
  rank : Option Int32

def BoundColumns.unnest (columns : BoundColumns) : List RowValues :=
  let rows := max columns.publicKeys.length (max columns.aliases.length
    (max columns.capacities.length (max columns.firstSeens.length columns.ranks.length)))
  (List.range rows).map fun index =>
    { publicKey := columns.publicKeys[index]?
      «alias» := columns.aliases[index]?
      capacitySats := columns.capacities[index]?
      firstSeen := columns.firstSeens[index]?
      rank := columns.ranks[index]? }

def notNull {Column : Type} : Option Column → Except DataError Column
  | some value => .ok value
  | none => .error .notNullViolation

/-- The row constraints of `nodes`, the primary key's uniqueness apart. -/
def RowValues.check (importedAt : Int) (values : RowValues) : Except DataError TableRow := do
  let publicKey ← notNull values.publicKey
  let «alias» ← notNull values.alias
  let capacitySats ← notNull values.capacitySats
  let firstSeen ← notNull values.firstSeen
  let rank ← notNull values.rank
  if 0 ≤ capacitySats.toInt then
    return { publicKey, «alias», capacitySats, firstSeen, rank, importedAt }
  else
    .error .checkViolation

def Columns.toRows (importedAt : Int) (columns : Columns) : Except DataError (List TableRow) := do
  let bound ← columns.bind
  bound.unnest.mapM (RowValues.check importedAt)

/-- Writes `rows` one by one, stopping at a primary key already present. -/
def insertRows : List TableRow → List TableRow → Except DataError (List TableRow)
  | table, [] => .ok table
  | table, row :: rows =>
      if row.publicKey ∈ table.map TableRow.publicKey then
        .error .uniqueViolation
      else
        insertRows (table ++ [row]) rows

/-!
## Operations
-/

inductive RoundTrip where
  | begin
  | delete
  | insert
  | commit
  deriving DecidableEq, Repr

/-- What becomes of one exchange: it may fail before the server has executed
it, or be executed and have its reply lost. -/
inductive Delivery where
  | answered
  | notExecuted (error : SqlxError)
  | replyLost (error : SqlxError)
  deriving DecidableEq, Repr

abbrev Link := RoundTrip → Delivery

/-- A responsive database: only the data itself can make a statement fail. -/
def Link.responsive : Link := fun _ => .answered

/-- The client's view of a statement of the transaction. -/
def Delivery.receive {Reply : Type} (delivery : Delivery) (executed : Except DataError Reply) :
    Except SqlxError Reply :=
  match delivery with
  | .answered => executed.mapError fun error => .database (.inl error)
  | .notExecuted error => .error error
  | .replyLost error => .error error

/-- BEGIN, DELETE and INSERT: the table as the open transaction sees it. -/
def transactionView (link : Link) (importedAt : Int) (table : List TableRow)
    (columns : Columns) : Except SqlxError (List TableRow) := do
  let view ← (link .begin).receive (.ok table)
  let view ← (link .delete).receive (.ok (view.filter fun _ => false))
  (link .insert).receive (columns.toRows importedAt >>= insertRows view)

/-- `replace_all` on the committed `table`, with the committed table it leaves
behind. A transaction that does not reach COMMIT is rolled back. -/
def replaceAll (link : Link) (importedAt : Int) (table : List TableRow) (nodes : List Node) :
    Except StorageError Nat × List TableRow :=
  match toColumns nodes with
  | .error error => (.error error, table)
  | .ok columns =>
      match transactionView link importedAt table columns with
      | .error error => (.error (.database error), table)
      | .ok view =>
          match link .commit with
          | .answered => (.ok nodes.length, view)
          | .notExecuted error => (.error (.database error), table)
          | .replyLost error => (.error (.database error), view)

/-- `SELECT .. ORDER BY rank` may deliver any arrangement of the stored rows in
which ranks do not decrease. -/
def OrderedByRank (stored delivered : List TableRow) : Prop :=
  delivered.Perm stored ∧ delivered.Pairwise fun left right => left.rank.toInt ≤ right.rank.toInt

instance (stored delivered : List TableRow) : Decidable (OrderedByRank stored delivered) :=
  inferInstanceAs (Decidable (_ ∧ _))

/-- `list_nodes`, given what its SELECT delivers. -/
def listNodes (delivered : Except SqlxError (List TableRow)) : Except StorageError (List Node) := do
  let rows ← (delivered >>= fun rows => rows.mapM TableRow.select).mapError .database
  rows.mapM NodeRow.toNode

end BipaNodes.Storage
