import ProtoIceberg.Objects.Schema

namespace ProtoIceberg

structure Namespace where
  levels : List String
  deriving DecidableEq

structure TableIdentifier where
  ns   : Namespace
  name : String
  deriving DecidableEq

def TableIdentifier.toString (id : TableIdentifier) : String :=
  ".".intercalate (id.ns.levels ++ [id.name])

abbrev Properties := List (String × String)

-- A table of iceberg-cpp, by what can be observed of it.
structure Table where
  name                       : TableIdentifier
  location                   : String
  io                         : Option Properties
  properties                 : Properties
  lastUpdatedMs              : Int
  snapshots                  : List Int
  currentSnapshot            : Option Int
  schema                     : Result Schema
  schemaFor                  : Int → Result Schema
  optionalSnapshotIdAsOfTime : Int → Option Int

-- Which version of the table to read.
inductive ScanMode
  | currentRead
  | pinnedRead (snapshotId : Int)
  deriving DecidableEq, Repr

structure ScanInfo where
  table  : Table
  mode   : ScanMode
  schema : Schema

-- The snapshot whose files a scan plans. A scan reads nothing if there is no such snapshot.
def ScanInfo.snapshot (info : ScanInfo) : Option Int :=
  match info.mode with
  | .currentRead   => info.table.currentSnapshot
  | .pinnedRead id => some id

-- The snapshot that iceberg-cpp is told to read. By itself it reads the table's current one.
def ScanMode.useSnapshot : ScanMode → Option Int
  | .currentRead   => none
  | .pinnedRead id => some id

-- The schema that iceberg-cpp resolves for a read.
def Table.schemaOf (table : Table) : Option Int → Result Schema
  | none    => table.schema
  | some id => table.schemaFor id

-- The schema must be the one that iceberg-cpp resolves, since it binds column names against its own.
def ScanInfo.Resolved (info : ScanInfo) : Prop :=
  info.table.schemaOf info.mode.useSnapshot = .ok info.schema

-- DuckDB's timestamps hold microseconds, iceberg-cpp expects milliseconds.
def startTimestampMs (duckdbTimestamp : Int) : Int :=
  duckdbTimestamp.tdiv 1000

-- Resolves the table's state as of the transaction's start.
def resolveScanInfo (txnStart : Int) (table : Table) (namespaceName tableName : String) :
    Except Exception ScanInfo :=
  if table.snapshots ≠ [] ∧ txnStart < table.lastUpdatedMs then
    match table.optionalSnapshotIdAsOfTime txnStart with
    | none            => .error {
        type    := .transaction
        message :=
          s!"Table '{namespaceName}.{tableName}' does not have a reachable state in this " ++
            "transaction; please restart your transaction"
      }
    | some snapshotId => do
      let schema ← unwrapOrThrow (table.schemaFor snapshotId)
        s!"Failed to resolve schema for snapshot {snapshotId} of table '{namespaceName}.{tableName}'"
      return { table, schema, mode := .pinnedRead snapshotId }
  else do
    let schema ← unwrapOrThrow table.schema
      s!"Failed to read schema for table '{namespaceName}.{tableName}'"
    return { table, schema, mode := .currentRead }

end ProtoIceberg
