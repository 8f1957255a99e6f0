import ProtoIceberg.Catalog.TableRegistry
import ProtoIceberg.Extensions.Machine

namespace ProtoIceberg

def getNamespace (namespaceName : String) : Namespace where
  levels := [namespaceName]

def getTableIdentifier (namespaceName tableName : String) : TableIdentifier where
  ns   := getNamespace namespaceName
  name := tableName

-- The answers that iceberg-cpp's catalog gives at some moment.
structure Catalog where
  listNamespaces : Namespace → Result (List Namespace)
  listTables     : Namespace → Result (List TableIdentifier)
  loadTable      : TableIdentifier → Result Table

-- A request to the catalog and the answer to it.
inductive Exchange
  | listNamespaces (ns : Namespace) (answer : Result (List Namespace))
  | listTables (ns : Namespace) (answer : Result (List TableIdentifier))
  | loadTable (id : TableIdentifier) (answer : Result Table)

-- What an operation returns or throws, and the exchanges that it took.
structure Answer (α : Type) where
  result    : Except Exception α
  exchanges : List Exchange

inductive CatalogType
  | tableEntry
  | schemaEntry
  | other (code : Nat)
  deriving DecidableEq

structure SchemaEntry where
  name             : String
  namespaceMissing : Bool
  tables           : TableRegistry

namespace SchemaEntry

def create (name : String) : SchemaEntry where
  name             := name
  namespaceMissing := false
  tables           := .empty

def markNamespaceMissing (entry : SchemaEntry) : SchemaEntry :=
  { entry with namespaceMissing := true }

-- Loads a table from the catalog and stores it. There is no entry for a missing table or namespace,
-- other errors throw.
def loadTableEntry (entry : SchemaEntry) (catalog : Catalog) (txnStart : Int) (tableName : String) :
    Answer (Option Nat) × SchemaEntry :=
  let id := getTableIdentifier entry.name tableName
  let exchanges := [.loadTable id (catalog.loadTable id)]
  match catalog.loadTable id with
  | .error { kind := .noSuchNamespace, .. } =>
    ({ result := .ok none, exchanges },
      { entry with namespaceMissing := true, tables := entry.tables.markMissing tableName })
  | .error { kind := .noSuchTable, .. } =>
    ({ result := .ok none, exchanges },
      { entry with tables := entry.tables.markMissing tableName })
  | .error { message, .. } =>
    let message := s!"Failed to load table '{entry.name}.{tableName}': {message}"
    ({ result := .error { type := .io, message }, exchanges }, entry)
  | .ok table =>
    let tableEntry := do
      let scanInfo ← resolveScanInfo txnStart table entry.name tableName
      createTableEntry scanInfo tableName
    match tableEntry with
    | .error exception => ({ result := .error exception, exchanges }, entry)
    | .ok tableEntry =>
      ({ result := .ok (some entry.tables.entries.length), exchanges },
        { entry with tables := entry.tables.store tableEntry })

-- Lists the tables that the catalog has.
def listTables (entry : SchemaEntry) (catalog : Catalog) : Answer (List Nat) × SchemaEntry :=
  let ns := getNamespace entry.name
  let exchanges := [.listTables ns (catalog.listTables ns)]
  match catalog.listTables ns with
  | .error { kind := .noSuchNamespace, .. } =>
    ({ result := .ok [], exchanges }, entry.markNamespaceMissing)
  | answer =>
    match unwrapOrThrow answer s!"Failed to list tables in namespace '{entry.name}'" with
    | .error exception => ({ result := .error exception, exchanges }, entry)
    | .ok children =>
      let tables := entry.tables.list (children.map TableIdentifier.name)
      ({ result := .ok tables.visited, exchanges }, { entry with tables })

-- The part of `scan` that holds the lock on the tables. Tables are listed once per transaction.
def scanTables (entry : SchemaEntry) (catalog : Catalog) : Answer (List Nat) × SchemaEntry :=
  if entry.tables.listed then
    ({ result := .ok entry.tables.visited, exchanges := [] }, entry)
  else
    entry.listTables catalog

def scan (entry : SchemaEntry) (catalog : Catalog) (type : CatalogType) :
    Answer (List Nat) × SchemaEntry :=
  if type ≠ .tableEntry then
    ({ result := .ok [], exchanges := [] }, entry)
  else if entry.namespaceMissing then
    ({ result := .ok [], exchanges := [] }, entry)
  else
    entry.scanTables catalog

def lookupEntry (entry : SchemaEntry) (catalog : Catalog) (txnStart : Int) (type : CatalogType)
    (tableName : String) : Answer (Option Nat) × SchemaEntry :=
  if type ≠ .tableEntry then
    ({ result := .ok none, exchanges := [] }, entry)
  else
    match entry.tables.lookup tableName with
    | .negative   => ({ result := .ok none, exchanges := [] }, entry)
    | .unknown    => entry.loadTableEntry catalog txnStart tableName
    | .positive r =>
      if entry.tables.needsLoad r then
        entry.loadTableEntry catalog txnStart tableName
      else
        ({ result := .ok (some r), exchanges := [] }, entry)

-- The operations on a schema entry. The tail of a scan that other operations may precede after its
-- first check is an operation of its own.
inductive Op
  | scan (type : CatalogType)
  | scanTables
  | lookupEntry (type : CatalogType) (tableName : String)

def perform (entry : SchemaEntry) (catalog : Catalog) (txnStart : Int) :
    Op → Answer (List Nat) × SchemaEntry
  | .scan type                  => entry.scan catalog type
  | .scanTables                 => entry.scanTables catalog
  | .lookupEntry type tableName =>
    let (answer, entry) := entry.lookupEntry catalog txnStart type tableName
    ({ answer with result := Option.toList <$> answer.result }, entry)

-- What happens to a schema entry. Other than its own operations, a listing of the namespaces may find
-- its namespace missing.
inductive Event
  | perform (catalog : Catalog) (op : Op)
  | markNamespaceMissing

def machine (txnStart : Int) (name : String) : Machine SchemaEntry Event (Answer (List Nat)) where
  init := .create name
  step e
    | .perform catalog op   => e.perform catalog txnStart op
    | .markNamespaceMissing => ({ result := .ok [], exchanges := [] }, e.markNamespaceMissing)

end SchemaEntry

end ProtoIceberg
