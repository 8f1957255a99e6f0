import Mathlib.Data.List.Basic
import ProtoIceberg.Catalog.Theorems.Step

namespace ProtoIceberg

-- A transaction's schemas. Schema entries live as long as the transaction, so they are known by their
-- position on the heap, and a map names each schema's entry.
structure Transaction where
  startTimestampMs : Int
  heap             : List SchemaEntry
  schemas          : Std.ExtTreeMap String Nat
  listed           : Bool
  valid            : ∀ (name : String) (r : Nat),
    schemas[name]? = some r → ∃ e, heap[r]? = some e ∧ e.name = name

inductive OnEntryNotFound
  | throwException
  | returnNull
  deriving DecidableEq

-- DuckDB's default schema.
def defaultSchemaName : String := "main"

-- DuckDB's default schema is redirected to the configured default one.
def redirect (defaultSchema schemaName : String) : String :=
  if schemaName = defaultSchemaName ∧ defaultSchema ≠ defaultSchemaName then
    defaultSchema
  else
    schemaName

def schemaNotFound (schemaName : String) : OnEntryNotFound → Except Exception (Option Nat)
  | .returnNull     => .ok none
  | .throwException =>
    .error { type := .catalog, message := s!"Schema '{schemaName}' does not exist" }

-- The root's children should be single-level.
def Namespace.singleLevel : Namespace → Option String
  | { levels := [name] } => some name
  | _                    => none

namespace Transaction

def start (duckdbTimestamp : Int) : Transaction where
  startTimestampMs := ProtoIceberg.startTimestampMs duckdbTimestamp
  heap             := []
  schemas          := ∅
  listed           := false
  valid            := by simp

def isNamespaceMissing (txn : Transaction) (r : Nat) : Bool :=
  txn.heap[r]?.any SchemaEntry.namespaceMissing

def store (txn : Transaction) (name : String) : Transaction where
  startTimestampMs := txn.startTimestampMs
  heap             := txn.heap ++ [.create name]
  schemas          := txn.schemas.insert name txn.heap.length
  listed           := txn.listed
  valid            := by
    intro name' r h
    rw [Std.ExtTreeMap.getElem?_insert] at h
    split at h
    case isTrue hn =>
      cases h
      exact ⟨_, List.getElem?_concat_length, Std.LawfulEqCmp.eq_of_compare hn⟩
    case isFalse =>
      have ⟨e, he, hn⟩ := txn.valid name' r h
      exact ⟨e, List.getElem?_append_left (List.getElem?_eq_some_iff.mp he).1 ▸ he, hn⟩

-- Changes entries on the heap, none of which can change its name.
def mapEntries (txn : Transaction) (f : Nat → SchemaEntry → SchemaEntry)
    (h : ∀ r e, (f r e).name = e.name) : Transaction where
  startTimestampMs := txn.startTimestampMs
  heap             := txn.heap.mapIdx f
  schemas          := txn.schemas
  listed           := txn.listed
  valid            := by
    intro name r hr
    have ⟨e, he, hn⟩ := txn.valid name r hr
    exact ⟨f r e, by simp [he], (h r e).trans hn⟩

def storeNew (txn : Transaction) (name : String) : Transaction :=
  match txn.schemas[name]? with
  | some _ => txn
  | none   => txn.store name

def stored (txn : Transaction) : List Nat :=
  txn.schemas.toList.map Prod.snd

def markAbsent (txn : Transaction) (listedNames : List String) (r : Nat) : Transaction :=
  txn.mapEntries
    (fun r' e => if r' = r ∧ e.name ∉ listedNames then e.markNamespaceMissing else e)
    (fun _ _ => by split <;> rfl)

-- Schemas looked up before the listing but absent from it don't exist.
def completeListing (txn : Transaction) (listedNames : List String) : Transaction :=
  let txn := txn.stored.foldl (fun txn r => txn.markAbsent listedNames r) txn
  { txn with listed := true }

-- Records the namespaces that the catalog lists.
def list (txn : Transaction) (namespaces : List Namespace) : Transaction :=
  let names := namespaces.filterMap Namespace.singleLevel
  names.foldl storeNew txn |>.completeListing names

def visited (txn : Transaction) : List Nat :=
  txn.stored.filter fun r => !txn.isNamespaceMissing r

def scanSchemas (txn : Transaction) (catalog : Catalog) : Answer (List Nat) × Transaction :=
  if txn.listed then
    ({ result := .ok txn.visited, exchanges := [] }, txn)
  else
    let root : Namespace := { levels := [] }
    let exchanges := [.listNamespaces root (catalog.listNamespaces root)]
    match unwrapOrThrow (catalog.listNamespaces root) "Failed to list namespaces" with
    | .error exception => ({ result := .error exception, exchanges }, txn)
    | .ok namespaces =>
      let txn := txn.list namespaces
      ({ result := .ok txn.visited, exchanges }, txn)

def lookupSchema (txn : Transaction) (defaultSchema schemaName : String)
    (ifNotFound : OnEntryNotFound) : Except Exception (Option Nat) × Transaction :=
  let name := redirect defaultSchema schemaName
  match txn.schemas[name]? with
  | some r =>
    if txn.isNamespaceMissing r then (schemaNotFound name ifNotFound, txn) else (.ok (some r), txn)
  | none   =>
    if txn.listed then
      (schemaNotFound name ifNotFound, txn)
    else
      -- The namespace may not exist, which a later listing or table load finds out.
      (.ok (some txn.heap.length), txn.store name)

def perform (txn : Transaction) (catalog : Catalog) (r : Nat) (op : SchemaEntry.Op) :
    Option (Answer (List Nat)) × Transaction :=
  (txn.heap[r]?.map fun e => (e.perform catalog txn.startTimestampMs op).1,
    txn.mapEntries
      (fun r' e => if r' = r then (e.perform catalog txn.startTimestampMs op).2 else e)
      (fun _ _ => by split <;> first | rfl | exact SchemaEntry.perform_step.evolves.name))

-- The operations of a transaction. The last one acts on an entry of the heap.
inductive Op
  | lookupSchema (schemaName : String) (ifNotFound : OnEntryNotFound)
  | scanSchemas
  | perform (entry : Nat) (op : SchemaEntry.Op)

def step (txn : Transaction) (defaultSchema : String) (catalog : Catalog) :
    Op → List Exchange × Transaction
  | .scanSchemas =>
    let (answer, txn) := txn.scanSchemas catalog
    (answer.exchanges, txn)
  | .lookupSchema schemaName ifNotFound =>
    ([], (txn.lookupSchema defaultSchema schemaName ifNotFound).2)
  | .perform entry op =>
    let (answer, txn) := txn.perform catalog entry op
    (answer.elim [] Answer.exchanges, txn)

-- The catalog's answers may be different at every step.
def machine (duckdbTimestamp : Int) (defaultSchema : String) :
    Machine Transaction (Catalog × Op) (List Exchange) where
  init := start duckdbTimestamp
  step txn
    | (catalog, op) => txn.step defaultSchema catalog op

end Transaction

namespace Shop

-- A table without columns.
def orders : Table where
  name                         := getTableIdentifier "shop" "orders"
  location                     := "s3://shop/orders"
  io                           := some []
  properties                   := []
  lastUpdatedMs                := 0
  snapshots                    := []
  currentSnapshot              := none
  schema                       := .ok { fields := [], nodup := List.nodup_nil }
  schemaFor _                  := .error { kind := .other 0, message := "" }
  optionalSnapshotIdAsOfTime _ := none

-- A catalog with the given namespaces, each of which has the table `orders`.
def catalog (namespaces : List String) : Catalog where
  listNamespaces _ := .ok (namespaces.map getNamespace)
  listTables ns    :=
    if ns ∈ namespaces.map getNamespace then
      .ok [{ ns, name := "orders" }]
    else
      .error { kind := .noSuchNamespace, message := "" }
  loadTable id     :=
    if id ∈ namespaces.map (getTableIdentifier · "orders") then
      .ok orders
    else
      .error { kind := .noSuchTable, message := "" }

end Shop

end ProtoIceberg
