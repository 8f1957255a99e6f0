import ProtoIceberg.Catalog.Transaction
import ProtoIceberg.Extensions.Program

namespace ProtoIceberg

-- The mutexes on a transaction's schemas, on the tables of one of its schema entries, and on
-- iceberg-cpp's catalog, which all transactions share.
inductive Mutex
  | schemas (txn : Nat)
  | tables (txn entry : Nat)
  | catalog
  deriving DecidableEq

namespace SchemaEntry

-- The operations that lock the tables.
inductive TablesOp
  | scan
  | lookupEntry (tableName : String)

-- What is returned without a request to the catalog.
def cached (entry : SchemaEntry) : TablesOp → Option (List Nat)
  | .scan                  => if entry.tables.listed then some entry.tables.visited else none
  | .lookupEntry tableName =>
    match entry.tables.lookup tableName with
    | .negative   => some []
    | .unknown    => none
    | .positive r => if entry.tables.needsLoad r then none else some [r]

def load (entry : SchemaEntry) (catalog : Catalog) (txnStart : Int) :
    TablesOp → Except Exception (List Nat) × SchemaEntry
  | .scan                  =>
    let (answer, entry) := entry.listTables catalog
    (answer.result, entry)
  | .lookupEntry tableName =>
    let (answer, entry) := entry.loadTableEntry catalog txnStart tableName
    (Option.toList <$> answer.result, entry)

-- What takes effect with the lock. A scan has checked for a missing namespace before it waits for it.
def TablesOp.op : TablesOp → Op
  | .scan                  => .scanTables
  | .lookupEntry tableName => .lookupEntry .tableEntry tableName

theorem name_listTables {entry : SchemaEntry} {catalog : Catalog} :
    (entry.listTables catalog).2.name = entry.name := by
  rw [listTables]
  dsimp only
  split
  case h_1 => rfl
  case h_2 => split <;> rfl

theorem name_load {entry : SchemaEntry} {catalog : Catalog} {txnStart : Int} {op : TablesOp} :
    (entry.load catalog txnStart op).2.name = entry.name := by
  cases op
  case scan => exact name_listTables
  case lookupEntry tableName =>
    have hload := @loadTableEntry_outcome entry catalog txnStart tableName
    dsimp only [load]
    generalize entry.loadTableEntry catalog txnStart tableName = outcome at hload ⊢
    cases hload <;> rfl

end SchemaEntry

namespace Transaction

open SchemaEntry (TablesOp)

def load (txn : Transaction) (r : Nat) (catalog : Catalog) (op : TablesOp) :
    Except Exception (List Nat) × Transaction :=
  (txn.heap[r]?.elim (.ok []) fun e => (e.load catalog txn.startTimestampMs op).1,
    txn.mapEntries
      (fun r' e => if r' = r then (e.load catalog txn.startTimestampMs op).2 else e)
      (fun _ _ => by split <;> first | rfl | exact SchemaEntry.name_load))

-- Where a thread is in an operation. An operation waits for a lock at one point and has it at the next.
inductive Point
  | lookupSchema (schemaName : String) (ifNotFound : OnEntryNotFound)
  | lookupSchemaLocked (schemaName : String) (ifNotFound : OnEntryNotFound)
  | scanSchemas
  | scanSchemasLocked
  | listNamespaces
  | listNamespacesLocked
  | namespacesListed (answers : Catalog)
  | completeListing (listedNames : List String) (entries : List Nat)
  | forEach (entries visited : List Nat)
  | scan (entry : Nat) (type : CatalogType)
  | lookupEntry (entry : Nat) (type : CatalogType) (tableName : String)
  | tables (entry : Nat) (op : TablesOp)
  | tablesLocked (entry : Nat) (op : TablesOp)
  | catalog (entry : Nat) (op : TablesOp)
  | catalogLocked (entry : Nat) (op : TablesOp)
  | catalogAnswered (entry : Nat) (op : TablesOp) (answers : Catalog)

namespace Point

def held (txn : Nat) : Point → List Mutex
  | .lookupSchemaLocked .. => [.schemas txn]
  | .scanSchemasLocked     => [.schemas txn]
  | .listNamespaces        => [.schemas txn]
  | .listNamespacesLocked  => [.schemas txn, .catalog]
  | .namespacesListed _    => [.schemas txn]
  | .completeListing ..    => [.schemas txn]
  | .forEach ..            => [.schemas txn]
  | .tablesLocked r _      => [.tables txn r]
  | .catalog r _           => [.tables txn r]
  | .catalogLocked r _     => [.tables txn r, .catalog]
  | .catalogAnswered r _ _ => [.tables txn r]
  | _                      => []

def wants (txn : Nat) : Point → Option Mutex
  | .lookupSchema .. => some (.schemas txn)
  | .scanSchemas     => some (.schemas txn)
  | .listNamespaces  => some .catalog
  | .tables r _      => some (.tables txn r)
  | .catalog ..      => some .catalog
  | _                => none

end Point

-- Where a step leads, or what the operation returns.
inductive Outcome
  | next (point : Point)
  | returns (op : Op) (result : Except Exception (List Nat))

-- A request to the catalog is answered by the catalog as it is at that step.
def Point.step (txn : Transaction) (defaultSchema : String) (catalog : Catalog) :
    Point → Outcome × Transaction
  | .lookupSchema schemaName ifNotFound => (.next (.lookupSchemaLocked schemaName ifNotFound), txn)
  | .lookupSchemaLocked schemaName ifNotFound =>
    let (found, txn) := txn.lookupSchema defaultSchema schemaName ifNotFound
    (.returns (.lookupSchema schemaName ifNotFound) (Option.toList <$> found), txn)
  | .scanSchemas => (.next .scanSchemasLocked, txn)
  | .scanSchemasLocked =>
    (.next (if txn.listed then .forEach txn.stored [] else .listNamespaces), txn)
  | .listNamespaces => (.next .listNamespacesLocked, txn)
  | .listNamespacesLocked => (.next (.namespacesListed catalog), txn)
  | .namespacesListed answers =>
    match unwrapOrThrow (answers.listNamespaces { levels := [] }) "Failed to list namespaces" with
    | .error exception => (.returns .scanSchemas (.error exception), txn)
    | .ok namespaces   =>
      let names := namespaces.filterMap Namespace.singleLevel
      let txn := names.foldl storeNew txn
      (.next (.completeListing names txn.stored), txn)
  | .completeListing _ [] => (.next (.forEach txn.stored []), { txn with listed := true })
  | .completeListing names (r :: rs) => (.next (.completeListing names rs), txn.markAbsent names r)
  | .forEach [] visited => (.returns .scanSchemas (.ok visited), txn)
  | .forEach (r :: rs) visited =>
    (.next (.forEach rs (if txn.isNamespaceMissing r then visited else visited ++ [r])), txn)
  | .scan r type =>
    (if type ≠ .tableEntry ∨ txn.isNamespaceMissing r then
      .returns (.perform r (.scan type)) (.ok [])
    else
      .next (.tables r .scan), txn)
  | .lookupEntry r type tableName =>
    (if type ≠ .tableEntry then
      .returns (.perform r (.lookupEntry type tableName)) (.ok [])
    else
      .next (.tables r (.lookupEntry tableName)), txn)
  | .tables r op => (.next (.tablesLocked r op), txn)
  | .tablesLocked r op =>
    match txn.heap[r]?.elim (some []) (·.cached op) with
    | some refs => (.returns (.perform r op.op) (.ok refs), txn)
    | none      => (.next (.catalog r op), txn)
  | .catalog r op => (.next (.catalogLocked r op), txn)
  | .catalogLocked r op => (.next (.catalogAnswered r op catalog), txn)
  | .catalogAnswered r op answers =>
    let (result, txn) := txn.load r answers op
    (.returns (.perform r op.op) result, txn)

-- The calls that DuckDB makes.
inductive Call
  | lookupSchema (schemaName : String) (ifNotFound : OnEntryNotFound)
  | scanSchemas
  | scan (entry : Nat) (type : CatalogType)
  | lookupEntry (entry : Nat) (type : CatalogType) (tableName : String)

def Call.point : Call → Point
  | .lookupSchema schemaName ifNotFound => .lookupSchema schemaName ifNotFound
  | .scanSchemas                        => .scanSchemas
  | .scan entry type                    => .scan entry type
  | .lookupEntry entry type tableName   => .lookupEntry entry type tableName

-- Calls start in threads that have nothing else to do.
inductive Input
  | invoke (txn : Nat) (call : Call)
  | resume (catalog : Catalog)

def locking : Locking (Option (Nat × Point)) Mutex where
  held p  := p.elim [] fun (txn, point) => point.held txn
  wants p := p.bind fun (txn, point) => point.wants txn

def Outcome.point : Outcome → Option Point
  | .next point   => some point
  | .returns _ _  => none

def Outcome.returned : Outcome → Option (Op × Except Exception (List Nat))
  | .next _            => none
  | .returns op result => some (op, result)

-- What a step takes is what its operation has waited for.
theorem Point.held_next {txn : Transaction} {defaultSchema : String} {catalog : Catalog}
    {p p' : Point} (h : (p.step txn defaultSchema catalog).1 = .next p') (x : Nat) :
    ∀ k ∈ p'.held x, k ∈ p.held x ∨ k ∈ p.wants x := by
  cases p
  case lookupSchema         => cases h; simp [held, wants]
  case lookupSchemaLocked   => cases h
  case scanSchemas          => cases h; simp [held, wants]
  case scanSchemasLocked    => dsimp only [step] at h; split at h <;> cases h <;> simp [held]
  case listNamespaces       => cases h; simp [held, wants]
  case listNamespacesLocked => cases h; simp +contextual [held]
  case namespacesListed     => dsimp only [step] at h; split at h <;> cases h; simp [held]
  case completeListing rs   => cases rs <;> cases h <;> simp [held]
  case forEach rs _         => cases rs <;> cases h; simp [held]
  case scan                 => dsimp only [step] at h; split at h <;> cases h; simp [held]
  case lookupEntry          => dsimp only [step] at h; split at h <;> cases h; simp [held]
  case tables               => cases h; simp [held, wants]
  case tablesLocked         => dsimp only [step] at h; split at h <;> cases h; simp [held]
  case catalog              => cases h; simp [held, wants]
  case catalogLocked        => cases h; simp +contextual [held]
  case catalogAnswered      => cases h

-- What any number of threads run on any number of transactions.
def program (defaultSchema : String) : Program (Nat → Transaction) (Option (Nat × Point)) Input
    (Option (Nat × Op × Except Exception (List Nat))) Mutex where
  toLocking := locking
  step
    | none, .invoke x call, txns         => (none, some (x, call.point), txns)
    | some (x, p), .resume catalog, txns =>
      let (outcome, txn) := p.step (txns x) defaultSchema catalog
      (outcome.returned.map (x, ·), outcome.point.map (x, ·), Function.update txns x txn)
    | thread, _, txns                    => (none, thread, txns)
  takes := by
    intro thread i txns
    cases thread
    case none =>
      cases i
      case resume        => simp [Locking.Step, locking]
      case invoke x call => cases call <;> simp [Locking.Step, locking, Call.point, Point.held]
    case some thread =>
      obtain ⟨x, p⟩ := thread
      cases i
      case invoke => exact fun k hk => .inl hk
      case resume catalog =>
        dsimp only
        cases h : (p.step (txns x) defaultSchema catalog).1
        case next p'    => exact p.held_next h x
        case returns op => simp [Locking.Step, locking, Outcome.point]

-- Any threads on any transactions that started at the given times.
def concurrent (τ : Type) [DecidableEq τ] [Fintype τ] (timestamps : Nat → Int)
    (defaultSchema : String) :=
  (program defaultSchema).machine (τ := τ) (fun x => start (timestamps x)) none

end Transaction

end ProtoIceberg
