import Mathlib.Logic.Function.Basic
import ProtoIceberg.Secrets.ScopedSecrets

namespace ProtoIceberg

-- A table entry that has not been scanned, as a transaction loads or lists it.
abbrev NewTableEntry := { entry : TableEntry // ¬entry.hasSecret }

-- A connection, with the entries of its transaction's tables and the names of their catalogs.
structure Connection where
  transaction : Option Nat
  tables      : List (String × TableEntry)
  state       : ScopedSecrets

namespace Connection

def idle : Connection where
  transaction := none
  tables      := []
  state       := .empty

end Connection

structure DatabaseInstance where
  connections : Nat → Connection
  secrets     : SecretManager

-- A secret that was created for a table entry, which is known by its transaction and position.
structure Creation where
  transaction : Nat
  table       : Nat
  secret      : CreateSecretInput

namespace DatabaseInstance

def start (secrets : SecretManager) : DatabaseInstance where
  connections _ := .idle
  secrets       := secrets

def setConnection (db : DatabaseInstance) (c : Nat) (connection : Connection) : DatabaseInstance :=
  { db with connections := Function.update db.connections c connection }

def begin (db : DatabaseInstance) (c transactionId : Nat) : DatabaseInstance :=
  match (db.connections c).transaction with
  | none   => db.setConnection c { db.connections c with transaction := some transactionId }
  | some _ => db

-- The entries of tables exist as long as the transaction.
def load (db : DatabaseInstance) (c : Nat) (catalogName : String) (entry : NewTableEntry) :
    DatabaseInstance :=
  match (db.connections c).transaction with
  | none   => db
  | some _ =>
    let connection := db.connections c
    db.setConnection c { connection with tables := connection.tables ++ [(catalogName, entry.val)] }

-- Scans a table of the connection's transaction. Returns whether the scan is bound, and the secret
-- that it has created.
def scan (db : DatabaseInstance) (c table : Nat) (outcomes : ScanOutcomes) :
    (Bool × Option Creation) × DatabaseInstance :=
  let connection := db.connections c
  match connection.transaction, connection.tables[table]? with
  | some transaction, some (catalogName, entry) =>
    let scan := entry.getScanFunction connection.state catalogName transaction outcomes
    let tables := connection.tables.set table (catalogName, scan.entry)
    let db := db.setConnection c { connection with tables, state := scan.state }
    ((scan.result.isOk, scan.created.map fun secret => { transaction, table, secret }),
      { db with secrets := scan.created.elim db.secrets db.secrets.createSecret })
  | _, _ => ((false, none), db)

-- Ends a connection's transaction, with the connection's callback for a commit or a rollback.
def finish (db : DatabaseInstance) (c : Nat)
    (callback : ScopedSecrets → SecretManager → DropOutcome → ScopedSecrets × SecretManager)
    (outcome : DropOutcome) : DatabaseInstance :=
  match (db.connections c).transaction with
  | none   => db
  | some _ =>
    let (state, secrets) := callback (db.connections c).state db.secrets outcome
    { db.setConnection c { Connection.idle with state } with secrets }

inductive Event
  | begin (connection transactionId : Nat)
  | load (connection : Nat) (catalogName : String) (entry : NewTableEntry)
  | scan (connection table : Nat) (outcomes : ScanOutcomes)
  | commit (connection : Nat) (outcome : DropOutcome)
  | rollback (connection : Nat) (outcome : DropOutcome)

def Event.begun : Event → Option Nat
  | .begin _ transactionId => some transactionId
  | _                      => none

def step (db : DatabaseInstance) : Event → Option Creation × DatabaseInstance
  | .begin c transactionId    => (none, db.begin c transactionId)
  | .load c catalogName entry => (none, db.load c catalogName entry)
  | .scan c table outcomes    =>
    let ((_, created), db) := db.scan c table outcomes
    (created, db)
  | .commit c outcome         => (none, db.finish c ScopedSecrets.transactionCommit outcome)
  | .rollback c outcome       => (none, db.finish c ScopedSecrets.transactionRollback outcome)

-- The secrets may be there before the extension creates any.
def machine (secrets : SecretManager) : Machine DatabaseInstance Event (Option Creation) where
  init := start secrets
  step := step

end DatabaseInstance

end ProtoIceberg
