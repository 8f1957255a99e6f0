import ProtoIceberg.Catalog.TableEntry
import ProtoIceberg.Conversion.S3
import ProtoIceberg.Extensions.Machine

namespace ProtoIceberg

inductive OnCreateConflict
  | replaceOnConflict
  deriving DecidableEq

inductive SecretPersistType
  | temporary
  deriving DecidableEq

structure CreateSecretInput where
  type        : String
  provider    : String
  storageType : String
  onConflict  : OnCreateConflict
  persistType : SecretPersistType
  name        : String
  scope       : List String
  options     : SecretOptions

def makeBaseS3SecretInput : CreateSecretInput where
  type        := "s3"
  provider    := "config"
  storageType := "memory"
  onConflict  := .replaceOnConflict
  persistType := .temporary
  name        := ""
  scope       := []
  options     := []

def writeDataLocation : String := "write.data.path"

def scopeWithSlash (path : String) : String :=
  if path ≠ "" ∧ path.toList.getLast? ≠ some '/' then path ++ "/" else path

def buildScopedS3Secret (table : Table) : Except Exception CreateSecretInput :=
  match table.io with
  | none            => .error {
      type    := .io
      message := s!"Table '{table.name.toString}' has no FileIO; cannot vend S3 credentials"
    }
  | some properties =>
    let scopePrefix := scopeWithSlash table.location
    if scopePrefix = "" then
      .error {
        type    := .io
        message :=
          s!"Cannot create scoped S3 secret for table '{table.name.toString}': empty location"
      }
    else
      -- Data files may be written outside the table's location.
      let writeDataPath := table.properties.get writeDataLocation
      let dataScope := if writeDataPath = "" then [] else [scopeWithSlash writeDataPath]
      .ok { makeBaseS3SecretInput with
        scope   := scopePrefix :: dataScope
        options := convertIcebergPropertiesToS3Secret properties
      }

-- The transaction's ID and the index make the name unique within the database instance.
def scopedSecretName (catalogName : String) (transactionId index : Nat) : String :=
  "__proto_ic_" ++ catalogName ++ "_" ++ toString transactionId ++ "_" ++ toString index

-- DuckDB's secrets by name, regardless of case.
abbrev SecretManager := List CreateSecretInput

def secretKey (name : String) : String :=
  name.toLower

namespace SecretManager

-- Replaces a secret of the same name.
def createSecret (secrets : SecretManager) (input : CreateSecretInput) : SecretManager :=
  input :: secrets.filter fun secret => secretKey secret.name ≠ secretKey input.name

def dropSecretByName (secrets : SecretManager) (name : String) : SecretManager :=
  secrets.filter fun secret => secretKey secret.name ≠ secretKey name

end SecretManager

-- A connection's secrets for vended credentials, by name.
structure ScopedSecrets where
  names : List String

-- The outcomes of what is called during a scan.
structure ScanOutcomes where
  loadHttpfs   : Except Exception Unit
  createSecret : Except Exception Bool
  bind         : Except Exception Unit

-- What becomes of the drops at a transaction's end. Those that fail may have dropped some secrets.
inductive DropOutcome
  | succeeded
  | failed (dropped : String → Bool)

namespace ScopedSecrets

def empty : ScopedSecrets where
  names := []

-- The secret for a table's vended credentials. The secret manager reports whether it has created it.
def create (state : ScopedSecrets) (catalogName : String) (transactionId : Nat) (table : Table)
    (created : Except Exception Bool) : Except Exception (CreateSecretInput × ScopedSecrets) := do
  let input ← buildScopedS3Secret table
  let input := { input with
    name := scopedSecretName catalogName transactionId state.names.length
  }
  if ← created then
    return (input, { names := state.names ++ [input.name] })
  else
    throw {
      type    := .io
      message :=
        s!"Failed to create scoped S3 secret '{input.name}' for table '{table.name.toString}'"
    }

-- Drops the secrets and forgets their names, also if the drops fail.
def dropAll (state : ScopedSecrets) (secrets : SecretManager) (outcome : DropOutcome) :
    ScopedSecrets × SecretManager :=
  if state.names.isEmpty then
    (.empty, secrets)
  else
    match outcome with
    | .succeeded      => (.empty, state.names.foldl SecretManager.dropSecretByName secrets)
    | .failed dropped =>
      (.empty, state.names.filter dropped |>.foldl SecretManager.dropSecretByName secrets)

def transactionCommit (state : ScopedSecrets) (secrets : SecretManager) (outcome : DropOutcome) :
    ScopedSecrets × SecretManager :=
  state.dropAll secrets outcome

def transactionRollback (state : ScopedSecrets) (secrets : SecretManager) (outcome : DropOutcome) :
    ScopedSecrets × SecretManager :=
  state.dropAll secrets outcome

end ScopedSecrets

-- What comes of a scan. The secret is the one that it has created, if any.
structure ScanResult where
  result  : Except Exception Unit
  entry   : TableEntry
  state   : ScopedSecrets
  created : Option CreateSecretInput

def TableEntry.getScanFunction (entry : TableEntry) (state : ScopedSecrets) (catalogName : String)
    (transactionId : Nat) (outcomes : ScanOutcomes) : ScanResult :=
  match entry.scanInfo with
  | none          =>
    let message := s!"Cannot scan Iceberg table '{entry.name}' before it is fully loaded"
    { result := .error { type := .internal, message }, entry, state, created := none }
  | some scanInfo =>
    match outcomes.loadHttpfs with
    | .error exception => { result := .error exception, entry, state, created := none }
    | .ok _            =>
      if entry.hasSecret then
        { result := outcomes.bind, entry, state, created := none }
      else
        match state.create catalogName transactionId scanInfo.table outcomes.createSecret with
        | .error exception    => { result := .error exception, entry, state, created := none }
        | .ok (input, state)  => {
            result  := outcomes.bind
            entry   := { entry with hasSecret := true }
            state
            created := some input
          }

end ProtoIceberg
