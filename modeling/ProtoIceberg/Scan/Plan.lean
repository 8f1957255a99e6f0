import ProtoIceberg.Scan.MultiFileList

namespace ProtoIceberg

-- The formats of data files. Those that the extension does not read are in `other`.
inductive FileFormatType
  | parquet
  | other (name : String)
  deriving DecidableEq

def FileFormatType.toString : FileFormatType → String
  | .parquet    => "parquet"
  | .other name => name

namespace Manifest

-- A data file by its entry in a manifest.
structure DataFile where
  filePath        : String
  fileFormat      : FileFormatType
  recordCount     : Int64
  fileSizeInBytes : Int64
  deriving DecidableEq

end Manifest

-- A data file and the files that delete rows from it.
structure FileScanTask where
  dataFile    : Manifest.DataFile
  deleteFiles : List Manifest.DataFile

-- What becomes of building a scan of a table, of the snapshot and with the filter that it is given, and
-- of planning it.
structure TableScans (ε : Type*) where
  planFiles : Table → Option Int → Option ε → Result (List FileScanTask)

structure ScanPlan where
  dataFiles        : List Manifest.DataFile
  totalRecordCount : UInt64

-- The values of a file's options.
inductive FileOption
  | ubigint (value : UInt64)
  | boolean (value : Bool)
  | varchar (value : String)
  | timestamp (micros : Int64)
  deriving DecidableEq

structure OpenFileInfo where
  path         : String
  extendedInfo : Option (List (String × FileOption))
  deriving DecidableEq

-- Iceberg data files are immutable, so they are not validated again.
def makeOpenFileInfo (df : Manifest.DataFile) : OpenFileInfo where
  path         := df.filePath
  extendedInfo := some [
    ("file_size", .ubigint df.fileSizeInBytes.toUInt64),
    ("validate_external_file_cache", .boolean false),
    ("etag", .varchar ""),
    ("last_modified", .timestamp 0)
  ]

structure NodeStatistics where
  estimatedCardinality : UInt64
  maxCardinality       : UInt64

namespace MultiFileList

-- Adds a task's data file to the plan, if the extension can read it.
def planTask (table : Table) (plan : ScanPlan) (task : FileScanTask) : Result ScanPlan :=
  if task.deleteFiles ≠ [] then
    .error { kind := .notImplemented, message := "Reading delete files is not yet supported" }
  else if task.dataFile.fileFormat ≠ .parquet then
    .error {
      kind    := .notImplemented
      message :=
        s!"Only Parquet data files are supported; table '{table.name.toString}' contains " ++
          s!"'{task.dataFile.fileFormat.toString}' files"
    }
  else
    .ok {
      dataFiles        := plan.dataFiles ++ [task.dataFile]
      totalRecordCount := plan.totalRecordCount + task.dataFile.recordCount.toUInt64
    }

variable {ε : Type*} [Expressions ε] (scans : TableScans ε) (list : MultiFileList)

def planFilesImpl : Result ScanPlan := do
  let info := list.scanInfo
  let tasks ← scans.planFiles info.table info.mode.useSnapshot (list.planFilter ε)
  tasks.foldlM (planTask info.table) { dataFiles := [], totalRecordCount := 0 }

-- Reports unsupported features as such rather than as I/O errors.
def planFiles : Except Exception ScanPlan :=
  match list.planFilesImpl scans with
  | .error { kind := .notImplemented, message } => .error { type := .notImplemented, message }
  | result =>
    unwrapOrThrow result s!"Failed to plan files for table '{list.scanInfo.table.name.toString}'"

def getAllFiles : Except Exception (List OpenFileInfo) := do
  let plan ← list.planFiles scans
  return plan.dataFiles.map makeOpenFileInfo

-- There is an empty file past the end.
def getFile (idx : Nat) : Except Exception OpenFileInfo := do
  let plan ← list.planFiles scans
  match plan.dataFiles[idx]? with
  | some df => return makeOpenFileInfo df
  | none    => return { path := "", extendedInfo := none }

def getTotalFileCount : Except Exception Nat := do
  let plan ← list.planFiles scans
  return plan.dataFiles.length

def getCardinality : Except Exception NodeStatistics := do
  let plan ← list.planFiles scans
  return { estimatedCardinality := plan.totalRecordCount, maxCardinality := plan.totalRecordCount }

end MultiFileList

end ProtoIceberg
