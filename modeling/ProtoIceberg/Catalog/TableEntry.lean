import ProtoIceberg.Objects.Table

namespace ProtoIceberg

structure ColumnDefinition where
  name    : String
  type    : LogicalType
  comment : Option String

-- DuckDB's column names are case-insensitive.
def addColumn (columns : List ColumnDefinition) (column : ColumnDefinition) :
    Except Exception (List ColumnDefinition) :=
  if columns.any (·.name.toLower = column.name.toLower) then
    .error { type := .catalog, message := s!"Column with name {column.name} already exists!" }
  else
    .ok (columns ++ [column])

structure TableEntry where
  name      : String
  columns   : List ColumnDefinition
  scanInfo  : Option ScanInfo
  hasSecret : Bool

namespace TableEntry

-- Whether this is a listing placeholder, which must be loaded before it's scanned or described.
def needsLoad (entry : TableEntry) : Bool :=
  entry.scanInfo.isNone

def placeholder (name : String) : TableEntry where
  name      := name
  columns   := [{ name := "__", type := .unknown, comment := none }]
  scanInfo  := none
  hasSecret := false

end TableEntry

def createColumn (field : SchemaField) : Except Exception ColumnDefinition := do
  let type ← mapIcebergType field.type
  return { name := field.name, type, comment := if field.doc = "" then none else some field.doc }

def createTableEntry (scanInfo : ScanInfo) (entryName : String) : Except Exception TableEntry := do
  let columns ← scanInfo.schema.fields.foldlM (fun columns field => do
    addColumn columns (← createColumn field)) []
  return { name := entryName, columns, scanInfo := some scanInfo, hasSecret := false }

theorem createTableEntry_ok {scanInfo : ScanInfo} {name : String} {entry : TableEntry}
    (h : createTableEntry scanInfo name = .ok entry) :
    entry.name = name ∧ entry.scanInfo = some scanInfo ∧ entry.hasSecret = false := by
  have ⟨columns, _, he⟩ := Except.bind_eq_ok_iff.mp h
  cases he
  exact ⟨rfl, rfl, rfl⟩

end ProtoIceberg
