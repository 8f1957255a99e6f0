import ProtoIceberg.Conversion.Columns
import ProtoIceberg.Scan.MultiFileList

namespace ProtoIceberg

inductive MultiFileColumnMappingMode
  | byName
  | byFieldId
  deriving DecidableEq

structure MultiFileReaderBindData where
  schema  : List MultiFileColumnDefinition
  mapping : MultiFileColumnMappingMode

def MultiFileList.getScanSchema (list : MultiFileList) : Schema :=
  list.scanInfo.schema

namespace MultiFileReader

-- Iceberg identifies columns by field ID, which survives renames.
def bind (files : MultiFileList) (returnTypes : List LogicalType) (names : List String) :
    Except Exception (List LogicalType × List String × MultiFileReaderBindData) := do
  let schema ← buildColumnList files.getScanSchema
  let (returnTypes, names) := schema.foldl
    (fun (returnTypes, names) col => (returnTypes ++ [col.type], names ++ [col.name]))
    (returnTypes, names)
  return (returnTypes, names, { schema, mapping := .byFieldId })

end MultiFileReader

end ProtoIceberg
