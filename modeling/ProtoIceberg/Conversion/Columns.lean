import ProtoIceberg.Objects.Value

namespace ProtoIceberg

-- A column of DuckDB's readers. The default expression is a constant.
structure MultiFileColumnDefinition where
  name              : String
  type              : LogicalType
  children          : List MultiFileColumnDefinition
  defaultExpression : Value
  identifier        : Value

mutual

def addChildColumns : IcebergType → Except Exception (List MultiFileColumnDefinition)
  | .struct fields => buildChildColumns fields
  | .list element  => do return [← buildColumnDefinition element]
  | .map key value => do return [← buildColumnDefinition key, ← buildColumnDefinition value]
  | _              => .ok []

def buildColumnDefinition : SchemaField → Except Exception MultiFileColumnDefinition
  | ⟨fieldId, name, icebergType, _⟩ => do
    let type ← mapIcebergType icebergType
    let children ← addChildColumns icebergType
    -- Fields that are missing from a data file read back as NULL.
    return { name, type, children, defaultExpression := .null type, identifier := .integer fieldId }

def buildChildColumns : List SchemaField → Except Exception (List MultiFileColumnDefinition)
  | []              => .ok []
  | field :: fields => do
    let child ← buildColumnDefinition field
    return child :: (← buildChildColumns fields)

end

def buildColumnList (schema : Schema) : Except Exception (List MultiFileColumnDefinition) :=
  schema.fields.mapM buildColumnDefinition

end ProtoIceberg
