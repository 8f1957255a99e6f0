import Mathlib.Data.List.Nodup
import ProtoIceberg.Objects.Exception

namespace ProtoIceberg

inductive LogicalType
  | boolean
  | tinyint
  | smallint
  | integer
  | bigint
  | float
  | double
  | varchar
  | blob
  | date
  | time
  | timestamp
  | timestampTz
  | uuid
  | decimal (width scale : Nat)
  | list (child : LogicalType)
  | map (key value : LogicalType)
  | struct (children : List (String × LogicalType))
  | unknown

structure Field (τ : Type) where
  fieldId : Int32
  name    : String
  type    : τ
  doc     : String

-- The types of iceberg-cpp. Those added by version 3 of the format are all in `other`.
inductive IcebergType
  | boolean
  | int
  | long
  | float
  | double
  | string
  | binary
  | date
  | time
  | timestamp
  | timestampTz
  | uuid
  | fixed (length : Nat)
  | decimal (precision scale : Nat)
  | list (element : Field IcebergType)
  | map (key value : Field IcebergType)
  | struct (fields : List (Field IcebergType))
  | other (name : String)

abbrev SchemaField := Field IcebergType

-- Iceberg identifies a schema's columns by name as well as by ID, so names are unique.
structure Schema where
  fields : List SchemaField
  nodup  : (fields.map Field.name).Nodup

mutual

def mapIcebergType : IcebergType → Except Exception LogicalType
  | .boolean                         => .ok .boolean
  | .int                             => .ok .integer
  | .long                            => .ok .bigint
  | .float                           => .ok .float
  | .double                          => .ok .double
  | .string                          => .ok .varchar
  | .binary                          => .ok .blob
  | .date                            => .ok .date
  | .time                            => .ok .time
  | .timestamp                       => .ok .timestamp
  | .timestampTz                     => .ok .timestampTz
  | .uuid                            => .ok .uuid
  | .fixed _                         => .ok .blob
  | .decimal precision scale         => .ok (.decimal precision scale)
  | .list ⟨_, _, element, _⟩         => do return .list (← mapIcebergType element)
  | .map ⟨_, _, key, _⟩ ⟨_, _, value, _⟩ =>
    do return .map (← mapIcebergType key) (← mapIcebergType value)
  | .struct fields                   => do return .struct (← mapStructFields fields)
  | .other name                      =>
    .error { type := .invalidInput, message := s!"Unsupported Iceberg type: {name}" }

def mapStructFields : List SchemaField → Except Exception (List (String × LogicalType))
  | []                        => .ok []
  | ⟨_, name, type, _⟩ :: fields => do
    let child ← mapIcebergType type
    return (name, child) :: (← mapStructFields fields)

end

end ProtoIceberg
