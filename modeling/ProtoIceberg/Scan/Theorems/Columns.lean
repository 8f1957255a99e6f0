import ProtoIceberg.Catalog.TableEntry
import ProtoIceberg.Extensions.Except
import ProtoIceberg.Scan.MultiFileReader

namespace ProtoIceberg

namespace IcebergType

-- The fields directly inside of a type.
def fields : IcebergType → List SchemaField
  | .struct fields => fields
  | .list element  => [element]
  | .map key value => [key, value]
  | _              => []

theorem sizeOf_lt_of_mem_fields {type : IcebergType} {field : SchemaField}
    (hf : field ∈ type.fields) : sizeOf field.type < sizeOf type := by
  have hfield : sizeOf field.type < sizeOf field := by
    cases field
    simp
    omega
  cases type
  case list element =>
    cases List.mem_singleton.mp hf
    simp
    omega
  case map key value =>
    have hkv : field = key ∨ field = value := by simpa [fields] using hf
    cases hkv <;> subst field <;> simp <;> omega
  case struct fields =>
    have hmem : sizeOf field < sizeOf fields := List.sizeOf_lt_of_mem hf
    simp
    omega
  all_goals exact nomatch hf

-- What holds of a type if it holds of the types inside of it, holds of all types.
theorem fieldInduction {P : IcebergType → Prop}
    (h : ∀ type, (∀ field ∈ type.fields, P field.type) → P type) (type : IcebergType) : P type :=
  h type fun field hf =>
    have := sizeOf_lt_of_mem_fields hf
    fieldInduction h field.type
termination_by type

-- Whether an unsupported type occurs anywhere in a type.
inductive Unsupported : IcebergType → Prop
  | here {name : String} : Unsupported (.other name)
  | inside {type : IcebergType} {field : SchemaField} (hf : field ∈ type.fields)
      (h : Unsupported field.type) : Unsupported type

theorem unsupported_iff (type : IcebergType) : type.Unsupported ↔
    (∃ name, type = .other name) ∨ ∃ field ∈ type.fields, field.type.Unsupported := by
  constructor
  case mp =>
    intro h
    cases h
    case here name   => exact .inl ⟨name, rfl⟩
    case inside h hf => exact .inr ⟨_, hf, h⟩
  case mpr =>
    intro h
    cases h
    case inl h => have ⟨_, h⟩ := h; exact h ▸ .here
    case inr h => have ⟨_, hf, h⟩ := h; exact .inside hf h

-- How a type is made up of those of the columns inside of it.
def Composed : IcebergType → LogicalType → List MultiFileColumnDefinition → Prop
  | .struct _, type, children => type = .struct (children.map fun c => (c.name, c.type))
  | .list _, type, children   => ∃ c, children = [c] ∧ type = .list c.type
  | .map _ _, type, children  => ∃ k v, children = [k, v] ∧ type = .map k.type v.type
  | _, _, children            => children = []

end IcebergType

-- A column and those inside of it correspond to a field and those inside of it.
inductive Describes : SchemaField → MultiFileColumnDefinition → Prop
  | intro {field : SchemaField} {column : MultiFileColumnDefinition}
      (name : column.name = field.name)
      (identifier : column.identifier = .integer field.fieldId)
      (type : mapIcebergType field.type = .ok column.type)
      (default : column.defaultExpression = .null column.type)
      (children : List.Forall₂ Describes field.type.fields column.children)
      (composed : field.type.Composed column.type column.children) :
    Describes field column

theorem buildChildColumns_eq_mapM {fields : List SchemaField} :
    buildChildColumns fields = fields.mapM buildColumnDefinition := by
  induction fields
  case nil => rfl
  case cons field fields ih => rw [buildChildColumns, ih, List.mapM_cons]

theorem mapStructFields_eq_mapM {fields : List SchemaField} :
    mapStructFields fields =
      fields.mapM fun field => do return (field.name, ← mapIcebergType field.type) := by
  induction fields
  case nil => rfl
  case cons field fields ih =>
    rw [mapStructFields, ih, List.mapM_cons]
    cases mapIcebergType field.type <;> rfl

-- What mapping a type and building the columns inside of it come to.
def Builds (type : IcebergType) : Prop :=
  (mapIcebergType type).FailsIff type.Unsupported fun duckdbType =>
    ∃ children, addChildColumns type = .ok children ∧
      List.Forall₂ Describes type.fields children ∧ type.Composed duckdbType children

theorem Builds.column {field : SchemaField} (h : Builds field.type) :
    (buildColumnDefinition field).FailsIff field.type.Unsupported (Describes field) := by
  rw [buildColumnDefinition]
  refine (h.imp .rfl fun type htype hg => And.intro htype hg).bind_ok fun type hg => ?_
  have ⟨htype, children, hchildren, hdescribes, hcomposed⟩ := hg
  exact ⟨_, by rw [hchildren]; rfl, .intro rfl rfl htype rfl hdescribes hcomposed⟩

theorem Builds.type {field : SchemaField} (h : Builds field.type) :
    (mapIcebergType field.type).FailsIff field.type.Unsupported fun type =>
      ∃ column, buildColumnDefinition field = .ok column ∧ Describes field column ∧
        column.name = field.name ∧ column.type = type := by
  refine h.imp .rfl fun type htype hg => ?_
  have ⟨children, hchildren, hdescribes, hcomposed⟩ := hg
  have hcolumn : buildColumnDefinition field = .ok {
      name := field.name, type, children
      defaultExpression := .null type, identifier := .integer field.fieldId } := by
    rw [buildColumnDefinition, htype, hchildren]
    rfl
  exact ⟨_, hcolumn, .intro rfl rfl htype rfl hdescribes hcomposed, rfl, rfl⟩

theorem builds_leaf {type : IcebergType} {duckdbType : LogicalType} (hn : ∀ name, type ≠ .other name)
    (hf : type.fields = []) (htype : mapIcebergType type = .ok duckdbType)
    (hc : addChildColumns type = .ok []) (hcomposed : type.Composed duckdbType []) : Builds type := by
  have hsupported : ¬type.Unsupported := by
    rw [IcebergType.unsupported_iff, hf]
    simp [hn]
  rw [Builds, htype]
  exact ⟨hsupported, [], hc, hf ▸ .nil, hcomposed⟩

-- A struct's child has the name and the type of the column that is built of its field.
def IsChild (field : SchemaField) (child : String × LogicalType) : Prop :=
  ∃ column, buildColumnDefinition field = .ok column ∧ Describes field column ∧
    child = (column.name, column.type)

theorem columns_of_children {fields : List SchemaField} {children : List (String × LogicalType)}
    (h : List.Forall₂ IsChild fields children) :
    ∃ columns, fields.mapM buildColumnDefinition = .ok columns ∧
      List.Forall₂ Describes fields columns ∧ children = columns.map fun c => (c.name, c.type) := by
  induction h
  case nil => exact ⟨[], rfl, .nil, rfl⟩
  case cons hfield _ ih =>
    have ⟨column, hcolumn, hdescribes, hchild⟩ := hfield
    have ⟨columns, hcolumns, hall, hchildren⟩ := ih
    refine ⟨column :: columns, ?_, .cons hdescribes hall, by rw [hchild, hchildren]; rfl⟩
    rw [List.mapM_cons, hcolumn, hcolumns]
    rfl

theorem builds (type : IcebergType) : Builds type := by
  induction type using IcebergType.fieldInduction
  case h type ih =>
    cases type
    case other name => exact .here
    case list element =>
      have heq : mapIcebergType (.list element) = do return .list (← mapIcebergType element.type) := by
        cases element
        rw [mapIcebergType]
      rw [Builds, heq]
      refine ((ih element (.head _)).type.bind_ok fun type hg => ?_).imp ?_ fun _ _ => id
      case refine_1 =>
        obtain ⟨column, hcolumn, hdescribes, _, htype⟩ := hg
        exact ⟨_, rfl, [column], by rw [addChildColumns, hcolumn]; rfl, .cons hdescribes .nil,
          column, rfl, htype ▸ rfl⟩
      case refine_2 => simp [IcebergType.unsupported_iff (.list element), IcebergType.fields]
    case map key value =>
      have heq : mapIcebergType (.map key value) =
          do return .map (← mapIcebergType key.type) (← mapIcebergType value.type) := by
        cases key
        cases value
        rw [mapIcebergType]
      rw [Builds, heq]
      refine ((ih key (.head _)).type.bind fun type hg =>
        (ih value (.tail _ (.head _))).type.bind_ok fun type' hg' => ?_).imp ?_ fun _ _ => id
      case refine_1 =>
        obtain ⟨column, hcolumn, hdescribes, _, htype⟩ := hg
        obtain ⟨column', hcolumn', hdescribes', _, htype'⟩ := hg'
        exact ⟨_, rfl, [column, column'], by rw [addChildColumns, hcolumn, hcolumn']; rfl,
          .cons hdescribes (.cons hdescribes' .nil), column, column', rfl, htype ▸ htype' ▸ rfl⟩
      case refine_2 => simp [IcebergType.unsupported_iff (.map key value), IcebergType.fields]
    case struct fields =>
      rw [Builds, mapIcebergType, mapStructFields_eq_mapM]
      have hfields : (fields.mapM fun field : SchemaField => do
          return (field.name, ← mapIcebergType field.type)).FailsIff
            (∃ field ∈ fields, field.type.Unsupported) (List.Forall₂ IsChild fields) := by
        refine .mapM fun field hf => (ih field hf).type.bind_ok fun type hg => ⟨_, rfl, ?_⟩
        obtain ⟨column, hcolumn, hdescribes, hname, htype⟩ := hg
        exact ⟨column, hcolumn, hdescribes, hname ▸ htype ▸ rfl⟩
      refine (hfields.bind_ok fun children hg => ?_).imp ?_ fun _ _ => id
      case refine_1 =>
        obtain ⟨columns, hcolumns, hdescribes, hchildren⟩ := columns_of_children hg
        refine ⟨_, rfl, columns, ?_, hdescribes, hchildren ▸ rfl⟩
        rw [addChildColumns, buildChildColumns_eq_mapM, hcolumns]
      case refine_2 => simp [IcebergType.unsupported_iff (.struct fields), IcebergType.fields]
    all_goals exact builds_leaf (by simp) rfl rfl rfl rfl

theorem createColumn_failsIff (field : SchemaField) :
    (createColumn field).FailsIff field.type.Unsupported fun column =>
      column.name = field.name ∧ mapIcebergType field.type = .ok column.type := by
  rw [createColumn]
  refine ((builds field.type).imp .rfl fun _ htype _ => htype).bind_ok fun type htype => ?_
  exact ⟨_, rfl, rfl, htype⟩

theorem addColumn_failsIff (columns : List ColumnDefinition) (column : ColumnDefinition) :
    (addColumn columns column).FailsIff (column.name.toLower ∈ columns.map (·.name.toLower))
      (· = columns ++ [column]) := by
  rw [addColumn]
  split
  case isTrue h  => exact List.mem_map.mpr <| by simpa using h
  case isFalse h => exact ⟨fun hmem => h <| by simpa using List.mem_map.mp hmem, rfl⟩

namespace SchemaField

-- Columns of the given fields that DuckDB would not tell apart by their names.
def Collide (fields : List SchemaField) : Prop :=
  ¬(fields.map (·.name.toLower)).Nodup

theorem collide_concat_iff {fields : List SchemaField} {field : SchemaField} :
    Collide (fields ++ [field]) ↔
      Collide fields ∨ field.name.toLower ∈ fields.map (·.name.toLower) := by
  rw [Collide, Collide, List.map_append, List.map_singleton, ← List.concat_eq_append,
    List.nodup_concat]
  tauto

end SchemaField

-- The columns that have been added for the given fields.
def Adds (fields : List SchemaField) (columns : List ColumnDefinition) : Prop :=
  fields.mapM createColumn = .ok columns ∧
    columns.map (·.name.toLower) = fields.map (·.name.toLower)

theorem Adds.concat_failsIff {fields : List SchemaField} {columns : List ColumnDefinition}
    (h : Adds fields columns) (field : SchemaField) :
    (createColumn field >>= addColumn columns).FailsIff
      (field.type.Unsupported ∨ field.name.toLower ∈ fields.map (·.name.toLower))
      (Adds (fields ++ [field])) := by
  have hcolumn := (createColumn_failsIff field).imp .rfl fun _ hok hg => And.intro hok hg.left
  refine hcolumn.bind fun column ⟨hok, hname⟩ => ?_
  refine (addColumn_failsIff columns column).imp (by rw [h.right, hname]) ?_
  intro columns' _ heq
  subst heq
  refine ⟨?_, by simp [h.right, hname]⟩
  simp only [List.mapM_append, List.mapM_cons, List.mapM_nil, h.left, hok]
  rfl

theorem addColumns_failsIff (fields : List SchemaField) :
    (fields.foldlM (fun columns field => do addColumn columns (← createColumn field)) []).FailsIff
      ((∃ field ∈ fields, field.type.Unsupported) ∨ SchemaField.Collide fields) (Adds fields) := by
  induction fields using List.reverseRecOn
  case nil => exact ⟨by simp [SchemaField.Collide], rfl, rfl⟩
  case append_singleton fields field ih =>
    have hlast columns (h : Adds fields columns) := h.concat_failsIff field
    simp only [List.foldlM_append, List.foldlM_cons, List.foldlM_nil, bind_pure]
    refine (ih.bind hlast).imp ?_ fun _ _ => id
    rw [SchemaField.collide_concat_iff]
    simp only [List.mem_append, List.mem_singleton, or_and_right, exists_or, exists_eq_left]
    exact or_or_or_comm

-- A table entry has the columns that its fields map to, unless their names collide.
theorem createTableEntry_failsIff (info : ScanInfo) (name : String) :
    (createTableEntry info name).FailsIff
      ((∃ field ∈ info.schema.fields, field.type.Unsupported) ∨
        SchemaField.Collide info.schema.fields)
      fun entry => info.schema.fields.mapM createColumn = .ok entry.columns :=
  (addColumns_failsIff info.schema.fields).bind_ok fun _ h => ⟨_, rfl, h.left⟩

theorem names_and_types_eq {fields : List SchemaField} {columns : List MultiFileColumnDefinition}
    {entries : List ColumnDefinition} (h : List.Forall₂ Describes fields columns)
    (h' : List.Forall₂ (fun field column => column.name = field.name ∧
      mapIcebergType field.type = .ok column.type) fields entries) :
    entries.map (fun c => (c.name, c.type)) = columns.map fun c => (c.name, c.type) := by
  induction h generalizing entries
  case nil => cases h'; rfl
  case cons hcolumn _ ih =>
    cases h'
    case cons hentry hentries =>
      have ⟨hname, _, htype, _, _, _⟩ := hcolumn
      have heq := Except.ok.inj (hentry.right.symm.trans htype)
      simp [ih hentries, hentry.left, hname, heq]

theorem MultiFileReader.bind_ok {files : MultiFileList} {returnTypes : List LogicalType} {names : List String}
    {columns : List MultiFileColumnDefinition}
    (h : buildColumnList files.getScanSchema = .ok columns) :
    bind files returnTypes names =
      .ok (returnTypes ++ columns.map (·.type), names ++ columns.map (·.name),
        { schema := columns, mapping := .byFieldId }) := by
  have go (columns : List MultiFileColumnDefinition) (returnTypes : List LogicalType)
      (names : List String) :
      columns.foldl (fun acc col => (acc.1 ++ [col.type], acc.2 ++ [col.name]))
        (returnTypes, names) =
          (returnTypes ++ columns.map (·.type), names ++ columns.map (·.name)) := by
    induction columns generalizing returnTypes names
    case nil => simp
    case cons column columns ih => simp [ih]
  rw [bind, h]
  exact congrArg (fun acc => Except.ok (acc.1, acc.2, _)) (go columns returnTypes names)

-- What DuckDB knows of a schema's columns agrees, however they are nested.
theorem columns_describe_one_tree (schema : Schema) :
    ((∃ e, buildColumnList schema = .error e) ↔ ∃ field ∈ schema.fields, field.type.Unsupported) ∧
    ((∃ e, buildColumnList schema = .error e) ↔ ∃ e, schema.fields.mapM createColumn = .error e) ∧
    (∀ info name, info.schema = schema → ((∃ e, createTableEntry info name = .error e) ↔
      (∃ field ∈ schema.fields, field.type.Unsupported) ∨ SchemaField.Collide schema.fields)) ∧
    ∀ columns, buildColumnList schema = .ok columns →
      List.Forall₂ Describes schema.fields columns ∧
      (∀ info name entry, info.schema = schema → createTableEntry info name = .ok entry →
        schema.fields.mapM createColumn = .ok entry.columns ∧
        entry.columns.map (fun c => (c.name, c.type)) = columns.map fun c => (c.name, c.type)) ∧
      ∀ (files : MultiFileList) returnTypes names, files.getScanSchema = schema →
        MultiFileReader.bind files returnTypes names =
          .ok (returnTypes ++ columns.map (·.type), names ++ columns.map (·.name),
            { schema := columns, mapping := .byFieldId }) := by
  have hlist := Except.FailsIff.mapM fun field (_ : field ∈ schema.fields) => (builds field.type).column
  have hentry := Except.FailsIff.mapM fun field (_ : field ∈ schema.fields) =>
    createColumn_failsIff field
  refine ⟨hlist.error_iff, hlist.error_iff.trans hentry.error_iff.symm, ?_, ?_⟩
  case refine_1 =>
    intro info name hinfo
    subst hinfo
    exact (createTableEntry_failsIff info name).error_iff
  intro columns hcolumns
  have hdescribes := hlist.of_ok hcolumns
  refine ⟨hdescribes, ?_, ?_⟩
  case refine_1 =>
    intro info name entry hinfo he
    have hmap := hinfo ▸ (createTableEntry_failsIff info name).of_ok he
    exact ⟨hmap, names_and_types_eq hdescribes (hentry.of_ok hmap)⟩
  case refine_2 =>
    intro files returnTypes names hfiles
    exact MultiFileReader.bind_ok (hfiles ▸ hcolumns)

-- A schema with types inside of types.
def peopleSchema : Schema where
  fields :=
    let element : SchemaField := { fieldId := 4, name := "element", type := .string, doc := "" }
    let names : SchemaField := { fieldId := 2, name := "names", type := .list element, doc := "" }
    let age : SchemaField := { fieldId := 3, name := "age", type := .int, doc := "" }
    [{ fieldId := 1, name := "person", type := .struct [names, age], doc := "a person" }]
  nodup := by decide

def people : ScanInfo where
  mode   := .currentRead
  schema := peopleSchema
  table  := {
    name                       := { ns := { levels := ["shop"] }, name := "people" }
    location                   := "s3://shop/people"
    io                         := some []
    properties                 := []
    lastUpdatedMs              := 0
    snapshots                  := []
    currentSnapshot            := none
    schema                     := .ok peopleSchema
    schemaFor _                := .error { kind := .other 0, message := "" }
    optionalSnapshotIdAsOfTime := fun _ => none
  }

-- With a further column that differs from another one in case only, there is no table entry.
theorem columns_describe_one_tree_people :
    let shouting : SchemaField := { fieldId := 5, name := "PERSON", type := .string, doc := "" }
    let schema : Schema := { fields := shouting :: peopleSchema.fields, nodup := by decide }
    (∃ columns entry, buildColumnList peopleSchema = .ok columns ∧
      createTableEntry people "people" = .ok entry ∧
      List.Forall₂ Describes peopleSchema.fields columns ∧
      entry.columns.map (fun c => (c.name, c.type)) = columns.map (fun c => (c.name, c.type)) ∧
      MultiFileReader.bind (.create people) [] [] =
        .ok (columns.map (·.type), columns.map (·.name),
          { schema := columns, mapping := .byFieldId })) ∧
    ∃ e, createTableEntry { people with schema } "people" = .error e := by
  intro shouting schema
  constructor
  case left =>
    obtain ⟨hdescribes, hentry, hbind⟩ :=
      (columns_describe_one_tree peopleSchema).right.right.right _ rfl
    exact ⟨_, _, rfl, rfl, hdescribes, (hentry people "people" _ rfl rfl).right,
      hbind (.create people) [] [] rfl⟩
  case right =>
    have hentry := (columns_describe_one_tree schema).right.right.left
    have hlower : "PERSON".toLower = "person".toLower := by
      change "PERSON".map Char.toLower = "person".map Char.toLower
      apply String.toList_injective
      rw [String.toList_map, String.toList_map]
      rfl
    refine (hentry { people with schema } "people" rfl).mpr <| .inr ?_
    simp [SchemaField.Collide, schema, shouting, peopleSchema, hlower]

end ProtoIceberg
