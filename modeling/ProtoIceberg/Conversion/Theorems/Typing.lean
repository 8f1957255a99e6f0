import ProtoIceberg.Conversion.Translate
import ProtoIceberg.Extensions.Except
import ProtoIceberg.Extensions.List

namespace ProtoIceberg

def Value.type : Value → LogicalType
  | .null type     => type
  | .boolean _     => .boolean
  | .tinyint _     => .tinyint
  | .smallint _    => .smallint
  | .integer _     => .integer
  | .bigint _      => .bigint
  | .float _       => .float
  | .double _      => .double
  | .varchar _     => .varchar
  | .date _        => .date
  | .time _        => .time
  | .timestamp _   => .timestamp
  | .timestampTz _ => .timestampTz
  | .decimal w s _ => .decimal w s
  | .other type _  => type

def Literal.type : Literal → IcebergType
  | .boolean _     => .boolean
  | .int _         => .int
  | .long _        => .long
  | .float _       => .float
  | .double _      => .double
  | .string _      => .string
  | .date _        => .date
  | .time _        => .time
  | .timestamp _   => .timestamp
  | .timestampTz _ => .timestampTz
  | .decimal _ p s => .decimal p s

-- Whether all constants of a filter have the type that columns of the Iceberg type are read with.
inductive TableFilter.Typed (type : IcebergType) : TableFilter → Prop
  | constantComparison {op c} (h : mapIcebergType type = .ok c.type) :
    Typed type (.constantComparison op c)
  | isNull : Typed type .isNull
  | isNotNull : Typed type .isNotNull
  | inFilter {cs} (hne : cs ≠ []) (h : ∀ c ∈ cs, mapIcebergType type = .ok c.type) :
    Typed type (.inFilter cs)
  | conjunctionAnd {fs} (h : ∀ f ∈ fs, Typed type f) : Typed type (.conjunctionAnd fs)
  | conjunctionOr {fs} (h : ∀ f ∈ fs, Typed type f) : Typed type (.conjunctionOr fs)
  | optionalNone : Typed type (.optionalFilter none)
  | optionalSome {f} (h : Typed type f) : Typed type (.optionalFilter (some f))
  | other {kind} : Typed type (.other kind)

-- iceberg-cpp rejects NaN literals.
def Literal.Fits (type : IcebergType) (l : Literal) : Prop :=
  l.type = type ∧ ¬l.isNaN

namespace Expressions

variable {ε : Type*} [Expressions ε]

def comparisons : List (String → Literal → ε) :=
  [equal, notEqual, lessThan, lessThanOrEqual, greaterThan, greaterThanOrEqual]

-- The expressions over a schema's fields whose literals have the types of the fields.
inductive Typed (schema : Schema) : ε → Prop
  | alwaysTrue : Typed schema alwaysTrue
  | alwaysFalse : Typed schema alwaysFalse
  | isNull {field} (hf : field ∈ schema.fields) : Typed schema (isNull field.name)
  | notNull {field} (hf : field ∈ schema.fields) : Typed schema (notNull field.name)
  | comparison {field compare l} (hf : field ∈ schema.fields) (hc : compare ∈ comparisons)
    (hl : l.Fits field.type) : Typed schema (compare field.name l)
  | isIn {field ls} (hf : field ∈ schema.fields) (hne : ls ≠ [])
    (hl : ∀ l ∈ ls, Literal.Fits field.type l) : Typed schema (isIn field.name ls)
  | and {a b} (ha : Typed schema a) (hb : Typed schema b) : Typed schema (and a b)
  | or {a b} (ha : Typed schema a) (hb : Typed schema b) : Typed schema (or a b)

namespace Typed

variable {schema : Schema} {e : ε} {es : List ε}

theorem foldl_and (he : Typed schema e) (hes : ∀ e ∈ es, Typed schema e) :
    Typed schema (es.foldl Expressions.and e) := by
  induction es generalizing e
  case nil => exact he
  case cons e' es ih =>
    rw [List.forall_mem_cons] at hes
    exact ih (.and he hes.left) hes.right

theorem foldl_or (he : Typed schema e) (hes : ∀ e ∈ es, Typed schema e) :
    Typed schema (es.foldl Expressions.or e) := by
  induction es generalizing e
  case nil => exact he
  case cons e' es ih =>
    rw [List.forall_mem_cons] at hes
    exact ih (.or he hes.left) hes.right

end Typed

end Expressions

def IcebergType.isNested : IcebergType → Bool
  | .list _ | .map _ _ | .struct _ => true
  | _                              => false

def LogicalType.isNested : LogicalType → Bool
  | .list _ | .map _ _ | .struct _ => true
  | _                              => false

theorem isNested_mapIcebergType {type : IcebergType} {t : LogicalType}
    (h : mapIcebergType type = .ok t) : t.isNested = type.isNested := by
  cases type
  case list element =>
    obtain ⟨_, _, h⟩ := Except.bind_eq_ok_iff.mp h
    cases h
    rfl
  case map key value =>
    obtain ⟨_, _, h⟩ := Except.bind_eq_ok_iff.mp h
    obtain ⟨_, _, h⟩ := Except.bind_eq_ok_iff.mp h
    cases h
    rfl
  case struct fields =>
    obtain ⟨_, _, h⟩ := Except.bind_eq_ok_iff.mp h
    cases h
    rfl
  case other name => exact nomatch h
  all_goals
    cases h
    rfl

-- A constant of the type that a column is read with becomes a literal of the column's type.
theorem Literal.type_of_convert {type : IcebergType} {c : Value} {l : Literal}
    (hl : convertValueToLiteral c = some l) (h : mapIcebergType type = .ok c.type) :
    l.type = type := by
  have hn := isNested_mapIcebergType h
  cases c <;> cases hl <;> cases type <;>
    simp_all [mapIcebergType, Value.type, Literal.type, IcebergType.isNested, LogicalType.isNested]

-- NaN constants are not converted.
theorem Literal.fits_of_convert {type : IcebergType} {c : Value} {l : Literal}
    (hl : convertFilterConstant c = some l) (h : mapIcebergType type = .ok c.type) :
    l.Fits type := by
  obtain ⟨hn, hl⟩ := convertFilterConstant_eq_some_iff.mp hl
  refine ⟨type_of_convert hl h, ?_⟩
  cases c <;> cases hl <;> try exact Bool.false_ne_true
  case float x =>
    have hx := (hn _ rfl).left
    rwa [Ieee.isNaN_widen] at hx
  case double x => exact (hn x rfl).left

namespace Expressions.Typed

variable {ε : Type*} [Expressions ε] {schema : Schema} {field : SchemaField}

theorem translateConstantFilter (hf : field ∈ schema.fields) {op : ExpressionType} {c : Value}
    (h : mapIcebergType field.type = .ok c.type) :
    Typed schema (translateConstantFilter field.name op c : ε) := by
  rw [ProtoIceberg.translateConstantFilter]
  cases hl : convertFilterConstant c
  case none   => exact .alwaysTrue
  case some l =>
    have hl := Literal.fits_of_convert hl h
    cases op <;> dsimp only
    case other code => exact .alwaysTrue
    all_goals exact .comparison hf (by simp [comparisons]) hl

theorem translateInFilter (hf : field ∈ schema.fields) {cs : List Value} (hne : cs ≠ [])
    (h : ∀ c ∈ cs, mapIcebergType field.type = .ok c.type) :
    Typed schema (translateInFilter field.name cs : ε) := by
  rw [ProtoIceberg.translateInFilter]
  cases hls : cs.mapM convertFilterConstant
  case none    => exact .alwaysTrue
  case some ls =>
    have hls := List.mapM_eq_some_iff.mp hls
    refine .isIn hf ?hne ?hl
    case hne =>
      rintro rfl
      exact hne (List.map_eq_nil_iff.mp hls)
    case hl =>
      intro l hl
      obtain ⟨c, hc, hcl⟩ := List.mem_map.mp (hls ▸ List.mem_map_of_mem hl)
      exact Literal.fits_of_convert hcl (h c hc)

-- Translating a column's filter yields an expression over the column, whatever it widens.
theorem translateOrWidenFilter (hf : field ∈ schema.fields) {f : TableFilter}
    (h : f.Typed field.type) : Typed schema (translateOrWidenFilter f field : ε) := by
  induction h
  case constantComparison h => exact translateConstantFilter hf h
  case isNull               => exact .isNull hf
  case isNotNull            => exact .notNull hf
  case inFilter hne h       => exact translateInFilter hf hne h
  case conjunctionAnd ih =>
    rw [ProtoIceberg.translateOrWidenFilter, translateOrWidenEach_eq_map]
    exact foldl_and .alwaysTrue (List.forall_mem_map.mpr ih)
  case conjunctionOr ih =>
    rw [ProtoIceberg.translateOrWidenFilter, translateOrWidenEach_eq_map]
    exact foldl_or .alwaysFalse (List.forall_mem_map.mpr ih)
  case optionalNone         => exact .alwaysTrue
  case optionalSome ih      => exact ih
  case other                => exact .alwaysTrue

end Expressions.Typed

-- Whether a filter that is keyed by its column is typed. There are no fields past a schema's end.
def Schema.Types (schema : Schema) : Nat × TableFilter → Prop
  | (columnIdx, filter) => ∀ field, schema.fields[columnIdx]? = some field → filter.Typed field.type

def TableFilterSet.Typed (schema : Schema) (filters : TableFilterSet) : Prop :=
  ∀ (i : Nat) (f : TableFilter), filters.filters[i]? = some f → schema.Types (i, f)

-- The translation of a set only compares the schema's columns with literals of their types.
theorem Expressions.Typed.translateOrWidenFilters {ε : Type*} [Expressions ε] {schema : Schema}
    {filters : TableFilterSet} (h : filters.Typed schema) :
    Typed schema (translateOrWidenFilters filters schema : ε) := by
  rw [ProtoIceberg.translateOrWidenFilters]
  refine List.foldlRecOn _ _ (motive := Typed schema) .alwaysTrue ?_
  rintro e he ⟨columnIdx, filter⟩ hp
  rw [Std.ExtTreeMap.mem_toList_iff_getElem?_eq_some] at hp
  rw [translateColumn]
  cases hfield : schema.fields[columnIdx]?
  case none       => exact he
  case some field =>
    have hf := List.mem_of_getElem? hfield
    exact .and he (translateOrWidenFilter hf (h _ _ hp field hfield))

end ProtoIceberg
