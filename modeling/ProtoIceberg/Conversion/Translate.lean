import ProtoIceberg.Conversion.Expression

open ProtoIceberg.Expressions

namespace ProtoIceberg

variable {ε : Type*} [Expressions ε]

def translateConstantFilter (columnName : String) (op : ExpressionType) (constant : Value) : ε :=
  match convertFilterConstant constant with
  | none         => alwaysTrue
  | some literal =>
    match op with
    | .compareEqual                => equal columnName literal
    | .compareNotEqual             => notEqual columnName literal
    | .compareLessThan             => lessThan columnName literal
    | .compareLessThanOrEqualTo    => lessThanOrEqual columnName literal
    | .compareGreaterThan          => greaterThan columnName literal
    | .compareGreaterThanOrEqualTo => greaterThanOrEqual columnName literal
    | .other _                     => alwaysTrue

-- A single value that can not be converted widens the whole list.
def translateInFilter (columnName : String) (values : List Value) : ε :=
  match values.mapM convertFilterConstant with
  | some literals => isIn columnName literals
  | none          => alwaysTrue

mutual

def translateOrWidenFilter : TableFilter → SchemaField → ε
  | .constantComparison op constant, field => translateConstantFilter field.name op constant
  | .isNull, field                         => isNull field.name
  | .isNotNull, field                      => notNull field.name
  | .inFilter values, field                => translateInFilter field.name values
  | .conjunctionAnd fs, field              => (translateOrWidenEach fs field).foldl and alwaysTrue
  | .conjunctionOr fs, field               => (translateOrWidenEach fs field).foldl or alwaysFalse
  | .optionalFilter (some f), field        => translateOrWidenFilter f field
  | .optionalFilter none, _                => alwaysTrue
  | .other _, _                            => alwaysTrue

def translateOrWidenEach : List TableFilter → SchemaField → List ε
  | [], _          => []
  | f :: fs, field => translateOrWidenFilter f field :: translateOrWidenEach fs field

end

-- Filters on columns that the schema does not have, such as virtual columns, are skipped.
def translateColumn (schema : Schema) (combined : ε) : Nat × TableFilter → ε
  | (columnIdx, filter) =>
    match schema.fields[columnIdx]? with
    | none       => combined
    | some field => and combined (translateOrWidenFilter filter field)

def translateOrWidenFilters (filters : TableFilterSet) (schema : Schema) : ε :=
  filters.filters.toList.foldl (translateColumn schema) alwaysTrue

@[simp]
theorem translateOrWidenEach_eq_map (fs : List TableFilter) (field : SchemaField) :
    (translateOrWidenEach fs field : List ε) = fs.map (translateOrWidenFilter · field) := by
  induction fs
  case nil         => rfl
  case cons f _ ih => simp [translateOrWidenEach, ih]

namespace Expressions.Semantics

variable (sem : Semantics ε) {env : Environment} {field : SchemaField}

theorem eval_translate_and {fs : List TableFilter} :
    sem.eval (translateOrWidenFilter (.conjunctionAnd fs) field) env =
      fs.all fun f => sem.eval (translateOrWidenFilter f field) env := by
  simp [translateOrWidenFilter, sem.eval_foldl_and, sem.eval_alwaysTrue, Function.comp_def]

theorem eval_translate_or {fs : List TableFilter} :
    sem.eval (translateOrWidenFilter (.conjunctionOr fs) field) env =
      fs.any fun f => sem.eval (translateOrWidenFilter f field) env := by
  simp [translateOrWidenFilter, sem.eval_foldl_or, sem.eval_alwaysFalse, Function.comp_def]

theorem eval_foldl_columns {schema : Schema} {fs : List (Nat × TableFilter)} {e : ε} :
    sem.eval (fs.foldl (translateColumn schema) e) env ↔
      sem.eval e env ∧ ∀ f ∈ fs, ∀ field, schema.fields[f.1]? = some field →
        sem.eval (translateOrWidenFilter f.2 field) env := by
  induction fs generalizing e
  case nil => simp
  case cons f fs ih =>
    rw [List.foldl_cons, ih, List.forall_mem_cons, ← and_assoc]
    apply and_congr_left'
    cases h : schema.fields[f.1]? <;> simp [translateColumn, h, sem.eval_and]

-- The translation of a set is true iff those of its filters on columns of the schema are.
theorem eval_translateOrWidenFilters_iff {filters : TableFilterSet} {schema : Schema} :
    sem.eval (translateOrWidenFilters filters schema) env ↔
      ∀ (i : Nat) (f : TableFilter), filters.filters[i]? = some f →
        ∀ field, schema.fields[i]? = some field →
          sem.eval (translateOrWidenFilter f field) env := by
  rw [translateOrWidenFilters, sem.eval_foldl_columns, sem.eval_alwaysTrue]
  simp only [true_and, Prod.forall, Std.ExtTreeMap.mem_toList_iff_getElem?_eq_some]

end Expressions.Semantics

end ProtoIceberg
