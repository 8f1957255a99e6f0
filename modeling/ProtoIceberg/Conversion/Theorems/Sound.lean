import ProtoIceberg.Conversion.Translate
import ProtoIceberg.Extensions.List

namespace ProtoIceberg

-- Iceberg resolves columns by name, so a row is read through the schema's first field of that name.
def Schema.environment (schema : Schema) (row : Row) : Environment :=
  fun name => (schema.fields.findIdx? (·.name = name)).bind row

theorem Schema.environment_field {schema : Schema} {i : Nat} {field : SchemaField} (row : Row)
    (h : schema.fields[i]? = some field) : schema.environment row field.name = row i := by
  have ⟨hi, he⟩ := List.getElem?_eq_some_iff.mp h
  have hidx : schema.fields.findIdx? (·.name = field.name) = some i := by
    rw [List.findIdx?_eq_some_iff_getElem]
    refine ⟨hi, by simp [he], ?_⟩
    intro j hj
    have hne := List.pairwise_iff_getElem.mp schema.nodup j i (by simp; omega) (by simpa) hj
    simpa [he] using hne
  rw [environment, hidx, Option.bind_some]

namespace Expressions.Semantics

variable {ε : Type*} [Expressions ε] (sem : Semantics ε) {env : Environment} {field : SchemaField}
  {u : Unsupported}

theorem eval_translateConstantFilter {op : ExpressionType} {c : Value} {name : String}
    (hn : ∀ d ∈ env name, ¬d.isNaN)
    (h : compareConstant u op ((env name).map Datum.toValue) c = .true) :
    sem.eval (translateConstantFilter name op c) env := by
  rw [translateConstantFilter]
  cases hc : convertFilterConstant c
  case none => exact sem.eval_alwaysTrue
  case some lit =>
    by_cases ho : ∃ code, op = .other code
    case pos =>
      have ⟨_, ho⟩ := ho
      subst ho
      exact sem.eval_alwaysTrue
    case neg =>
      have ⟨w, o, hw, hcmp, hop⟩ := compareConstant_eq_true_iff (by simpa using ho) |>.mp h
      have ⟨d, hd, hdw⟩ := Option.map_eq_some_iff.mp hw
      have ⟨l, hl, hcmp⟩ := Datum.compare_convertFilterConstant hc (hn d hd) (hdw ▸ hcmp)
      subst hl
      cases op
      case compareEqual                => exact sem.eval_equal hd hcmp ▸ hop
      case compareNotEqual             => exact sem.eval_notEqual hd hcmp ▸ hop
      case compareLessThan             => exact sem.eval_lessThan hd hcmp ▸ hop
      case compareLessThanOrEqualTo    => exact sem.eval_lessThanOrEqual hd hcmp ▸ hop
      case compareGreaterThan          => exact sem.eval_greaterThan hd hcmp ▸ hop
      case compareGreaterThanOrEqualTo => exact sem.eval_greaterThanOrEqual hd hcmp ▸ hop
      case other code                  => exact absurd ⟨code, rfl⟩ ho

theorem eval_translateInFilter {cs : List Value} {name : String} {c : Value}
    (hn : ∀ d ∈ env name, ¬d.isNaN) (hc : c ∈ cs)
    (h : compareConstant u .compareEqual ((env name).map Datum.toValue) c = .true) :
    sem.eval (translateInFilter name cs) env := by
  rw [translateInFilter]
  split
  case h_2 => exact sem.eval_alwaysTrue
  case h_1 lits hlits =>
    have hmem : convertFilterConstant c ∈ lits.map some :=
      List.mapM_eq_some_iff.mp hlits ▸ List.mem_map_of_mem hc
    have ⟨lit, hlit, hconv⟩ := List.mem_map.mp hmem
    have ⟨w, o, hw, hcmp, ho⟩ := compareConstant_eq_true_iff (by simp) |>.mp h
    have ⟨d, hd, hdw⟩ := Option.map_eq_some_iff.mp hw
    have ⟨l, hl, hcmp⟩ := Datum.compare_convertFilterConstant hconv.symm (hn d hd) (hdw ▸ hcmp)
    subst hl
    rw [sem.eval_isIn hd, List.any_eq_true]
    exact ⟨lit, hlit, by simpa [hcmp, ExpressionType.holds] using ho⟩

-- Widening is sound at every node, since the connectives are monotone and nothing is negated.
theorem eval_translateOrWidenFilter (f : TableFilter) (hn : ∀ d ∈ env field.name, ¬d.isNaN)
    (h : f.eval u ((env field.name).map Datum.toValue) = .true) :
    sem.eval (translateOrWidenFilter f field) env := by
  induction f using TableFilter.induct
  case constantComparison op c => exact sem.eval_translateConstantFilter hn h
  case isNull =>
    rw [translateOrWidenFilter, sem.eval_isNull]
    simpa [TableFilter.eval] using h
  case isNotNull =>
    rw [translateOrWidenFilter, sem.eval_notNull]
    simpa [TableFilter.eval] using h
  case inFilter cs =>
    obtain ⟨c, hc, h⟩ := TableFilter.eval_inFilter_iff.mp h
    exact sem.eval_translateInFilter hn hc h
  case conjunctionAnd fs ih =>
    rw [sem.eval_translate_and, List.all_eq_true]
    exact fun f hf => ih f hf <| TableFilter.eval_conjunctionAnd_iff.mp h f hf
  case conjunctionOr fs ih =>
    obtain ⟨f, hf, h⟩ := TableFilter.eval_conjunctionOr_iff.mp h
    rw [sem.eval_translate_or, List.any_eq_true]
    exact ⟨f, hf, ih f hf h⟩
  case optionalNone      => exact sem.eval_alwaysTrue
  case optionalSome f ih => exact ih h
  case other kind        => exact sem.eval_alwaysTrue

end Expressions.Semantics

-- Pushing filters down never loses a row that they keep.
theorem translateOrWidenFilters_sound {ε : Type*} [Expressions ε] (sem : Expressions.Semantics ε)
    (u : Unsupported) (filters : TableFilterSet) (schema : Schema) (row : Row)
    (hn : ∀ i, ∀ d ∈ row i, ¬d.isNaN) (h : filters.Holds u row) :
    sem.eval (translateOrWidenFilters filters schema) (schema.environment row) := by
  rw [sem.eval_translateOrWidenFilters_iff]
  intro i f hf field hi
  have he := schema.environment_field row hi
  apply sem.eval_translateOrWidenFilter f (he ▸ hn i)
  exact he ▸ h i f hf

theorem translateOrWidenFilters_sound_signedZero :
    let price : SchemaField := { fieldId := 1, name := "price", type := .double, doc := "" }
    let region : SchemaField := { fieldId := 2, name := "region", type := .string, doc := "" }
    let schema : Schema := { fields := [price, region], nodup := by decide }
    let atLeastZero := TableFilter.constantComparison .compareGreaterThanOrEqualTo (.double 0)
    let nonNegative := TableFilter.conjunctionAnd [.isNotNull, .optionalFilter (some atLeastZero)]
    let filters := Std.ExtTreeMap.ofList
      [(0, nonNegative), (1, .inFilter [.varchar "eu", .varchar "asia"]), (9, .isNull)]
    let row : Row
      | 0 => some (.primitive (.double (.ofMagnitude true 0)))
      | 1 => some (.primitive (.string "asia"))
      | _ => none
    Expression.semantics.eval (translateOrWidenFilters ⟨filters⟩ schema) (schema.environment row) := by
  intro _ _ _ _ _ _ row
  refine translateOrWidenFilters_sound _ ⟨fun _ _ _ => .true, fun _ _ => .true⟩ _ _ _ ?_ (by decide)
  intro i
  match i with
  | 0 | 1   => decide
  | _ + 2   => exact nofun

end ProtoIceberg
