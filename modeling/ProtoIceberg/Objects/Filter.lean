import Std.Data.ExtTreeMap
import ProtoIceberg.Extensions.Truth
import ProtoIceberg.Objects.Value

namespace ProtoIceberg

-- DuckDB's comparison operators. Those the extension does not know are in `other`.
inductive ExpressionType
  | compareEqual
  | compareNotEqual
  | compareLessThan
  | compareLessThanOrEqualTo
  | compareGreaterThan
  | compareGreaterThanOrEqualTo
  | other (code : Nat)
  deriving DecidableEq, Repr

-- DuckDB's filters on a single column. Those the extension does not know are in `other`.
inductive TableFilter
  | constantComparison (comparisonType : ExpressionType) (constant : Value)
  | isNull
  | isNotNull
  | inFilter (values : List Value)
  | conjunctionAnd (childFilters : List TableFilter)
  | conjunctionOr (childFilters : List TableFilter)
  | optionalFilter (childFilter : Option TableFilter)
  | other (kind : Nat)

@[elab_as_elim]
theorem TableFilter.induct {P : TableFilter → Prop}
    (constantComparison : ∀ op c, P (.constantComparison op c))
    (isNull : P .isNull)
    (isNotNull : P .isNotNull)
    (inFilter : ∀ vs, P (.inFilter vs))
    (conjunctionAnd : ∀ fs, (∀ f ∈ fs, P f) → P (.conjunctionAnd fs))
    (conjunctionOr : ∀ fs, (∀ f ∈ fs, P f) → P (.conjunctionOr fs))
    (optionalNone : P (.optionalFilter none))
    (optionalSome : ∀ f, P f → P (.optionalFilter (some f)))
    (other : ∀ kind, P (.other kind))
    (f : TableFilter) : P f :=
  @TableFilter.rec P (fun fs => ∀ f ∈ fs, P f) (fun f => P (.optionalFilter f))
    constantComparison isNull isNotNull inFilter conjunctionAnd conjunctionOr (fun _ => id) other
    (fun _ h => absurd h List.not_mem_nil) (fun _ _ h hs => List.forall_mem_cons.mpr ⟨h, hs⟩)
    optionalNone optionalSome f

mutual

def TableFilter.constants : TableFilter → List Value
  | .constantComparison _ c      => [c]
  | .inFilter cs                 => cs
  | .conjunctionAnd fs           => constantsOfEach fs
  | .conjunctionOr fs            => constantsOfEach fs
  | .optionalFilter (some f)     => f.constants
  | .optionalFilter none         => []
  | .isNull | .isNotNull | other _ => []

def TableFilter.constantsOfEach : List TableFilter → List Value
  | []      => []
  | f :: fs => f.constants ++ constantsOfEach fs

end

theorem TableFilter.mem_constantsOfEach_iff {fs : List TableFilter} {c : Value} :
    c ∈ constantsOfEach fs ↔ ∃ f ∈ fs, c ∈ TableFilter.constants f := by
  induction fs
  case nil         => simp [constantsOfEach]
  case cons f _ ih => simp [constantsOfEach, ih]

-- The filters on several columns, keyed by column index.
structure TableFilterSet where
  filters : Std.ExtTreeMap Nat TableFilter

namespace TableFilterSet

def empty : TableFilterSet where
  filters := ∅

-- A conjunction grows by the new filter, any other filter is joined with it in a new conjunction.
def conjoin : TableFilter → TableFilter → TableFilter
  | .conjunctionAnd fs, filter => .conjunctionAnd (fs ++ [filter])
  | existing, filter           => .conjunctionAnd [existing, filter]

def pushFilter (set : TableFilterSet) (columnIdx : Nat) (filter : TableFilter) : TableFilterSet :=
  match set.filters[columnIdx]? with
  | none          => { filters := set.filters.insert columnIdx filter }
  | some existing => { filters := set.filters.insert columnIdx (conjoin existing filter) }

theorem getElem?_pushFilter {set : TableFilterSet} {i j : Nat} {f : TableFilter} :
    (set.pushFilter i f).filters[j]? =
      if i = j then some ((set.filters[i]?.map (conjoin · f)).getD f) else set.filters[j]? := by
  rw [pushFilter]
  split <;> rename_i h <;> simp [h, Std.ExtTreeMap.getElem?_insert]

end TableFilterSet

def ExpressionType.holds : ExpressionType → Ordering → Bool
  | .compareEqual, o                 => o.isEq
  | .compareNotEqual, o              => o.isNe
  | .compareLessThan, o              => o.isLT
  | .compareLessThanOrEqualTo, o     => o.isLE
  | .compareGreaterThan, o           => o.isGT
  | .compareGreaterThanOrEqualTo, o  => o.isGE
  | .other _, _                      => false

-- What DuckDB makes of the operators and filters that the extension does not know.
structure Unsupported where
  comparison : Nat → Option Value → Value → Truth
  filter     : Nat → Option Value → Truth

section

variable (u : Unsupported)

-- Comparing with NULL yields neither true nor false. `none` stands for a NULL in the column.
def compareConstant (op : ExpressionType) (v : Option Value) (c : Value) : Truth :=
  match op with
  | .other code => u.comparison code v c
  | op          =>
    match v.bind (·.compare c) with
    | some o => .ofBool (op.holds o)
    | none   => .unknown

mutual

-- The truth value of a filter for a value of its column.
def TableFilter.eval : TableFilter → Option Value → Truth
  | .constantComparison op c, v    => compareConstant u op v c
  | .isNull, v                     => .ofBool v.isNone
  | .isNotNull, v                  => .ofBool v.isSome
  | .inFilter cs, v                => .any (cs.map (compareConstant u .compareEqual v))
  | .conjunctionAnd fs, v          => .all (evalEach fs v)
  | .conjunctionOr fs, v           => .any (evalEach fs v)
  | .optionalFilter (some f), v    => f.eval v
  | .optionalFilter none, _        => .true
  | .other kind, v                 => u.filter kind v

def TableFilter.evalEach : List TableFilter → Option Value → List Truth
  | [], _      => []
  | f :: fs, v => f.eval v :: evalEach fs v

end

-- A row holds a value or NULL for every column index, also for those of virtual columns.
abbrev Row := Nat → Option Datum

def TableFilterSet.Holds (filters : TableFilterSet) (row : Row) : Prop :=
  ∀ (i : Nat) (f : TableFilter), filters.filters[i]? = some f →
    f.eval u ((row i).map Datum.toValue) = .true

theorem TableFilterSet.holds_iff_forall_mem_toList {filters : TableFilterSet} {row : Row} :
    filters.Holds u row ↔
      ∀ f ∈ filters.filters.toList, f.2.eval u ((row f.1).map Datum.toValue) = .true := by
  simp only [Holds, Prod.forall, Std.ExtTreeMap.mem_toList_iff_getElem?_eq_some]

instance {filters : TableFilterSet} {row : Row} : Decidable (filters.Holds u row) :=
  decidable_of_iff _ (filters.holds_iff_forall_mem_toList u).symm

variable {u} {v : Option Value}

@[simp]
theorem TableFilter.evalEach_eq_map (fs : List TableFilter) :
    TableFilter.evalEach u fs v = fs.map (·.eval u v) := by
  induction fs
  case nil         => rfl
  case cons f _ ih => simp [evalEach, ih]

theorem TableFilter.eval_conjunctionAnd_iff {fs : List TableFilter} :
    (conjunctionAnd fs).eval u v = .true ↔ ∀ f ∈ fs, f.eval u v = .true := by
  simp [eval]

theorem TableFilter.eval_conjunctionOr_iff {fs : List TableFilter} :
    (conjunctionOr fs).eval u v = .true ↔ ∃ f ∈ fs, TableFilter.eval u f v = .true := by
  simp [eval]

theorem TableFilter.eval_inFilter_iff {cs : List Value} :
    (inFilter cs).eval u v = .true ↔ ∃ c ∈ cs, compareConstant u .compareEqual v c = .true := by
  simp [eval]

-- Other than with unknown operators, a comparison is only true of values it compares.
theorem compareConstant_eq_true_iff {op : ExpressionType} {c : Value} (h : ∀ code, op ≠ .other code) :
    compareConstant u op v c = .true ↔ ∃ w o, v = some w ∧ w.compare c = some o ∧ op.holds o := by
  cases op
  case other code => exact absurd rfl (h code)
  all_goals
    cases v
    case none   => simp [compareConstant]
    case some w => cases hc : w.compare c <;> simp [compareConstant, hc]

end

end ProtoIceberg
