import ProtoIceberg.Conversion.Translate

open ProtoIceberg.Expressions

namespace ProtoIceberg

-- The metrics that Iceberg records for a column of a data file: bounds on its values other than NULL
-- and NaN. A missing bound rules nothing out.
structure Bounds where
  lower : Option Literal
  upper : Option Literal

structure Bounds.Within (b : Bounds) (v : Literal) : Prop where
  number : ¬v.isNaN
  lower  : ∀ l ∈ b.lower, (v.compare l).any (·.isGE)
  upper  : ∀ l ∈ b.upper, (v.compare l).any (·.isLE)

-- Whether no value within the bounds compares to the literal in the given way.
def Bounds.Excludes (b : Bounds) (op : ExpressionType) (l : Literal) : Prop :=
  ∀ v, b.Within v → ∀ o, v.compare l = some o → ¬op.holds o

-- A data file, as far as one of its floating-point columns goes.
structure DataFile (type : IcebergType) where
  values : List (Option Datum)
  bounds : Bounds
  fits   : ∀ d, some d ∈ values → d.toValue.Fits type
  covers : ∀ l, some (.primitive l) ∈ values → ¬l.isNaN → bounds.Within l

-- Iceberg's scan planning, which may skip a file if its columns' bounds exclude the expression. An IN
-- is planned as the disjunction of its equalities.
structure Expressions.Planner (ε : Type*) [Expressions ε] where
  maySkip             : ε → (String → Bounds) → Prop
  maySkip_alwaysTrue  : ¬maySkip alwaysTrue bs
  maySkip_alwaysFalse : maySkip alwaysFalse bs
  maySkip_and         : maySkip (and a b) bs ↔ maySkip a bs ∨ maySkip b bs
  maySkip_or          : maySkip (or a b) bs ↔ maySkip a bs ∧ maySkip b bs
  maySkip_isNull      : ¬maySkip (isNull c) bs
  maySkip_notNull     : ¬maySkip (notNull c) bs
  maySkip_notEqual    : ¬maySkip (notEqual c l) bs
  maySkip_equal :
    maySkip (equal c l) bs ↔ (bs c).Excludes .compareEqual l
  maySkip_lessThan :
    maySkip (lessThan c l) bs ↔ (bs c).Excludes .compareLessThan l
  maySkip_lessThanOrEqual :
    maySkip (lessThanOrEqual c l) bs ↔ (bs c).Excludes .compareLessThanOrEqualTo l
  maySkip_greaterThan :
    maySkip (greaterThan c l) bs ↔ (bs c).Excludes .compareGreaterThan l
  maySkip_greaterThanOrEqual :
    maySkip (greaterThanOrEqual c l) bs ↔ (bs c).Excludes .compareGreaterThanOrEqualTo l
  maySkip_isIn :
    maySkip (isIn c ls) bs ↔ ∀ l ∈ ls, (bs c).Excludes .compareEqual l

namespace Expressions.Planner

variable {ε : Type*} [Expressions ε] (planner : Planner ε) {bs : String → Bounds}

theorem maySkip_foldl_and {e : ε} {es : List ε} :
    planner.maySkip (es.foldl Expressions.and e) bs ↔
      planner.maySkip e bs ∨ ∃ e ∈ es, planner.maySkip e bs := by
  induction es generalizing e
  case nil         => simp
  case cons _ _ ih => simp [ih, planner.maySkip_and, or_assoc]

theorem maySkip_foldl_or {e : ε} {es : List ε} :
    planner.maySkip (es.foldl Expressions.or e) bs ↔
      planner.maySkip e bs ∧ ∀ e ∈ es, planner.maySkip e bs := by
  induction es generalizing e
  case nil         => simp
  case cons _ _ ih => simp [ih, planner.maySkip_or, and_assoc]

theorem maySkip_translate_and {fs : List TableFilter} {field : SchemaField} :
    planner.maySkip (translateOrWidenFilter (.conjunctionAnd fs) field) bs ↔
      ∃ f ∈ fs, planner.maySkip (translateOrWidenFilter f field) bs := by
  simp [translateOrWidenFilter, planner.maySkip_foldl_and, planner.maySkip_alwaysTrue]

theorem maySkip_translate_or {fs : List TableFilter} {field : SchemaField} :
    planner.maySkip (translateOrWidenFilter (.conjunctionOr fs) field) bs ↔
      ∀ f ∈ fs, planner.maySkip (translateOrWidenFilter f field) bs := by
  simp [translateOrWidenFilter, planner.maySkip_foldl_or, planner.maySkip_alwaysFalse]

theorem maySkip_foldl_columns {schema : Schema} {fs : List (Nat × TableFilter)} {e : ε} :
    planner.maySkip (fs.foldl (translateColumn schema) e) bs ↔
      planner.maySkip e bs ∨ ∃ f ∈ fs, ∃ field, schema.fields[f.1]? = some field ∧
        planner.maySkip (translateOrWidenFilter f.2 field) bs := by
  induction fs generalizing e
  case nil => simp
  case cons f fs ih =>
    rw [List.foldl_cons, ih, List.exists_mem_cons_iff, ← or_assoc]
    apply or_congr_left
    cases h : schema.fields[f.1]? <;> simp [translateColumn, h, planner.maySkip_and]

theorem maySkip_translateOrWidenFilters_iff {filters : TableFilterSet} {schema : Schema} :
    planner.maySkip (translateOrWidenFilters filters schema) bs ↔
      ∃ (i : Nat) (f : TableFilter), filters.filters[i]? = some f ∧
        ∃ field, schema.fields[i]? = some field ∧
          planner.maySkip (translateOrWidenFilter f field) bs := by
  rw [translateOrWidenFilters, planner.maySkip_foldl_columns]
  simp only [planner.maySkip_alwaysTrue, false_or, Prod.exists,
    Std.ExtTreeMap.mem_toList_iff_getElem?_eq_some]

end Expressions.Planner

namespace Expression

def MaySkip : Expression → (String → Bounds) → Prop
  | .true, _                     => False
  | .false, _                    => True
  | .predicate .eq c ls, bs      => ∃ l ∈ ls, (bs c).Excludes .compareEqual l
  | .predicate .lt c ls, bs      => ∃ l ∈ ls, (bs c).Excludes .compareLessThan l
  | .predicate .ltEq c ls, bs    => ∃ l ∈ ls, (bs c).Excludes .compareLessThanOrEqualTo l
  | .predicate .gt c ls, bs      => ∃ l ∈ ls, (bs c).Excludes .compareGreaterThan l
  | .predicate .gtEq c ls, bs    => ∃ l ∈ ls, (bs c).Excludes .compareGreaterThanOrEqualTo l
  | .predicate .isIn c ls, bs    => ∀ l ∈ ls, (bs c).Excludes .compareEqual l
  | .predicate _ _ _, _          => False
  | .and a b, bs                 => a.MaySkip bs ∨ b.MaySkip bs
  | .or a b, bs                  => a.MaySkip bs ∧ b.MaySkip bs

theorem maySkip_makeAnd {a b : Expression} {bs : String → Bounds} :
    (makeAnd a b).MaySkip bs ↔ a.MaySkip bs ∨ b.MaySkip bs := by
  cases a <;> cases b <;> simp [makeAnd, MaySkip]

theorem maySkip_makeOr {a b : Expression} {bs : String → Bounds} :
    (makeOr a b).MaySkip bs ↔ a.MaySkip bs ∧ b.MaySkip bs := by
  cases a <;> cases b <;> simp [makeOr, MaySkip]

def planner : Expressions.Planner Expression where
  maySkip                    := MaySkip
  maySkip_alwaysTrue         := id
  maySkip_alwaysFalse        := trivial
  maySkip_and                := maySkip_makeAnd
  maySkip_or                 := maySkip_makeOr
  maySkip_isNull             := id
  maySkip_notNull            := id
  maySkip_equal              := by simp [MaySkip, equal]
  maySkip_notEqual           := id
  maySkip_lessThan           := by simp [MaySkip, lessThan]
  maySkip_lessThanOrEqual    := by simp [MaySkip, lessThanOrEqual]
  maySkip_greaterThan        := by simp [MaySkip, greaterThan]
  maySkip_greaterThanOrEqual := by simp [MaySkip, greaterThanOrEqual]
  maySkip_isIn               := Iff.rfl

end Expression

end ProtoIceberg
