import ProtoIceberg.Extensions.List
import ProtoIceberg.Scan.MultiFileList

open ProtoIceberg.Expressions

namespace ProtoIceberg

-- Conjunctions and disjunctions fold TRUE and FALSE operands away, and no predicate is TRUE.
structure Expressions.Folds (ε : Type*) [Expressions ε] : Prop where
  op_alwaysTrue         : op (alwaysTrue : ε) = .true
  op_alwaysFalse        : op (alwaysFalse : ε) = .false
  alwaysTrue_and        : ∀ e : ε, and alwaysTrue e = e
  and_alwaysTrue        : ∀ e : ε, and e alwaysTrue = e
  op_and                : ∀ a b : ε, op a ≠ .true → op b ≠ .true → op (and a b) ≠ .true
  alwaysTrue_or         : ∀ e : ε, or alwaysTrue e = alwaysTrue
  or_alwaysTrue         : ∀ e : ε, or e alwaysTrue = alwaysTrue
  op_or                 : ∀ a b : ε, op a ≠ .true → op b ≠ .true → op (or a b) ≠ .true
  op_isNull             : ∀ c, op (isNull c : ε) ≠ .true
  op_notNull            : ∀ c, op (notNull c : ε) ≠ .true
  op_equal              : ∀ c l, op (equal c l : ε) ≠ .true
  op_notEqual           : ∀ c l, op (notEqual c l : ε) ≠ .true
  op_lessThan           : ∀ c l, op (lessThan c l : ε) ≠ .true
  op_lessThanOrEqual    : ∀ c l, op (lessThanOrEqual c l : ε) ≠ .true
  op_greaterThan        : ∀ c l, op (greaterThan c l : ε) ≠ .true
  op_greaterThanOrEqual : ∀ c l, op (greaterThanOrEqual c l : ε) ≠ .true
  op_isIn               : ∀ c ls, op (isIn c ls : ε) ≠ .true

theorem Expression.folds : Expressions.Folds Expression where
  op_alwaysTrue             := rfl
  op_alwaysFalse            := rfl
  alwaysTrue_and e          := by cases e <;> rfl
  and_alwaysTrue e          := by cases e <;> rfl
  alwaysTrue_or e           := by cases e <;> rfl
  or_alwaysTrue e           := by cases e <;> rfl
  op_isNull _               := nofun
  op_notNull _              := nofun
  op_equal _ _              := nofun
  op_notEqual _ _           := nofun
  op_lessThan _ _           := nofun
  op_lessThanOrEqual _ _    := nofun
  op_greaterThan _ _        := nofun
  op_greaterThanOrEqual _ _ := nofun
  op_isIn _ _               := nofun
  op_and a b ha hb          := by
    cases a
    case true => exact absurd rfl ha
    all_goals
      cases b
      case true => exact absurd rfl hb
      all_goals exact nofun
  op_or a b ha hb           := by
    cases a
    case true  => exact absurd rfl ha
    case false => cases b <;> first | exact absurd rfl hb | exact hb
    all_goals
      cases b
      case true  => exact absurd rfl hb
      case false => exact ha
      all_goals exact nofun

-- An expression is TRUE if `P` holds, and of another kind otherwise.
def Expressions.TrueIff {ε : Type*} [Expressions ε] (P : Prop) (e : ε) : Prop :=
  P ∧ e = alwaysTrue ∨ ¬P ∧ op e ≠ .true

namespace Expressions.Folds

variable {ε : Type*} [Expressions ε] (folds : Folds ε) {a b : ε} {P Q : Prop}

include folds

theorem op_eq_true_iff (h : TrueIff P a) : op a = .true ↔ P := by
  cases h
  case inl h => exact iff_of_true (h.right ▸ folds.op_alwaysTrue) h.left
  case inr h => exact iff_of_false h.right h.left

theorem trueIff_and (ha : TrueIff P a) (hb : TrueIff Q b) : TrueIff (P ∧ Q) (and a b) := by
  cases ha
  case inl ha =>
    rw [ha.right, folds.alwaysTrue_and]
    simpa only [ha.left, true_and] using hb
  case inr ha =>
    refine .inr ⟨fun h => ha.left h.left, ?_⟩
    cases hb
    case inl hb => exact hb.right ▸ (folds.and_alwaysTrue a).symm ▸ ha.right
    case inr hb => exact folds.op_and a b ha.right hb.right

theorem trueIff_or (ha : TrueIff P a) (hb : TrueIff Q b) : TrueIff (P ∨ Q) (or a b) := by
  cases ha
  case inl ha => exact .inl ⟨.inl ha.left, ha.right ▸ folds.alwaysTrue_or b⟩
  case inr ha =>
    cases hb
    case inl hb => exact .inl ⟨.inr hb.left, hb.right ▸ folds.or_alwaysTrue a⟩
    case inr hb => exact .inr ⟨not_or.mpr ⟨ha.left, hb.left⟩, folds.op_or a b ha.right hb.right⟩

variable {α : Type*} {R : α → Prop} {f : α → ε} {xs : List α}

theorem trueIff_foldl_and (ha : TrueIff P a) (h : ∀ x ∈ xs, TrueIff (R x) (f x)) :
    TrueIff (P ∧ ∀ x ∈ xs, R x) ((xs.map f).foldl and a) := by
  induction xs generalizing a P
  case nil => simpa using ha
  case cons x xs ih =>
    have ⟨hx, hxs⟩ := List.forall_mem_cons.mp h
    rw [List.forall_mem_cons, ← and_assoc]
    exact ih (folds.trueIff_and ha hx) hxs

theorem trueIff_foldl_or (ha : TrueIff P a) (h : ∀ x ∈ xs, TrueIff (R x) (f x)) :
    TrueIff (P ∨ ∃ x ∈ xs, R x) ((xs.map f).foldl or a) := by
  induction xs generalizing a P
  case nil => simpa using ha
  case cons x xs ih =>
    have ⟨hx, hxs⟩ := List.forall_mem_cons.mp h
    rw [List.exists_mem_cons_iff, ← or_assoc]
    exact ih (folds.trueIff_or ha hx) hxs

end Expressions.Folds

namespace Value

-- The constants that have no literal, or none that can be pushed down.
inductive Unconvertible : Value → Prop
  | null (type : LogicalType) : Unconvertible (.null type)
  | type (type : LogicalType) (key : Nat) : Unconvertible (.other type key)
  | float {v : Ieee.binary32.Bits} (h : v.isNaN ∨ v.isZero) : Unconvertible (.float v)
  | double {v : Ieee.binary64.Bits} (h : v.isNaN ∨ v.isZero) : Unconvertible (.double v)

def Converts (c : Value) (l : Literal) : Prop :=
  ¬c.Unconvertible ∧ convertValueToLiteral c = some l

variable {c : Value} {l : Literal}

theorem unconvertible_iff : c.Unconvertible ↔ convertFilterConstant c = none := by
  cases c
  case null type      => exact iff_of_true (.null type) rfl
  case other type key => exact iff_of_true (.type type key) rfl
  case float v =>
    have hnone : convertFilterConstant (.float v) = none ↔ v.isNaN ∨ v.isZero := by
      cases hn : v.isNaN <;> simp [convertFilterConstant, getDouble, convertValueToLiteral, hn]
    rw [hnone]
    exact ⟨fun h => by cases h; assumption, .float⟩
  case double v =>
    have hnone : convertFilterConstant (.double v) = none ↔ v.isNaN ∨ v.isZero := by
      cases hn : v.isNaN <;> simp [convertFilterConstant, getDouble, convertValueToLiteral, hn]
    rw [hnone]
    exact ⟨fun h => by cases h; assumption, .double⟩
  all_goals exact iff_of_false (by rintro ⟨⟩) (by rintro ⟨⟩)

theorem converts_iff : c.Converts l ↔ convertFilterConstant c = some l := by
  rw [Converts, unconvertible_iff]
  constructor
  case mp =>
    intro ⟨hc, hl⟩
    cases hconv : convertFilterConstant c
    case none    => exact absurd hconv hc
    case some l' => exact (convertFilterConstant_eq_some_iff.mp hconv).right ▸ hl
  case mpr =>
    intro h
    exact ⟨fun hnone => (nomatch h.symm.trans hnone), (convertFilterConstant_eq_some_iff.mp h).right⟩

theorem forall₂_converts_iff {cs : List Value} {ls : List Literal} :
    List.Forall₂ Converts cs ls ↔ cs.mapM convertFilterConstant = some ls := by
  have heq : Converts = fun c l => convertFilterConstant c = some l :=
    funext₂ fun _ _ => propext converts_iff
  rw [List.mapM_eq_some_iff, heq, ← List.forall₂_eq_eq_eq, List.forall₂_map_left_iff,
    List.forall₂_map_right_iff]

end Value

namespace TableFilter

-- The filters without children that can not be translated.
inductive Untranslatable : TableFilter → Prop
  | kind (kind : Nat) : Untranslatable (.other kind)
  | operator (code : Nat) (c : Value) : Untranslatable (.constantComparison (.other code) c)
  | constant (op : ExpressionType) {c : Value} (h : c.Unconvertible) :
    Untranslatable (.constantComparison op c)
  | inFilter {cs : List Value} {c : Value} (hc : c ∈ cs) (h : c.Unconvertible) :
    Untranslatable (.inFilter cs)
  | childless : Untranslatable (.optionalFilter none)

section

variable {ε : Type*} [Expressions ε]

-- The filters that stand for a predicate on a column.
inductive Predicate (name : String) : TableFilter → ε → Prop
  | isNull    : Predicate name .isNull (Expressions.isNull name)
  | isNotNull : Predicate name .isNotNull (notNull name)
  | equal {c : Value} {l : Literal} (h : c.Converts l) :
    Predicate name (.constantComparison .compareEqual c) (Expressions.equal name l)
  | notEqual {c : Value} {l : Literal} (h : c.Converts l) :
    Predicate name (.constantComparison .compareNotEqual c) (Expressions.notEqual name l)
  | lessThan {c : Value} {l : Literal} (h : c.Converts l) :
    Predicate name (.constantComparison .compareLessThan c) (Expressions.lessThan name l)
  | lessThanOrEqual {c : Value} {l : Literal} (h : c.Converts l) :
    Predicate name (.constantComparison .compareLessThanOrEqualTo c)
      (Expressions.lessThanOrEqual name l)
  | greaterThan {c : Value} {l : Literal} (h : c.Converts l) :
    Predicate name (.constantComparison .compareGreaterThan c) (Expressions.greaterThan name l)
  | greaterThanOrEqual {c : Value} {l : Literal} (h : c.Converts l) :
    Predicate name (.constantComparison .compareGreaterThanOrEqualTo c)
      (Expressions.greaterThanOrEqual name l)
  | isIn {cs : List Value} {ls : List Literal} (h : List.Forall₂ Value.Converts cs ls) :
    Predicate name (.inFilter cs) (Expressions.isIn name ls)

-- Whether a filter holds once its parts that can not be translated are replaced by TRUE.
inductive Widened (sem : Semantics ε) (env : Environment) (name : String) : TableFilter → Prop
  | untranslatable {f : TableFilter} (h : f.Untranslatable) : Widened sem env name f
  | predicate {f : TableFilter} {e : ε} (h : f.Predicate name e) (he : sem.eval e env) :
    Widened sem env name f
  | conjunctionAnd {fs : List TableFilter} (h : ∀ f ∈ fs, Widened sem env name f) :
    Widened sem env name (.conjunctionAnd fs)
  | conjunctionOr {fs : List TableFilter} {f : TableFilter} (hf : f ∈ fs) (h : Widened sem env name f) :
    Widened sem env name (.conjunctionOr fs)
  | optionalFilter {f : TableFilter} (h : Widened sem env name f) :
    Widened sem env name (.optionalFilter (some f))

end

-- Whether nothing but TRUE remains of a filter.
inductive Collapses : TableFilter → Prop
  | untranslatable {f : TableFilter} (h : f.Untranslatable) : Collapses f
  | conjunctionAnd {fs : List TableFilter} (h : ∀ f ∈ fs, Collapses f) : Collapses (.conjunctionAnd fs)
  | conjunctionOr {fs : List TableFilter} {f : TableFilter} (hf : f ∈ fs) (h : Collapses f) :
    Collapses (.conjunctionOr fs)
  | optionalFilter {f : TableFilter} (h : Collapses f) : Collapses (.optionalFilter (some f))

variable {ε : Type*} [Expressions ε] {f : TableFilter} {e : ε} {field : SchemaField}

theorem Untranslatable.translate (h : f.Untranslatable) :
    (translateOrWidenFilter f field : ε) = alwaysTrue := by
  cases h
  case kind      => rfl
  case childless => rfl
  case operator code c =>
    rw [translateOrWidenFilter, translateConstantFilter]
    cases convertFilterConstant c <;> rfl
  case constant op c h =>
    rw [translateOrWidenFilter, translateConstantFilter, Value.unconvertible_iff.mp h]
  case inFilter cs c hc h =>
    have hnone := List.mapM_eq_none_iff.mpr ⟨c, hc, Value.unconvertible_iff.mp h⟩
    rw [translateOrWidenFilter, translateInFilter, hnone]

theorem Predicate.translate (h : f.Predicate field.name e) : translateOrWidenFilter f field = e := by
  cases h
  case isNull    => rfl
  case isNotNull => rfl
  case isIn h =>
    rw [translateOrWidenFilter, translateInFilter, Value.forall₂_converts_iff.mp h]
  all_goals
    rename_i h
    rw [translateOrWidenFilter, translateConstantFilter, Value.converts_iff.mp h]

theorem Predicate.op_ne_true (folds : Folds ε) {name : String} (h : f.Predicate name e) :
    op e ≠ .true := by
  cases h
  case isNull             => exact folds.op_isNull _
  case isNotNull          => exact folds.op_notNull _
  case equal              => exact folds.op_equal _ _
  case notEqual           => exact folds.op_notEqual _ _
  case lessThan           => exact folds.op_lessThan _ _
  case lessThanOrEqual    => exact folds.op_lessThanOrEqual _ _
  case greaterThan        => exact folds.op_greaterThan _ _
  case greaterThanOrEqual => exact folds.op_greaterThanOrEqual _ _
  case isIn               => exact folds.op_isIn _ _

-- A filter without children can be translated, unless it is one of the untranslatable ones.
theorem constantComparison_cases (name : String) (op : ExpressionType) (c : Value) :
    (constantComparison op c).Untranslatable ∨
      ∃ e : ε, (constantComparison op c).Predicate name e := by
  cases hc : convertFilterConstant c
  case none => exact .inl <| .constant op (Value.unconvertible_iff.mpr hc)
  case some l =>
    have h := Value.converts_iff.mpr hc
    cases op
    case other code                  => exact .inl <| .operator code c
    case compareEqual                => exact .inr ⟨_, .equal h⟩
    case compareNotEqual             => exact .inr ⟨_, .notEqual h⟩
    case compareLessThan             => exact .inr ⟨_, .lessThan h⟩
    case compareLessThanOrEqualTo    => exact .inr ⟨_, .lessThanOrEqual h⟩
    case compareGreaterThan          => exact .inr ⟨_, .greaterThan h⟩
    case compareGreaterThanOrEqualTo => exact .inr ⟨_, .greaterThanOrEqual h⟩

theorem inFilter_cases (name : String) (cs : List Value) :
    (inFilter cs).Untranslatable ∨ ∃ e : ε, (inFilter cs).Predicate name e := by
  cases hcs : cs.mapM convertFilterConstant
  case none =>
    have ⟨c, hc, hnone⟩ := List.mapM_eq_none_iff.mp hcs
    exact .inl <| .inFilter hc (Value.unconvertible_iff.mpr hnone)
  case some ls => exact .inr ⟨_, .isIn (Value.forall₂_converts_iff.mpr hcs)⟩

section

variable {sem : Semantics ε} {env : Environment} {fs : List TableFilter}

theorem Widened.of_and {name : String} :
    (TableFilter.conjunctionAnd fs).Widened sem env name → ∀ f ∈ fs, f.Widened sem env name
  | .conjunctionAnd h => h
  | .untranslatable h => nomatch h
  | .predicate h _    => nomatch h

theorem Widened.of_or {name : String} :
    (TableFilter.conjunctionOr fs).Widened sem env name → ∃ f ∈ fs, f.Widened sem env name
  | .conjunctionOr hf h => ⟨_, hf, h⟩
  | .untranslatable h   => nomatch h
  | .predicate h _      => nomatch h

theorem Widened.of_optional {name : String} :
    (TableFilter.optionalFilter (some f)).Widened sem env name → f.Widened sem env name
  | .optionalFilter h => h
  | .untranslatable h => nomatch h
  | .predicate h _    => nomatch h

theorem widened_iff_of_leaf (h : f.Untranslatable ∨ ∃ e : ε, f.Predicate field.name e) :
    f.Widened sem env field.name ↔ sem.eval (translateOrWidenFilter f field) env := by
  constructor
  case mp =>
    intro hw
    cases hw
    case untranslatable hu => exact hu.translate (ε := ε) ▸ sem.eval_alwaysTrue
    case predicate he hp   => exact hp.translate ▸ he
    all_goals exact h.elim nofun nofun
  case mpr =>
    intro he
    cases h
    case inl hu => exact .untranslatable hu
    case inr hp =>
      have ⟨e, hp⟩ := hp
      exact .predicate hp (hp.translate ▸ he)

theorem widened_iff (f : TableFilter) :
    f.Widened sem env field.name ↔ sem.eval (translateOrWidenFilter f field) env := by
  induction f using TableFilter.induct
  case constantComparison op c => exact widened_iff_of_leaf (constantComparison_cases _ op c)
  case inFilter cs             => exact widened_iff_of_leaf (inFilter_cases _ cs)
  case isNull                  => exact widened_iff_of_leaf (.inr ⟨_, .isNull⟩)
  case isNotNull               => exact widened_iff_of_leaf (.inr ⟨_, .isNotNull⟩)
  case optionalNone            => exact widened_iff_of_leaf (.inl .childless)
  case other kind              => exact widened_iff_of_leaf (.inl (.kind kind))
  case optionalSome f ih =>
    rw [translateOrWidenFilter, ← ih]
    exact ⟨.of_optional, .optionalFilter⟩
  case conjunctionAnd fs ih =>
    rw [sem.eval_translate_and, List.all_eq_true]
    constructor
    case mp  => exact fun h f hf => (ih f hf).mp (h.of_and f hf)
    case mpr => exact fun h => .conjunctionAnd fun f hf => (ih f hf).mpr (h f hf)
  case conjunctionOr fs ih =>
    rw [sem.eval_translate_or, List.any_eq_true]
    constructor
    case mpr =>
      rintro ⟨f, hf, h⟩
      exact .conjunctionOr hf ((ih f hf).mpr h)
    case mp =>
      intro h
      obtain ⟨f, hf, h⟩ := h.of_or
      exact ⟨f, hf, (ih f hf).mp h⟩

end

section

variable {fs : List TableFilter}

theorem Collapses.of_and : (TableFilter.conjunctionAnd fs).Collapses → ∀ f ∈ fs, f.Collapses
  | .conjunctionAnd h => h
  | .untranslatable h => nomatch h

theorem Collapses.of_or : (TableFilter.conjunctionOr fs).Collapses → ∃ f ∈ fs, f.Collapses
  | .conjunctionOr hf h => ⟨_, hf, h⟩
  | .untranslatable h   => nomatch h

theorem Collapses.of_optional : (TableFilter.optionalFilter (some f)).Collapses → f.Collapses
  | .optionalFilter h => h
  | .untranslatable h => nomatch h

variable (folds : Folds ε)

include folds

theorem collapses_of_leaf (h : f.Untranslatable ∨ ∃ e : ε, f.Predicate field.name e) :
    TrueIff f.Collapses (translateOrWidenFilter f field : ε) := by
  cases h
  case inl hu => exact .inl ⟨.untranslatable hu, hu.translate⟩
  case inr hp =>
    have ⟨e, hp⟩ := hp
    have hop := hp.op_ne_true folds
    refine .inr ⟨?_, hp.translate ▸ hop⟩
    intro hc
    cases hc
    case untranslatable hu =>
      rw [← hp.translate, hu.translate] at hop
      exact hop folds.op_alwaysTrue
    all_goals exact nomatch hp

theorem collapses (f : TableFilter) (field : SchemaField) :
    TrueIff f.Collapses (translateOrWidenFilter f field : ε) := by
  induction f using TableFilter.induct
  case constantComparison op c => exact collapses_of_leaf folds (constantComparison_cases _ op c)
  case inFilter cs             => exact collapses_of_leaf folds (inFilter_cases _ cs)
  case isNull                  => exact collapses_of_leaf folds (.inr ⟨_, .isNull⟩)
  case isNotNull               => exact collapses_of_leaf folds (.inr ⟨_, .isNotNull⟩)
  case optionalNone            => exact collapses_of_leaf folds (.inl .childless)
  case other kind              => exact collapses_of_leaf folds (.inl (.kind kind))
  case optionalSome f ih =>
    have hiff : (optionalFilter (some f)).Collapses ↔ f.Collapses :=
      ⟨.of_optional, .optionalFilter⟩
    rw [hiff, translateOrWidenFilter]
    exact ih
  case conjunctionAnd fs ih =>
    have hiff : (conjunctionAnd fs).Collapses ↔ True ∧ ∀ f ∈ fs, f.Collapses :=
      ⟨fun h => ⟨trivial, h.of_and⟩, fun h => .conjunctionAnd h.right⟩
    rw [hiff, translateOrWidenFilter, translateOrWidenEach_eq_map]
    exact folds.trueIff_foldl_and (.inl ⟨trivial, rfl⟩) ih
  case conjunctionOr fs ih =>
    have hiff : (conjunctionOr fs).Collapses ↔ False ∨ ∃ f ∈ fs, f.Collapses :=
      ⟨fun h => .inr h.of_or, fun h => (h.resolve_left id).elim fun _ h => .conjunctionOr h.left h.right⟩
    have hfalse : TrueIff False (alwaysFalse : ε) := .inr ⟨id, by simp [folds.op_alwaysFalse]⟩
    rw [hiff, translateOrWidenFilter, translateOrWidenEach_eq_map]
    exact folds.trueIff_foldl_or hfalse ih

end

end TableFilter

section

variable {ε : Type*} [Expressions ε] (folds : Folds ε) {filters : TableFilterSet} {schema : Schema}

include folds

theorem trueIff_foldl_translateColumn {fs : List (Nat × TableFilter)} {P : Prop} {a : ε}
    (ha : TrueIff P a) :
    TrueIff (P ∧ ∀ f ∈ fs, f.1 < schema.fields.length → f.2.Collapses)
      (fs.foldl (translateColumn schema) a) := by
  induction fs generalizing a P
  case nil => simpa using ha
  case cons f fs ih =>
    rw [List.forall_mem_cons, ← and_assoc]
    apply ih
    rw [translateColumn]
    cases hfield : schema.fields[f.1]?
    case none =>
      have hout : ¬f.1 < schema.fields.length := by simpa using hfield
      simpa [hout] using ha
    case some field =>
      have hin : f.1 < schema.fields.length := (List.getElem?_eq_some_iff.mp hfield).1
      simpa [hin] using folds.trueIff_and ha (TableFilter.collapses folds f.2 field)

theorem canPrunePlanning_eq_false_iff : canPrunePlanning ε filters schema = false ↔
    ∀ (i : Nat) (f : TableFilter), filters.filters[i]? = some f → i < schema.fields.length →
      f.Collapses := by
  have htrue : TrueIff True (alwaysTrue : ε) := .inl ⟨trivial, rfl⟩
  rw [canPrunePlanning, decide_eq_false_iff_not, not_not]
  refine (folds.op_eq_true_iff (trueIff_foldl_translateColumn folds htrue)).trans ?_
  simp only [true_and, Prod.forall, Std.ExtTreeMap.mem_toList_iff_getElem?_eq_some]

end

-- Widening a filter replaces nothing but what can not be translated, and nothing is left to plan with
-- only if all of it collapses.
theorem widening_is_exact {ε : Type*} [Expressions ε] (sem : Semantics ε) (folds : Folds ε)
    (filters : TableFilterSet) (schema : Schema) :
    (∀ env, sem.eval (translateOrWidenFilters filters schema) env ↔
      ∀ (i : Nat) (f : TableFilter) (field : SchemaField), filters.filters[i]? = some f →
        schema.fields[i]? = some field → f.Widened sem env field.name) ∧
    (canPrunePlanning ε filters schema = false ↔
      ∀ (i : Nat) (f : TableFilter), filters.filters[i]? = some f → i < schema.fields.length →
        f.Collapses) := by
  constructor
  case left =>
    intro env
    rw [sem.eval_translateOrWidenFilters_iff]
    simp only [TableFilter.widened_iff]
    exact ⟨fun h i f field hf hi => h i f hf field hi, fun h i f hf field hi => h i f field hf hi⟩
  case right => exact canPrunePlanning_eq_false_iff folds

theorem widening_is_exact_prices :
    let schema : Schema := {
      fields := [{ fieldId := 1, name := "price", type := .double, doc := "" }]
      nodup  := by decide
    }
    let positive := TableFilter.constantComparison .compareGreaterThan (.double 0)
    let known := TableFilter.conjunctionAnd [positive, .isNotNull]
    let filters : TableFilterSet := { filters := .ofList [(0, known)] }
    (∀ env, Expression.semantics.eval (translateOrWidenFilters filters schema) env ↔
      ∀ (i : Nat) (f : TableFilter) (field : SchemaField), filters.filters[i]? = some f →
        schema.fields[i]? = some field → f.Widened Expression.semantics env field.name) ∧
    (canPrunePlanning Expression filters schema = false ↔
      ∀ (i : Nat) (f : TableFilter), filters.filters[i]? = some f → i < schema.fields.length →
        f.Collapses) :=
  widening_is_exact Expression.semantics Expression.folds _ _

end ProtoIceberg
