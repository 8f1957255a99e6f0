import ProtoIceberg.Conversion.Planner
import ProtoIceberg.Extensions.List

namespace ProtoIceberg

def ExpressionType.isPruning : ExpressionType → Bool
  | .compareNotEqual | .other _ => false
  | _                           => true

-- Whether DuckDB finds the comparison true of no number within the bounds.
def Bounds.Refutes (b : Bounds) (op : ExpressionType) (c : Value) : Prop :=
  ∀ l, b.Within l → ∀ o, l.toValue.compare c = some o → ¬op.holds o

namespace TableFilter

-- Whether the bounds of a floating-point column are enough to see that no number satisfies a filter.
-- Constants that are zero, NaN or NULL play no part in this, as they are not pushed down.
inductive Excluded (b : Bounds) : TableFilter → Prop
  | constantComparison {op : ExpressionType} {c : Value} :
    op.isPruning → c.isNonzeroNumber → b.Refutes op c → Excluded b (.constantComparison op c)
  | inFilter {cs : List Value} :
    (∀ c ∈ cs, c.isNonzeroNumber ∧ b.Refutes .compareEqual c) → Excluded b (.inFilter cs)
  | conjunctionAnd {f : TableFilter} {fs : List TableFilter} :
    f ∈ fs → Excluded b f → Excluded b (.conjunctionAnd fs)
  | conjunctionOr {fs : List TableFilter} :
    (∀ f ∈ fs, Excluded b f) → Excluded b (.conjunctionOr fs)
  | optionalFilter {f : TableFilter} :
    Excluded b f → Excluded b (.optionalFilter (some f))

-- Whether DuckDB keeps the NaN `x`: it is equal to other NaNs and greater than every number.
inductive AcceptsNaN (u : Unsupported) (x : Value) : TableFilter → Prop
  | aboveNumber {op : ExpressionType} {c : Value} :
    c.isNumber → op.holds .gt → AcceptsNaN u x (.constantComparison op c)
  | equalToNaN {op : ExpressionType} {c : Value} :
    c.isNaN → op.holds .eq → AcceptsNaN u x (.constantComparison op c)
  | otherComparison {code : Nat} {c : Value} :
    u.comparison code x c = .true → AcceptsNaN u x (.constantComparison (.other code) c)
  | isNotNull :
    AcceptsNaN u x .isNotNull
  | inFilter {c : Value} {cs : List Value} :
    c ∈ cs → c.isNaN → AcceptsNaN u x (.inFilter cs)
  | conjunctionAnd {fs : List TableFilter} :
    (∀ f ∈ fs, AcceptsNaN u x f) → AcceptsNaN u x (.conjunctionAnd fs)
  | conjunctionOr {f : TableFilter} {fs : List TableFilter} :
    f ∈ fs → AcceptsNaN u x f → AcceptsNaN u x (.conjunctionOr fs)
  | optionalNone :
    AcceptsNaN u x (.optionalFilter none)
  | optionalSome {f : TableFilter} :
    AcceptsNaN u x f → AcceptsNaN u x (.optionalFilter (some f))
  | other {kind : Nat} :
    u.filter kind x = .true → AcceptsNaN u x (.other kind)

variable {u : Unsupported} {b : Bounds} {f : TableFilter} {t : IcebergType} {x c : Value}

theorem fits_of_mem {fs : List TableFilter} (h : ∀ c ∈ constantsOfEach fs, c.Fits t) :
    ∀ f ∈ fs, ∀ c ∈ constants f, c.Fits t :=
  fun f hf c hc => h c <| mem_constantsOfEach_iff.mpr ⟨f, hf, hc⟩

theorem compareConstant_nan_iff {op : ExpressionType} (hx : x.Fits t) (hn : x.isNaN)
    (hc : c.Fits t) (ho : ∀ code, op ≠ .other code) :
    compareConstant u op x c = .true ↔ c.isNumber ∧ op.holds .gt ∨ c.isNaN ∧ op.holds .eq := by
  rw [compareConstant_eq_true_iff ho]
  simp only [Option.some.injEq, exists_and_left, exists_eq_left', hx.compare_nan hc hn]
  by_cases hcn : c.isNaN
  case pos => simp [hcn, Value.not_isNumber_of_isNaN hcn]
  case neg => by_cases hcm : c.isNumber <;> simp [hcn, hcm]

theorem eval_nan_iff (f : TableFilter) (hx : x.Fits t) (hn : x.isNaN)
    (hf : ∀ c ∈ f.constants, c.Fits t) : f.eval u x = .true ↔ f.AcceptsNaN u x := by
  induction f using TableFilter.induct
  case constantComparison op c =>
    by_cases ho : ∃ code, op = .other code
    case pos =>
      obtain ⟨code, ho⟩ := ho
      subst ho
      refine ⟨.otherComparison, fun h => ?_⟩
      cases h
      case aboveNumber h _   => cases h
      case equalToNaN h _    => cases h
      case otherComparison h => exact h
    case neg =>
      have ho : ∀ code, op ≠ .other code := by simpa using ho
      rw [eval, compareConstant_nan_iff hx hn (hf c (by simp [constants])) ho]
      constructor
      case mp =>
        intro h
        cases h
        case inl h => exact .aboveNumber h.left h.right
        case inr h => exact .equalToNaN h.left h.right
      case mpr =>
        intro h
        cases h
        case aboveNumber h₂ h₁ => exact .inl ⟨h₁, h₂⟩
        case equalToNaN h₂ h₁  => exact .inr ⟨h₁, h₂⟩
        case otherComparison   => exact absurd rfl (ho _)
  case isNull       => exact iff_of_false (by simp [eval]) (by rintro ⟨⟩)
  case isNotNull    => exact iff_of_true rfl .isNotNull
  case inFilter cs =>
    rw [eval_inFilter_iff]
    constructor
    case mp =>
      rintro ⟨c, hc, h⟩
      have h := compareConstant_nan_iff hx hn (hf c hc) (by simp) |>.mp h
      exact .inFilter hc <| h.resolve_left (by simp [ExpressionType.holds]) |>.left
    case mpr =>
      intro h
      cases h
      case inFilter h hc =>
        refine ⟨_, hc, ?_⟩
        rw [compareConstant_nan_iff hx hn (hf _ hc) (by simp)]
        exact .inr ⟨h, rfl⟩
  case conjunctionAnd fs ih =>
    replace ih := fun f hm => ih f hm (fits_of_mem hf f hm)
    rw [eval_conjunctionAnd_iff, forall₂_congr ih]
    constructor
    case mp  => exact .conjunctionAnd
    case mpr => exact fun h => by cases h; assumption
  case conjunctionOr fs ih =>
    replace ih := fun f hm => ih f hm (fits_of_mem hf f hm)
    rw [eval_conjunctionOr_iff]
    constructor
    case mp =>
      rintro ⟨f, hm, h⟩
      exact .conjunctionOr hm <| ih f hm |>.mp h
    case mpr =>
      intro h
      cases h
      case conjunctionOr h hm => exact ⟨_, hm, ih _ hm |>.mpr h⟩
  case optionalNone => exact iff_of_true rfl .optionalNone
  case optionalSome f ih =>
    rw [eval, ih hf]
    constructor
    case mp  => exact .optionalSome
    case mpr => exact fun h => by cases h; assumption
  case other kind =>
    constructor
    case mp  => exact .other
    case mpr => exact fun h => by cases h; assumption

-- Bounds are right about numbers and NULL.
theorem Excluded.eval_ne_true {v : Option Datum} (h : f.Excluded b)
    (hv : ∀ d ∈ v, ∃ l, d = .primitive l ∧ b.Within l) :
    f.eval u (v.map Datum.toValue) ≠ .true := by
  have refute {op : ExpressionType} {c : Value} (ho : op.isPruning) (hr : b.Refutes op c) :
      compareConstant u op (v.map Datum.toValue) c ≠ .true := by
    intro ht
    have ho : ∀ code, op ≠ .other code := fun _ h => nomatch h ▸ ho
    have ⟨w, o, hw, hcmp, hop⟩ := compareConstant_eq_true_iff ho |>.mp ht
    have ⟨d, hd, hdw⟩ := Option.map_eq_some_iff.mp hw
    have ⟨l, hl, hb⟩ := hv d hd
    subst hl hdw
    exact hr l hb o hcmp hop
  induction h
  case constantComparison ho _ hr => exact refute ho hr
  case inFilter cs h =>
    rw [ne_eq, eval_inFilter_iff]
    exact fun ⟨c, hc, ht⟩ => refute rfl (h c hc).right ht
  case conjunctionAnd hm _ ih =>
    exact fun ht => ih <| eval_conjunctionAnd_iff.mp ht _ hm
  case conjunctionOr ih =>
    intro ht
    have ⟨f, hm, ht⟩ := eval_conjunctionOr_iff.mp ht
    exact ih f hm ht
  case optionalFilter ih => exact ih

end TableFilter

namespace Expressions.Planner

variable {ε : Type*} [Expressions ε] (planner : Planner ε) {bs : String → Bounds} {b : Bounds}
  {field : SchemaField} {name : String} {t : IcebergType} {op : ExpressionType} {c : Value}

theorem refutes_iff_excludes {lit : Literal} (hf : c.Fits t)
    (hc : convertFilterConstant c = some lit) : b.Refutes op c ↔ b.Excludes op lit := by
  apply forall₂_congr
  intro l hl
  rw [Literal.compare_eq_of_fits hf hc hl.number]

theorem maySkip_translateConstantFilter_iff (hf : c.Fits t) :
    planner.maySkip (translateConstantFilter name op c) bs ↔
      op.isPruning ∧ c.isNonzeroNumber ∧ (bs name).Refutes op c := by
  rw [translateConstantFilter, ← hf.isSome_convertFilterConstant]
  cases hc : convertFilterConstant c
  case none => simp [planner.maySkip_alwaysTrue]
  case some lit =>
    rw [refutes_iff_excludes hf hc]
    cases op <;> simp only [ExpressionType.isPruning, Option.isSome_some, true_and, false_and,
      Bool.false_eq_true, planner.maySkip_equal, planner.maySkip_notEqual, planner.maySkip_lessThan,
      planner.maySkip_lessThanOrEqual, planner.maySkip_greaterThan,
      planner.maySkip_greaterThanOrEqual, planner.maySkip_alwaysTrue]

theorem maySkip_translateInFilter_iff {cs : List Value} (hf : ∀ c ∈ cs, c.Fits t) :
    planner.maySkip (translateInFilter name cs) bs ↔
      ∀ c ∈ cs, c.isNonzeroNumber ∧ (bs name).Refutes .compareEqual c := by
  rw [translateInFilter]
  cases h : cs.mapM convertFilterConstant
  case none =>
    have ⟨c, hc, hconv⟩ := List.mapM_eq_none_iff.mp h
    have hnum := (hf c hc).isSome_convertFilterConstant
    apply iff_of_false planner.maySkip_alwaysTrue
    intro he
    exact nomatch hconv ▸ hnum.trans (he c hc).left
  case some lits =>
    have hmap := List.mapM_eq_some_iff.mp h
    rw [planner.maySkip_isIn]
    constructor
    case mp =>
      intro he c hc
      have hm : convertFilterConstant c ∈ lits.map some := hmap ▸ List.mem_map_of_mem hc
      have ⟨lit, hlit, hconv⟩ := List.mem_map.mp hm
      have hnum := (hf c hc).isSome_convertFilterConstant
      exact ⟨hnum ▸ hconv ▸ rfl, refutes_iff_excludes (hf c hc) hconv.symm |>.mpr (he lit hlit)⟩
    case mpr =>
      intro hr lit hlit
      have hm : some lit ∈ cs.map convertFilterConstant := hmap ▸ List.mem_map_of_mem hlit
      have ⟨c, hc, hconv⟩ := List.mem_map.mp hm
      exact refutes_iff_excludes (hf c hc) hconv |>.mp (hr c hc).right

theorem maySkip_translateOrWidenFilter_iff (f : TableFilter) (hf : ∀ c ∈ f.constants, c.Fits t) :
    planner.maySkip (translateOrWidenFilter f field) bs ↔ f.Excluded (bs field.name) := by
  induction f using TableFilter.induct
  case constantComparison op c =>
    have hc : c.Fits t := hf c (by simp [TableFilter.constants])
    rw [translateOrWidenFilter, planner.maySkip_translateConstantFilter_iff hc]
    constructor
    case mp  => exact fun h => .constantComparison h.left h.right.left h.right.right
    case mpr =>
      intro h
      cases h
      case constantComparison h₁ h₂ h₃ => exact ⟨h₁, h₂, h₃⟩
  case inFilter cs =>
    have hcs : ∀ c ∈ cs, c.Fits t := hf
    rw [translateOrWidenFilter, planner.maySkip_translateInFilter_iff hcs]
    constructor
    case mp  => exact .inFilter
    case mpr => exact fun h => by cases h; assumption
  case conjunctionAnd fs ih =>
    replace ih := fun f hm => ih f hm (TableFilter.fits_of_mem hf f hm)
    rw [planner.maySkip_translate_and]
    constructor
    case mp =>
      rintro ⟨f, hm, h⟩
      exact .conjunctionAnd hm <| ih f hm |>.mp h
    case mpr =>
      intro h
      cases h
      case conjunctionAnd h hm => exact ⟨_, hm, ih _ hm |>.mpr h⟩
  case conjunctionOr fs ih =>
    replace ih := fun f hm => ih f hm (TableFilter.fits_of_mem hf f hm)
    rw [planner.maySkip_translate_or, forall₂_congr ih]
    constructor
    case mp  => exact .conjunctionOr
    case mpr => exact fun h => by cases h; assumption
  case optionalSome f ih =>
    rw [translateOrWidenFilter, ih hf]
    constructor
    case mp  => exact .optionalFilter
    case mpr => exact fun h => by cases h; assumption
  case isNull       => exact iff_of_false planner.maySkip_isNull (by rintro ⟨⟩)
  case isNotNull    => exact iff_of_false planner.maySkip_notNull (by rintro ⟨⟩)
  case optionalNone => exact iff_of_false planner.maySkip_alwaysTrue (by rintro ⟨⟩)
  case other kind   => exact iff_of_false planner.maySkip_alwaysTrue (by rintro ⟨⟩)

theorem maySkip_pushFilter_iff {schema : Schema} {i : Nat} {f : TableFilter}
    (hi : schema.fields[i]? = some field) (hf : ∀ c ∈ f.constants, c.Fits t) :
    planner.maySkip (translateOrWidenFilters (TableFilterSet.empty.pushFilter i f) schema) bs ↔
      f.Excluded (bs field.name) := by
  rw [planner.maySkip_translateOrWidenFilters_iff, ← planner.maySkip_translateOrWidenFilter_iff f hf]
  simp [TableFilterSet.getElem?_pushFilter, TableFilterSet.empty, hi]

end Expressions.Planner

theorem DataFile.within_of_not_isNaN {t : IcebergType} (file : DataFile t) {d : Datum}
    (hd : some d ∈ file.values) (hn : ¬d.toValue.isNaN) :
    ∃ l, d = .primitive l ∧ file.bounds.Within l := by
  cases d
  case other => exact (file.fits _ hd).elim
  case primitive l =>
    have hn : ¬l.isNaN := Value.isNaN_toValue l ▸ hn
    exact ⟨l, rfl, file.covers l hd hn⟩

-- A file is only ever skipped wrongly for a NaN that the filter keeps.
theorem maySkip_sound_iff {ε : Type*} [Expressions ε] (planner : Expressions.Planner ε)
    (u : Unsupported) (schema : Schema) (i : Nat) (field : SchemaField)
    (hi : schema.fields[i]? = some field) (f : TableFilter)
    (hf : ∀ c ∈ f.constants, c.Fits field.type) (file : DataFile field.type) (bs : String → Bounds)
    (hb : bs field.name = file.bounds) :
    (planner.maySkip (translateOrWidenFilters (TableFilterSet.empty.pushFilter i f) schema) bs →
      ∀ v ∈ file.values, f.eval u (v.map Datum.toValue) ≠ .true) ↔
    ¬(f.Excluded file.bounds ∧
      ∃ d, some d ∈ file.values ∧ d.toValue.isNaN ∧ f.AcceptsNaN u d.toValue) := by
  rw [planner.maySkip_pushFilter_iff hi hf, hb, not_and]
  apply imp_congr_right
  intro he
  constructor
  case mp =>
    intro h ⟨d, hd, hn, ha⟩
    exact h (some d) hd <| f.eval_nan_iff (file.fits d hd) hn hf |>.mpr ha
  case mpr =>
    intro h v hv ht
    refine he.eval_ne_true (fun d hd => ?_) ht
    subst hd
    apply file.within_of_not_isNaN hv
    intro hn
    exact h ⟨d, hv, hn, f.eval_nan_iff (file.fits d hv) hn hf |>.mp ht⟩

namespace NanFile

def nan : Ieee.binary64.Bits := 0x7FF8000000000000
def one : Ieee.binary64.Bits := 0x3FF0000000000000
def five : Ieee.binary64.Bits := 0x4014000000000000

-- A file that holds NaN and 1.0 in the column `price`.
def file : DataFile .double where
  values := [some (.primitive (.double nan)), some (.primitive (.double one))]
  bounds := { lower := some (.double one), upper := some (.double one) }
  fits   := by simp [Datum.toValue, Literal.toValue, Value.Fits]
  covers := by
    intro l hl hn
    rcases List.mem_pair.mp hl with h | h <;> cases h
    case inl => exact absurd rfl hn
    case inr =>
      refine { number := hn, lower := ?_, upper := ?_ } <;> exact fun _ h => by cases h; rfl

def price : SchemaField := { fieldId := 1, name := "price", type := .double, doc := "" }

def schema : Schema := { fields := [price], nodup := by decide }

def unsupported : Unsupported := { comparison := fun _ _ _ => .unknown, filter := fun _ _ => .unknown }

def comparison (op : ExpressionType) (x : Ieee.binary64.Bits) : TableFilter :=
  .constantComparison op (.double x)

-- All values within the bounds are at most 1.0, which is less than 5.0.
theorem excludes_greaterThan_five : file.bounds.Excludes .compareGreaterThan (.double five) := by
  intro l hl o ho hgt
  have hup : (l.compare (.double one)).any (·.isLE) := hl.upper _ rfl
  cases l
  case double x =>
    have hle : x.rank ≤ one.rank := Int.isLE_compare.mp hup
    have hlt : one.rank < five.rank := by decide
    cases ho
    have hgt : x.rank > five.rank := compare_gt_iff_gt.mp <| Ordering.isGT_iff_eq_gt.mp hgt
    omega
  all_goals exact nomatch hup

theorem not_acceptsNaN_lessThan {x : Value} :
    ¬(comparison .compareLessThan one).AcceptsNaN unsupported x := by
  intro h
  cases h
  case aboveNumber h _ => exact nomatch h
  case equalToNaN h _  => exact absurd h (by decide)

end NanFile

open NanFile in
theorem maySkip_sound_iff_lessThan :
    let filters := TableFilterSet.empty.pushFilter 0 (comparison .compareLessThan one)
    Expression.planner.maySkip (translateOrWidenFilters filters schema) (fun _ => file.bounds) →
      ∀ v ∈ file.values,
        (comparison .compareLessThan one).eval unsupported (v.map Datum.toValue) ≠ .true := by
  have hf : ∀ c ∈ (comparison .compareLessThan one).constants, c.Fits price.type := by
    intro c hc
    cases List.mem_singleton.mp hc
    rfl
  apply maySkip_sound_iff Expression.planner unsupported schema 0 price rfl _ hf file
    (fun _ => file.bounds) rfl |>.mpr
  intro ⟨_, _, _, _, ha⟩
  exact not_acceptsNaN_lessThan ha

open NanFile in
theorem maySkip_greaterThan_five_drops_nan :
    let filters := TableFilterSet.empty.pushFilter 0 (comparison .compareGreaterThan five)
    ¬(Expression.planner.maySkip (translateOrWidenFilters filters schema) (fun _ => file.bounds) →
      ∀ v ∈ file.values,
        (comparison .compareGreaterThan five).eval unsupported (v.map Datum.toValue) ≠ .true) := by
  intro _ h
  refine h ?_ (some (.primitive (.double nan))) (by simp [file]) rfl
  rw [Expression.planner.maySkip_translateOrWidenFilters_iff]
  exact ⟨0, _, rfl, price, rfl, Expression.planner.maySkip_greaterThan.mpr excludes_greaterThan_five⟩

end ProtoIceberg
