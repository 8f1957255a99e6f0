import ProtoIceberg.Scan.MultiFileList

namespace ProtoIceberg

section

variable {ε : Type*} [Expressions ε] (sem : Expressions.Semantics ε) {schema : Schema}
  {env : Environment} {set src : TableFilterSet} {f g : TableFilter} {i : Nat}

-- What is relied on of DuckDB's filters and of the kinds of expressions.
structure TableFilter.Methods.Lawful (methods : Methods) : Prop where
  eval_copy   : ∀ f field env,
    sem.eval (translateOrWidenFilter (methods.copy f) field) env =
      sem.eval (translateOrWidenFilter f field) env
  eval_equals : ∀ f g, methods.equals f g → ∀ field env,
    sem.eval (translateOrWidenFilter f field) env = sem.eval (translateOrWidenFilter g field) env

namespace Expressions.Semantics

-- Whether a row passes the translation of a column's filter.
def Passes (schema : Schema) (env : Environment) : Nat × TableFilter → Prop
  | (columnIdx, filter) => ∀ field, schema.fields[columnIdx]? = some field →
    sem.eval (translateOrWidenFilter filter field) env

variable {sem} {methods : TableFilter.Methods} {fs : List (Nat × TableFilter)}

theorem toList_of_isEmpty (h : set.isEmpty) : set.filters.toList = [] :=
  List.isEmpty_iff.mp <| Std.ExtTreeMap.isEmpty_toList.trans h

theorem eval_iff_forall_passes : sem.eval (translateOrWidenFilters set schema) env ↔
    ∀ p ∈ set.filters.toList, sem.Passes schema env p := by
  rw [sem.eval_translateOrWidenFilters_iff]
  simp only [Prod.forall, Std.ExtTreeMap.mem_toList_iff_getElem?_eq_some]
  rfl

theorem eval_of_isEmpty (h : set.isEmpty) : sem.eval (translateOrWidenFilters set schema) env := by
  rw [eval_iff_forall_passes, toList_of_isEmpty h]
  exact nofun

theorem eval_empty : sem.eval (translateOrWidenFilters .empty schema) env :=
  eval_of_isEmpty Std.ExtTreeMap.isEmpty_empty

theorem passes_conjoin : sem.Passes schema env (i, TableFilterSet.conjoin f g) ↔
    sem.Passes schema env (i, f) ∧ sem.Passes schema env (i, g) := by
  simp only [Passes, ← forall_and]
  refine forall₂_congr fun field _ => ?_
  rw [TableFilterSet.conjoin.eq_def]
  split <;> simp [sem.eval_translate_and]

-- Pushing a filter restricts the rows to those that also pass it.
theorem eval_pushFilter : sem.eval (translateOrWidenFilters (set.pushFilter i f) schema) env ↔
    sem.eval (translateOrWidenFilters set schema) env ∧ sem.Passes schema env (i, f) := by
  simp only [sem.eval_translateOrWidenFilters_iff, TableFilterSet.getElem?_pushFilter]
  constructor
  case mp =>
    intro h
    cases hi : set.filters[i]?
    case none =>
      refine ⟨fun j g hj => ?_, h i f (by simp [hi])⟩
      have hne : i ≠ j := by
        intro he
        subst he
        exact nomatch hi.symm.trans hj
      exact h j g (by simp [hne, hj])
    case some existing =>
      have hboth := passes_conjoin.mp <| h i (TableFilterSet.conjoin existing f) (by simp [hi])
      refine ⟨fun j g hj => ?_, hboth.right⟩
      by_cases hne : i = j
      case neg => exact h j g (by simp [hne, hj])
      case pos =>
        subst hne
        cases hi.symm.trans hj
        exact hboth.left
  case mpr =>
    intro ⟨hset, hf⟩ j g hj
    split at hj
    case isFalse => exact hset j g hj
    case isTrue he =>
      subst he
      cases hi : set.filters[i]?
      case none =>
        rw [hi] at hj
        cases hj
        exact hf
      case some existing =>
        rw [hi] at hj
        cases hj
        exact passes_conjoin.mpr ⟨hset i existing hi, hf⟩

theorem eval_foldl_pushFilter (copy : TableFilter → TableFilter)
    (hcopy : ∀ f field env, sem.eval (translateOrWidenFilter (copy f) field) env =
      sem.eval (translateOrWidenFilter f field) env) :
    let pushed := fs.foldl (fun set (i, f) => set.pushFilter i (copy f)) set
    sem.eval (translateOrWidenFilters pushed schema) env ↔
      sem.eval (translateOrWidenFilters set schema) env ∧ ∀ p ∈ fs, sem.Passes schema env p := by
  induction fs generalizing set
  case nil => simp
  case cons p fs ih =>
    rw [List.foldl_cons, List.forall_mem_cons, ← and_assoc]
    refine ih.trans <| and_congr_left' ?_
    rw [eval_pushFilter]
    simp only [Passes, hcopy]

end Expressions.Semantics

namespace MultiFileList

open Expressions.Semantics

variable {sem} {methods : TableFilter.Methods} {list : MultiFileList} {φ : Type}

theorem eval_append (hm : methods.Lawful sem) :
    sem.eval (translateOrWidenFilters (append methods set src) schema) env ↔
      sem.eval (translateOrWidenFilters set schema) env ∧
      sem.eval (translateOrWidenFilters src schema) env := by
  rw [append]
  refine (eval_foldl_pushFilter methods.copy hm.eval_copy).trans ?_
  rw [← eval_iff_forall_passes]

theorem eval_createFilteredList (hm : methods.Lawful sem) :
    sem.eval (translateOrWidenFilters (list.createFilteredList methods set).tableFilters schema) env ↔
      sem.eval (translateOrWidenFilters list.tableFilters schema) env ∧
      sem.eval (translateOrWidenFilters set schema) env := by
  rw [createFilteredList, eval_append hm, eval_append hm, and_iff_right eval_empty]

theorem passes_of_isPushed (hm : methods.Lawful sem)
    (hlist : sem.eval (translateOrWidenFilters list.tableFilters schema) env)
    (h : list.isPushed methods i f) : sem.Passes schema env (i, f) := by
  have ⟨g, hg, hequals⟩ := (Option.any_eq_true _ _).mp h
  intro field hfield
  rw [hm.eval_equals f g hequals field env]
  exact sem.eval_translateOrWidenFilters_iff.mp hlist i g hg field hfield

-- Filters that are already pushed down may be skipped.
theorem eval_newFilters (hm : methods.Lawful sem) {columnIds : List Nat}
    (hlist : sem.eval (translateOrWidenFilters list.tableFilters schema) env) :
    sem.eval (translateOrWidenFilters (list.newFilters methods columnIds set) schema) env ↔
      ∀ p ∈ set.filters.toList, ∀ columnId, scannedColumn columnIds p.1 = some columnId →
        sem.Passes schema env (columnId, p.2) := by
  have go (fs : List (Nat × TableFilter)) (acc : TableFilterSet) :
      let pushed := fs.foldl (list.pushNewFilter methods columnIds) acc
      sem.eval (translateOrWidenFilters pushed schema) env ↔
        sem.eval (translateOrWidenFilters acc schema) env ∧
        ∀ p ∈ fs, ∀ columnId, scannedColumn columnIds p.1 = some columnId →
          sem.Passes schema env (columnId, p.2) := by
    induction fs generalizing acc
    case nil => simp
    case cons p fs ih =>
      rw [List.foldl_cons, List.forall_mem_cons, ← and_assoc]
      refine (ih _).trans <| and_congr_left' ?_
      rw [pushNewFilter]
      cases hc : scannedColumn columnIds p.1
      case none => simp
      case some columnId =>
        simp only [Option.some.injEq, forall_eq']
        split
        case isTrue hpushed => exact (and_iff_left <| passes_of_isPushed hm hlist hpushed).symm
        case isFalse =>
          rw [eval_pushFilter]
          simp only [Passes, hm.eval_copy]
  rw [newFilters]
  exact (go ..).trans <| and_iff_right eval_empty

theorem eval_planFilter : (∀ e ∈ list.planFilter ε, sem.eval e env) ↔
    sem.eval (translateOrWidenFilters list.tableFilters list.scanInfo.schema) env := by
  rw [planFilter]
  cases he : list.tableFilters.isEmpty
  case false => simp
  case true  => simp [eval_of_isEmpty he]

-- The filters of a pushdown, keyed by the columns that they are on.
def Pushdown.supplied : Pushdown φ → List (Nat × TableFilter)
  | .complex generate filters  =>
    if filters.isEmpty then [] else (generate filters).filters.toList
  | .dynamic columnIds filters => filters.filters.toList.filterMap fun (filterIdx, filter) =>
    (scannedColumn columnIds filterIdx).map (·, filter)

theorem forall_supplied_dynamic {columnIds : List Nat} {P : Nat × TableFilter → Prop} :
    (∀ p ∈ (Pushdown.dynamic columnIds set : Pushdown φ).supplied, P p) ↔
      ∀ p ∈ set.filters.toList, ∀ columnId, scannedColumn columnIds p.1 = some columnId →
        P (columnId, p.2) := by
  simp only [Pushdown.supplied, List.mem_filterMap, Option.map_eq_some_iff]
  constructor
  case mp  => exact fun h p hp columnId hc => h _ ⟨p, hp, columnId, hc, rfl⟩
  case mpr => exact fun h _ ⟨p, hp, columnId, hc, he⟩ => he ▸ h p hp columnId hc

-- The filters that a pushdown adds to a list.
def Pushdown.added (methods : TableFilter.Methods) (list : MultiFileList) :
    Pushdown φ → TableFilterSet
  | .complex generate filters  => if filters.isEmpty then .empty else generate filters
  | .dynamic columnIds filters => list.newFilters methods columnIds filters

theorem eval_added (hm : methods.Lawful sem) (pushdown : Pushdown φ)
    (hlist : sem.eval (translateOrWidenFilters list.tableFilters schema) env) :
    sem.eval (translateOrWidenFilters (pushdown.added methods list) schema) env ↔
      ∀ p ∈ pushdown.supplied, sem.Passes schema env p := by
  cases pushdown
  case dynamic columnIds filters =>
    rw [Pushdown.added, eval_newFilters hm hlist, forall_supplied_dynamic]
  case complex generate filters =>
    rw [Pushdown.added, Pushdown.supplied]
    cases filters.isEmpty
    case true  => exact iff_of_true eval_empty nofun
    case false => exact eval_iff_forall_passes

variable (ε methods list) in
-- A list is only kept if the filters that would be added are none or can not prune.
theorem pushdown_cases (pushdown : Pushdown φ) : let added := pushdown.added methods list
    list.pushdown methods ε pushdown = some (list.createFilteredList methods added) ∨
    list.pushdown methods ε pushdown = none ∧
      (added.isEmpty ∨ ¬canPrunePlanning ε added list.scanInfo.schema) := by
  intro added
  cases pushdown
  case complex generate filters =>
    dsimp only [MultiFileList.pushdown, complexFilterPushdown, buildTableFilterSet, added,
      Pushdown.added]
    cases filters.isEmpty
    case true => exact .inr ⟨rfl, .inl Std.ExtTreeMap.isEmpty_empty⟩
    case false =>
      cases he : (generate filters).isEmpty
      case true => exact .inr ⟨by simp, .inl he⟩
      case false =>
        cases hp : canPrunePlanning ε (generate filters) list.scanInfo.schema
        case true  => exact .inl (by simp [hp])
        case false => exact .inr ⟨by simp [hp], .inr (by simp [hp])⟩
  case dynamic columnIds filters =>
    dsimp only [MultiFileList.pushdown, dynamicFilterPushdown, added, Pushdown.added]
    cases hf : filters.isEmpty
    case true =>
      refine .inr ⟨rfl, .inl ?_⟩
      rw [newFilters, toList_of_isEmpty hf]
      rfl
    case false =>
      cases he : (list.newFilters methods columnIds filters).isEmpty
      case true => exact .inr ⟨by simp, .inl rfl⟩
      case false =>
        cases hp : canPrunePlanning ε (list.newFilters methods columnIds filters) list.scanInfo.schema
        case true  => exact .inl (by simp)
        case false => exact .inr ⟨by simp, .inr (by simp)⟩

variable (ε methods list) in
theorem scanInfo_pushdown (pushdown : Pushdown φ) :
    ((list.pushdown methods ε pushdown).getD list).scanInfo = list.scanInfo := by
  cases pushdown_cases ε methods list pushdown
  case inl h => rw [h]; rfl
  case inr h => rw [h.left]; rfl

-- Filters that can not prune are true on every row.
theorem eval_of_unprunable (hop : ∀ (e : ε) env, Expressions.op e = .true → sem.eval e env)
    (h : ¬canPrunePlanning ε set schema) : sem.eval (translateOrWidenFilters set schema) env :=
  hop _ _ <| by simpa [canPrunePlanning] using h

-- A pushdown keeps the rows that also pass its filters, whether it returns a new list or not.
theorem eval_pushdown (hm : methods.Lawful sem)
    (hop : ∀ (e : ε) env, Expressions.op e = .true → sem.eval e env) (pushdown : Pushdown φ)
    (hschema : list.scanInfo.schema = schema) :
    let pushed := (list.pushdown methods ε pushdown).getD list
    sem.eval (translateOrWidenFilters pushed.tableFilters schema) env ↔
      sem.eval (translateOrWidenFilters list.tableFilters schema) env ∧
      ∀ p ∈ pushdown.supplied, sem.Passes schema env p := by
  intro pushed
  subst hschema
  cases pushdown_cases ε methods list pushdown
  case inl h =>
    dsimp only [pushed]
    rw [h, Option.getD_some, eval_createFilteredList hm]
    exact and_congr_right fun hlist => eval_added hm pushdown hlist
  case inr h =>
    dsimp only [pushed]
    rw [h.left, Option.getD_none, iff_self_and]
    intro hlist
    rw [← eval_added hm pushdown hlist]
    cases h.right
    case inl he => exact eval_of_isEmpty he
    case inr hp => exact eval_of_unprunable hop hp

theorem run_scanInfo {pushdowns : List (Pushdown φ)} :
    ((machine methods ε list.scanInfo).run list pushdowns).scanInfo = list.scanInfo :=
  Machine.run_preserves (P := fun l : MultiFileList => l.scanInfo = list.scanInfo)
    (fun l pushdown h => (scanInfo_pushdown ε methods l pushdown).trans h) rfl

theorem eval_run (hm : methods.Lawful sem)
    (hop : ∀ (e : ε) env, Expressions.op e = .true → sem.eval e env) {scanInfo : ScanInfo}
    {pushdowns : List (Pushdown φ)} (hschema : list.scanInfo.schema = schema) :
    let list' := (machine methods ε scanInfo).run list pushdowns
    sem.eval (translateOrWidenFilters list'.tableFilters schema) env ↔
      sem.eval (translateOrWidenFilters list.tableFilters schema) env ∧
      ∀ pushdown ∈ pushdowns, ∀ p ∈ pushdown.supplied, sem.Passes schema env p := by
  induction pushdowns generalizing list
  case nil => simp
  case cons pushdown pushdowns ih =>
    have hinfo := scanInfo_pushdown ε methods list pushdown
    rw [List.forall_mem_cons, ← and_assoc]
    refine (ih <| hinfo ▸ hschema).trans <| and_congr_left' ?_
    exact eval_pushdown hm hop pushdown hschema

-- The filters of a pushdown as a set.
def Pushdown.suppliedSet (pushdown : Pushdown φ) : TableFilterSet :=
  pushdown.supplied.foldl (fun set (i, f) => set.pushFilter i f) .empty

theorem eval_suppliedSet {pushdown : Pushdown φ} :
    sem.eval (translateOrWidenFilters pushdown.suppliedSet schema) env ↔
      ∀ p ∈ pushdown.supplied, sem.Passes schema env p :=
  (eval_foldl_pushFilter id fun _ _ _ => rfl).trans <| and_iff_right eval_empty

end MultiFileList

end

open MultiFileList Expressions.Semantics

-- Planning keeps exactly the rows that pass all filters that were ever supplied, and pushing filters
-- that are not pushed down would not change that.
theorem pushdown_loses_and_invents_no_filter {ε : Type*} [Expressions ε] {φ : Type}
    (sem : Expressions.Semantics ε) (methods : TableFilter.Methods) (hm : methods.Lawful sem)
    (hop : ∀ (e : ε) env, Expressions.op e = .true → sem.eval e env) (scanInfo : ScanInfo)
    (pushdowns : List (Pushdown φ)) (env : Environment) :
    let list := (machine methods ε scanInfo).run (create scanInfo) pushdowns
    ((∀ e ∈ list.planFilter ε, sem.eval e env) ↔
      ∀ pushdown ∈ pushdowns, ∀ p ∈ pushdown.supplied, sem.Passes scanInfo.schema env p) ∧
    ∀ pushdown : Pushdown φ, list.pushdown methods ε pushdown = none →
      ((∀ e ∈ (list.createFilteredList methods pushdown.suppliedSet).planFilter ε, sem.eval e env) ↔
        ∀ e ∈ list.planFilter ε, sem.eval e env) := by
  intro list
  have hinfo : list.scanInfo = scanInfo := run_scanInfo
  have hschema : list.scanInfo.schema = scanInfo.schema := congrArg ScanInfo.schema hinfo
  simp only [eval_planFilter]
  constructor
  case left =>
    rw [hschema]
    exact (eval_run hm hop rfl).trans <| and_iff_right eval_empty
  case right =>
    intro pushdown hnone
    have h : sem.eval (translateOrWidenFilters (Option.getD _ list).tableFilters _) env ↔ _ :=
      eval_pushdown hm hop pushdown rfl
    rw [hnone] at h
    have hinfo : (list.createFilteredList methods pushdown.suppliedSet).scanInfo = list.scanInfo :=
      rfl
    rw [hinfo, eval_createFilteredList hm, eval_suppliedSet]
    exact h.symm

open Classical in
-- Filters that are copied and compared structurally.
noncomputable def TableFilter.Methods.structural : Methods where
  copy       := id
  equals f g := f = g

theorem TableFilter.Methods.structural_lawful {ε : Type*} [Expressions ε]
    {sem : Expressions.Semantics ε} : structural.Lawful sem where
  eval_copy _ _ _  := rfl
  eval_equals f g  := by
    intro h _ _
    have he : f = g := by simpa [structural] using h
    rw [he]

namespace Shop

def price : SchemaField where
  fieldId := 1
  name    := "price"
  type    := .double
  doc     := ""

-- A scan of a table that has a single column.
def prices : ScanInfo where
  mode   := .currentRead
  schema := { fields := [price], nodup := by decide }
  table  := {
    name                       := { ns := { levels := ["shop"] }, name := "prices" }
    location                   := "s3://shop/prices"
    io                         := some []
    properties                 := []
    lastUpdatedMs              := 0
    snapshots                  := []
    currentSnapshot            := none
    schema                     := .ok { fields := [price], nodup := by decide }
    schemaFor _                := .error { kind := .other 0, message := "" }
    optionalSnapshotIdAsOfTime := fun _ => none
  }

end Shop

theorem pushdown_loses_and_invents_no_filter_prices :
    let above5 :=
      TableFilterSet.empty.pushFilter 0 (.constantComparison .compareGreaterThan (.bigint 5))
    let pushdowns : List (Pushdown Unit) := [
      .complex (fun _ => above5) [()],
      .dynamic [0, virtualColumnStart] (above5.pushFilter 1 .isNull)
    ]
    let list := (machine .structural Expression Shop.prices).run (create Shop.prices) pushdowns
    ∀ env, (∀ e ∈ list.planFilter Expression, Expression.semantics.eval e env) ↔
      ∀ pushdown ∈ pushdowns, ∀ p ∈ pushdown.supplied,
        Expression.semantics.Passes Shop.prices.schema env p := by
  intro _ pushdowns _ env
  exact (pushdown_loses_and_invents_no_filter Expression.semantics .structural
    TableFilter.Methods.structural_lawful (fun _ _ => Expression.eval_of_op_true) Shop.prices
    pushdowns env).left

end ProtoIceberg
