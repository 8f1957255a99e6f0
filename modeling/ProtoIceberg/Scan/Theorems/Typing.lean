import ProtoIceberg.Conversion.Theorems.Typing
import ProtoIceberg.Scan.Theorems.Query
import ProtoIceberg.Scan.Theorems.Replan

namespace ProtoIceberg

theorem TableFilter.Typed.conjoin {type : IcebergType} {f g : TableFilter} (hf : f.Typed type)
    (hg : g.Typed type) : (TableFilterSet.conjoin f g).Typed type := by
  rw [TableFilterSet.conjoin.eq_def]
  split
  case h_1 fs =>
    cases hf
    case conjunctionAnd hfs =>
      exact .conjunctionAnd <| List.forall_mem_append.mpr ⟨hfs, List.forall_mem_singleton.mpr hg⟩
  case h_2 => exact .conjunctionAnd <| List.forall_mem_cons.mpr ⟨hf, List.forall_mem_singleton.mpr hg⟩

namespace TableFilterSet.Typed

variable {schema : Schema} {set src : TableFilterSet} {i : Nat} {f : TableFilter}

theorem empty : TableFilterSet.empty.Typed schema := by
  intro i f h
  simp [TableFilterSet.empty] at h

theorem pushFilter (hs : set.Typed schema) (hf : schema.Types (i, f)) :
    (set.pushFilter i f).Typed schema := by
  intro j g hj field hfield
  rw [getElem?_pushFilter] at hj
  split at hj
  case isFalse => exact hs j g hj field hfield
  case isTrue hij =>
    subst hij
    cases hi : set.filters[i]? <;> rw [hi] at hj <;> cases hj
    case none          => exact hf field hfield
    case some existing => exact (hs i existing hi field hfield).conjoin (hf field hfield)

end TableFilterSet.Typed

namespace MultiFileList

variable {ε : Type*} [Expressions ε] {φ : Type} {methods : TableFilter.Methods}
  {list : MultiFileList} {schema : Schema} {set src : TableFilterSet}

section

variable (hm : methods.Structural)

include hm

theorem typed_append (hset : set.Typed schema) (hsrc : src.Typed schema) :
    (append methods set src).Typed schema := by
  rw [append]
  refine List.foldlRecOn _ _ (motive := TableFilterSet.Typed schema) hset ?_
  rintro combined hcombined ⟨i, f⟩ hf
  rw [Std.ExtTreeMap.mem_toList_iff_getElem?_eq_some] at hf
  dsimp only
  rw [hm.copy_eq]
  exact hcombined.pushFilter (hsrc i f hf)

theorem typed_newFilters {columnIds : List Nat}
    (h : ∀ p ∈ (Pushdown.dynamic columnIds set : Pushdown φ).supplied, schema.Types p) :
    (list.newFilters methods columnIds set).Typed schema := by
  rw [forall_supplied_dynamic] at h
  rw [newFilters]
  refine List.foldlRecOn _ _ (motive := TableFilterSet.Typed schema) .empty ?_
  rintro new hnew ⟨filterIdx, f⟩ hf
  rw [pushNewFilter]
  cases hc : scannedColumn columnIds filterIdx
  case none          => exact hnew
  case some columnId =>
    dsimp only
    split
    case isTrue  => exact hnew
    case isFalse =>
      rw [hm.copy_eq]
      exact hnew.pushFilter (h _ hf columnId hc)

theorem typed_added {pushdown : Pushdown φ} (h : ∀ p ∈ pushdown.supplied, schema.Types p) :
    (pushdown.added methods list).Typed schema := by
  cases pushdown
  case dynamic columnIds filters => exact typed_newFilters hm h
  case complex generate filters =>
    rw [Pushdown.supplied] at h
    rw [Pushdown.added]
    cases he : filters.isEmpty <;> rw [he] at h
    case true  => exact .empty
    case false =>
      intro i f hf
      exact h (i, f) (Std.ExtTreeMap.mem_toList_iff_getElem?_eq_some.mpr hf)

variable (ε) in
theorem typed_pushdown {pushdown : Pushdown φ} (h : ∀ p ∈ pushdown.supplied, schema.Types p)
    (hl : list.tableFilters.Typed schema) :
    ((list.pushdown methods ε pushdown).getD list).tableFilters.Typed schema := by
  rcases pushdown_cases ε methods list pushdown with hp | ⟨hp, _⟩ <;> rw [hp]
  case inl => exact typed_append hm (typed_append hm .empty hl) (typed_added hm h)
  case inr => exact hl

theorem typed_planFilter {info : ScanInfo} {pushdowns : List (Pushdown φ)}
    (h : ∀ pushdown ∈ pushdowns, ∀ p ∈ pushdown.supplied, info.schema.Types p) :
    ∀ e ∈ ((machine methods ε info).run (create info) pushdowns).planFilter ε,
      Expressions.Typed info.schema e := by
  have hinfo : ((machine methods ε info).run (create info) pushdowns).scanInfo = info :=
    run_scanInfo
  have htyped : ((machine methods ε info).run (create info) pushdowns).tableFilters.Typed
      info.schema :=
    Machine.run_induction (P := fun list : MultiFileList => list.tableFilters.Typed info.schema)
      (fun _ _ hp hl => typed_pushdown ε hm hp hl) .empty h
  intro e he
  rw [planFilter, hinfo] at he
  split at he <;> cases he
  exact .translateOrWidenFilters htyped

end

theorem planFiles_of_readable {scans : TableScans ε} {tasks : List FileScanTask} {info : ScanInfo}
    (hinfo : list.scanInfo = info)
    (hs : scans.planFiles info.table info.mode.useSnapshot (list.planFilter ε) = .ok tasks)
    (ht : ∀ task ∈ tasks, task.Readable) :
    ∃ plan, list.planFiles scans = .ok plan ∧ plan.dataFiles = tasks.map FileScanTask.dataFile := by
  subst hinfo
  have hplan := @planFiles_outcome _ _ scans list
  generalize hp : list.planFiles scans = outcome at hplan
  cases hplan
  case failed hs'                => exact nomatch hs.symm.trans hs'
  case planned hs' _             =>
    cases hs.symm.trans hs'
    exact ⟨_, rfl, rfl⟩
  case refused pre post task hs' _ hr =>
    cases hs.symm.trans hs'
    exact absurd (ht task (by simp)) hr

end MultiFileList

-- What is relied on of Iceberg's scans: a filter over the schema's fields, with literals of their types,
-- can be bound and only leaves out files.
structure TableScans.Accepting {ε : Type*} [Expressions ε] (scans : TableScans ε) : Prop where
  accepts : ∀ {table useSnapshot schema tasks e}, table.schemaOf useSnapshot = .ok schema →
    Expressions.Typed schema e → scans.planFiles table useSnapshot none = .ok tasks →
    ∃ keep, scans.planFiles table useSnapshot (some e) = .ok (tasks.filter keep)

open MultiFileList

-- Whatever filters are pushed down, the expression that files are planned with is one that iceberg-cpp
-- can bind to the schema of the scan.
theorem pushed_filters_stay_typed {ε : Type*} [Expressions ε] {φ : Type}
    (methods : TableFilter.Methods) (hm : methods.Structural) (info : ScanInfo)
    (pushdowns : List (Pushdown φ))
    (h : ∀ pushdown ∈ pushdowns, ∀ p ∈ pushdown.supplied, info.schema.Types p) :
    ∀ e ∈ ((machine methods ε info).run (create info) pushdowns).planFilter ε,
      Expressions.Typed info.schema e :=
  typed_planFilter hm h

namespace Shop

-- A filter that keeps prices above 5.0.
def above5 : TableFilterSet :=
  TableFilterSet.empty.pushFilter 0
    (.constantComparison .compareGreaterThan (.double 0x4014000000000000))

theorem above5_typed : ∀ pushdown ∈ [(.complex (fun _ => above5) [()] : Pushdown Unit)],
    ∀ p ∈ pushdown.supplied, prices.schema.Types p := by
  have htyped : above5.Typed prices.schema := by
    refine TableFilterSet.Typed.empty.pushFilter ?_
    rintro _ ⟨⟩
    exact .constantComparison rfl
  intro pushdown hpushdown
  rw [List.mem_singleton.mp hpushdown]
  rintro ⟨i, f⟩ hf
  exact htyped i f (Std.ExtTreeMap.mem_toList_iff_getElem?_eq_some.mp hf)

end Shop

theorem pushed_filters_stay_typed_prices :
    let pushdowns : List (Pushdown Unit) := [.complex (fun _ => Shop.above5) [()]]
    let list := (machine .structural Expression Shop.prices).run (create Shop.prices) pushdowns
    ∀ e ∈ list.planFilter Expression, Expressions.Typed Shop.prices.schema e :=
  pushed_filters_stay_typed .structural TableFilter.Methods.structural_structural Shop.prices _
    Shop.above5_typed

-- Pushing filters down does not make a scan fail that can be planned without them, and only leaves out
-- files of its plan.
theorem pushdown_only_skips_files {ε : Type*} [Expressions ε] {φ : Type}
    (methods : TableFilter.Methods) (hm : methods.Structural) (scans : TableScans ε)
    (hs : scans.Accepting) (info : ScanInfo) (hi : info.Resolved) (pushdowns : List (Pushdown φ))
    (h : ∀ pushdown ∈ pushdowns, ∀ p ∈ pushdown.supplied, info.schema.Types p) (plan : ScanPlan)
    (hplan : (create info).planFiles scans = .ok plan) :
    ∃ plan', ((machine methods ε info).run (create info) pushdowns).planFiles scans = .ok plan' ∧
      plan'.dataFiles.Sublist plan.dataFiles := by
  have hinfo : ((machine methods ε info).run (create info) pushdowns).scanInfo = info :=
    run_scanInfo
  obtain ⟨tasks, htasks, hread, hfiles⟩ := planned_of_ok hplan
  have htyped := @typed_planFilter ε _ φ methods hm info pushdowns h
  suffices hkeep : ∃ keep, scans.planFiles info.table info.mode.useSnapshot
      (((machine methods ε info).run (create info) pushdowns).planFilter ε) =
        .ok (tasks.filter keep) by
    obtain ⟨keep, hkeep⟩ := hkeep
    obtain ⟨plan', hplan', hfiles'⟩ := planFiles_of_readable hinfo hkeep
      fun task htask => hread task (List.mem_filter.mp htask).left
    refine ⟨plan', hplan', ?_⟩
    rw [hfiles, hfiles']
    exact List.filter_sublist.map _
  cases hfilter : ((machine methods ε info).run (create info) pushdowns).planFilter ε
  case none   => exact ⟨fun _ => true, by rw [List.filter_true]; exact htasks⟩
  case some e => exact hs.accepts hi (htyped e hfilter) htasks

theorem Shop.priceScans_accepting : priceScans.Accepting where
  accepts hschema _ htasks := by
    simp only [priceScans, hschema] at htasks ⊢
    cases htasks
    exact ⟨_, rfl⟩

theorem pushdown_only_skips_files_prices :
    let pushdowns : List (Pushdown Unit) := [.complex (fun _ => Shop.above5) [()]]
    let list := (machine .structural Expression Shop.prices).run (create Shop.prices) pushdowns
    ∃ plan, list.planFiles Shop.priceScans = .ok plan ∧
      plan.dataFiles.Sublist [Shop.priceFile "low", Shop.priceFile "high"] :=
  pushdown_only_skips_files .structural TableFilter.Methods.structural_structural Shop.priceScans
    Shop.priceScans_accepting Shop.prices rfl _ Shop.above5_typed
    { dataFiles := [Shop.priceFile "low", Shop.priceFile "high"], totalRecordCount := 2 } rfl

end ProtoIceberg
