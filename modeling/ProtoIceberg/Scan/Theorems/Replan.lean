import ProtoIceberg.Scan.Theorems.Pushdown
import ProtoIceberg.Scan.Theorems.Widening

namespace ProtoIceberg

namespace TableFilterSet

variable {f g : TableFilter} {fs : List TableFilter} {existing : Option TableFilter}

theorem collapses_conjoin_iff : (conjoin f g).Collapses ↔ f.Collapses ∧ g.Collapses := by
  have hand {fs : List TableFilter} :
      (TableFilter.conjunctionAnd fs).Collapses ↔ ∀ f ∈ fs, f.Collapses :=
    ⟨TableFilter.Collapses.of_and, .conjunctionAnd⟩
  rw [conjoin.eq_def]
  split
  case h_1 fs => simp [hand, or_imp, forall_and]
  case h_2    => simp [hand]

theorem sizeOf_lt_conjoin : sizeOf f < sizeOf (conjoin f g) ∧ sizeOf g < sizeOf (conjoin f g) := by
  have happend (fs : List TableFilter) :
      sizeOf fs < sizeOf (fs ++ [g]) ∧ sizeOf g < sizeOf (fs ++ [g]) := by
    induction fs
    case nil => simp +arith
    case cons f fs ih =>
      simp
      omega
  rw [conjoin.eq_def]
  split
  case h_1 fs =>
    have := happend fs
    simp
    omega
  case h_2    => simp +arith

-- What becomes of a column's filter when others are pushed.
def joinAll (existing : Option TableFilter) (fs : List TableFilter) : Option TableFilter :=
  fs.foldl (fun existing f => some ((existing.map (conjoin · f)).getD f)) existing

theorem getElem?_foldl_pushFilter {set : TableFilterSet} {fs : List (Nat × TableFilter)} {i : Nat} :
    (fs.foldl (fun set (j, f) => set.pushFilter j f) set).filters[i]? =
      joinAll set.filters[i]? ((fs.filter (·.1 = i)).map Prod.snd) := by
  induction fs generalizing set
  case nil => rfl
  case cons p fs ih =>
    rw [List.foldl_cons, ih, getElem?_pushFilter]
    by_cases h : p.1 = i <;> simp [h, joinAll]

theorem collapses_joinAll_iff : (∀ g ∈ joinAll existing fs, g.Collapses) ↔
    (∀ g ∈ existing, g.Collapses) ∧ ∀ f ∈ fs, f.Collapses := by
  induction fs generalizing existing
  case nil => simp [joinAll]
  case cons f fs ih =>
    refine ih.trans ?_
    rw [List.forall_mem_cons, ← and_assoc]
    refine and_congr_left' ?_
    cases existing <;> simp [collapses_conjoin_iff]

theorem le_sizeOf_joinAll {n : Nat} (h : (∃ g ∈ existing, n ≤ sizeOf g) ∨ ∃ f ∈ fs, n ≤ sizeOf f) :
    ∃ g ∈ joinAll existing fs, n ≤ sizeOf g := by
  induction fs generalizing existing
  case nil => simpa [joinAll] using h
  case cons f fs ih =>
    apply ih
    simp only [List.mem_cons, exists_eq_or_imp] at h
    rcases h with ⟨g, hg, hn⟩ | hn | hn
    case inl     =>
      cases hg
      exact .inl ⟨_, rfl, hn.trans sizeOf_lt_conjoin.left.le⟩
    case inr.inl =>
      refine .inl ⟨_, rfl, hn.trans ?_⟩
      cases existing
      case none   => exact le_rfl
      case some g => exact sizeOf_lt_conjoin.right.le
    case inr.inr => exact .inr hn

-- A conjunction is larger than its parts.
theorem sizeOf_lt_joinAll {x : TableFilter} (hfs : fs ≠ []) (hf : f = x ∨ f ∈ fs) :
    ∃ g ∈ joinAll (some x) fs, sizeOf f < sizeOf g := by
  induction fs generalizing x
  case nil => exact absurd rfl hfs
  case cons y fs ih =>
    change ∃ g ∈ joinAll (some (conjoin x y)) fs, sizeOf f < sizeOf g
    rw [List.mem_cons] at hf
    rcases hf with hf | hf | hf
    case inl     =>
      subst hf
      exact le_sizeOf_joinAll <| .inl ⟨_, rfl, sizeOf_lt_conjoin.left⟩
    case inr.inl =>
      subst hf
      exact le_sizeOf_joinAll <| .inl ⟨_, rfl, sizeOf_lt_conjoin.right⟩
    case inr.inr => exact ih (List.ne_nil_of_mem hf) (.inr hf)

theorem joinAll_ne_some {x : TableFilter} (hfs : fs ≠ []) (hf : f = x ∨ f ∈ fs) :
    joinAll (some x) fs ≠ some f := by
  intro h
  have ⟨g, hg, hlt⟩ := sizeOf_lt_joinAll hfs hf
  cases h.symm.trans hg
  exact lt_irrefl _ hlt

theorem joinAll_cons_eq_some {x : TableFilter} :
    ∃ n, joinAll none (x :: fs) = some n ∧ ∀ f ∈ x :: fs, sizeOf f ≤ sizeOf n := by
  have hbound (f) (hf : f ∈ x :: fs) :
      ∃ g ∈ joinAll none (x :: fs), sizeOf f ≤ sizeOf g :=
    le_sizeOf_joinAll <| .inr ⟨f, hf, le_rfl⟩
  have ⟨n, hn, _⟩ := hbound x List.mem_cons_self
  refine ⟨n, hn, fun f hf => ?_⟩
  have ⟨g, hg, hle⟩ := hbound f hf
  cases hn.symm.trans hg
  exact hle

theorem joinAll_none_joinAll {x : TableFilter} :
    joinAll none (joinAll none (x :: fs)).toList = joinAll (some x) fs := by
  have ⟨n, hn, _⟩ := @joinAll_cons_eq_some fs x
  rw [hn]
  exact hn.symm

-- A filter is found again unless it has become part of a conjunction.
theorem joinAll_eq_some_iff {stored : Option TableFilter} {p : TableFilter → Bool}
    (hp : ∀ g, p g ↔ stored = some g) (hf : f ∈ fs) :
    joinAll stored (joinAll none (fs.filter (!p ·))).toList = some f ↔
      (stored = some f ∧ ∀ g ∈ fs, g = f) ∨ (stored = none ∧ fs = [f]) := by
  cases stored
  case none =>
    have hfilter : fs.filter (!p ·) = fs := by
      rw [List.filter_eq_self]
      exact fun g _ => by simpa using (hp g).not.mpr nofun
    rw [hfilter]
    cases fs
    case nil => exact nomatch hf
    case cons x fs =>
      rw [joinAll_none_joinAll]
      cases fs
      case nil       => simp [joinAll]
      case cons y fs =>
        have := joinAll_ne_some (List.cons_ne_nil y fs) (List.mem_cons.mp hf)
        simpa using this
  case some x =>
    cases hnew : fs.filter (!p ·)
    case nil =>
      have hsame : ∀ g ∈ fs, x = g := by simpa [hp] using hnew
      cases hsame f hf
      simpa [joinAll] using fun g hg => (hsame g hg).symm
    case cons y ys =>
      have hnew {g : TableFilter} : g ∈ y :: ys ↔ g ∈ fs ∧ g ≠ x := by
        rw [← hnew, List.mem_filter, Bool.not_eq_true', ← Bool.not_eq_true, hp, Option.some.injEq,
          eq_comm]
      have ⟨n, hn, hle⟩ := @joinAll_cons_eq_some ys y
      rw [hn]
      refine iff_of_false ?_ ?_
      case refine_1 =>
        by_cases hx : f = x
        case pos => exact joinAll_ne_some (List.cons_ne_nil n []) (.inl hx)
        case neg =>
          intro h
          cases h
          exact absurd (hle _ <| hnew.mpr ⟨hf, hx⟩) sizeOf_lt_conjoin.right.not_ge
      case refine_2 =>
        intro h
        cases h
        case inr h => exact nomatch h.left
        case inl h =>
          have ⟨hy, hne⟩ := hnew.mp List.mem_cons_self
          cases h.left
          exact hne <| h.right y hy

theorem map_snd_filter_toList {set : TableFilterSet} {i : Nat} :
    (set.filters.toList.filter (·.1 = i)).map Prod.snd = set.filters[i]?.toList := by
  refine List.map_snd_filter_fst ?_ fun f => Std.ExtTreeMap.mem_toList_iff_getElem?_eq_some
  exact set.filters.distinct_keys_toList.imp fun hne he => hne <| Std.compare_eq_iff_eq.mpr he

end TableFilterSet

-- DuckDB copies filters as they are and compares them structurally.
structure TableFilter.Methods.Structural (methods : Methods) : Prop where
  copy_eq    : ∀ f, methods.copy f = f
  equals_iff : ∀ f g, methods.equals f g ↔ f = g

namespace MultiFileList

open TableFilterSet

-- The dynamic filters on a column, in the order that they are pushed in.
def incoming (columnIds : List Nat) (filters : TableFilterSet) (columnId : Nat) : List TableFilter :=
  filters.filters.toList.filterMap fun (filterIdx, filter) =>
    if scannedColumn columnIds filterIdx = some columnId then some filter else none

-- Whether all filters that can prune are pushed already.
def Ignores (list : MultiFileList) (columnIds : List Nat) (filters : TableFilterSet) : Prop :=
  ∀ i < list.scanInfo.schema.fields.length, ∀ f ∈ incoming columnIds filters i, ¬f.Collapses →
    list.tableFilters.filters[i]? = some f

-- Whether no filter that can prune has to share its column with another filter.
def Settles (list : MultiFileList) (columnIds : List Nat) (filters : TableFilterSet) : Prop :=
  ∀ i < list.scanInfo.schema.fields.length, ∀ f ∈ incoming columnIds filters i, ¬f.Collapses →
    (list.tableFilters.filters[i]? = some f ∧ ∀ g ∈ incoming columnIds filters i, g = f) ∨
    (list.tableFilters.filters[i]? = none ∧ incoming columnIds filters i = [f])

variable {methods : TableFilter.Methods} {list : MultiFileList} {columnIds : List Nat}
  {set src filters : TableFilterSet} {i : Nat}

section

variable (hm : methods.Structural)

include hm

theorem isPushed_iff {f : TableFilter} :
    list.isPushed methods i f ↔ list.tableFilters.filters[i]? = some f := by
  rw [isPushed, Option.any_eq_true]
  simp only [hm.equals_iff]
  constructor
  case mp  => exact fun ⟨_, hg, he⟩ => he ▸ hg
  case mpr => exact fun h => ⟨f, h, rfl⟩

theorem getElem?_append :
    (append methods set src).filters[i]? = joinAll set.filters[i]? src.filters[i]?.toList := by
  rw [append, ← map_snd_filter_toList, ← getElem?_foldl_pushFilter]
  simp only [hm.copy_eq]

theorem getElem?_createFilteredList :
    (list.createFilteredList methods set).tableFilters.filters[i]? =
      joinAll list.tableFilters.filters[i]? set.filters[i]?.toList := by
  have hcopy : (append methods .empty list.tableFilters).filters[i]? =
      list.tableFilters.filters[i]? := by
    rw [getElem?_append hm]
    cases list.tableFilters.filters[i]? <;> simp [joinAll, TableFilterSet.empty]
  rw [createFilteredList, getElem?_append hm, hcopy]

theorem getElem?_pushNewFilter {filterIdx : Nat} {filter : TableFilter} :
    (list.pushNewFilter methods columnIds set (filterIdx, filter)).filters[i]? =
      joinAll set.filters[i]?
        ((if scannedColumn columnIds filterIdx = some i then some filter else none).toList.filter
          (!list.isPushed methods i ·)) := by
  rw [pushNewFilter]
  cases scannedColumn columnIds filterIdx
  case none          => rfl
  case some columnId =>
    by_cases hi : columnId = i
    case pos =>
      subst hi
      cases h : list.isPushed methods columnId filter <;>
        simp [h, getElem?_pushFilter, joinAll, hm.copy_eq]
    case neg =>
      dsimp only
      split <;> simp [hi, getElem?_pushFilter, joinAll]

theorem getElem?_newFilters : (list.newFilters methods columnIds filters).filters[i]? =
    joinAll none ((incoming columnIds filters i).filter (!list.isPushed methods i ·)) := by
  have go (fs : List (Nat × TableFilter)) (acc : TableFilterSet) :
      (fs.foldl (list.pushNewFilter methods columnIds) acc).filters[i]? =
        joinAll acc.filters[i]? ((fs.filterMap fun (filterIdx, filter) =>
          if scannedColumn columnIds filterIdx = some i then some filter else none).filter
            (!list.isPushed methods i ·)) := by
    induction fs generalizing acc
    case nil          => rfl
    case cons p fs ih =>
      rw [List.foldl_cons, ih, getElem?_pushNewFilter hm, List.filterMap_cons_append,
        List.filter_append, joinAll, joinAll, joinAll, ← List.foldl_append]
  exact go _ _

-- The filters that a pushdown adds are found again if they have their columns to themselves.
theorem ignores_createFilteredList_iff :
    (list.createFilteredList methods (list.newFilters methods columnIds filters)).Ignores columnIds
      filters ↔ list.Settles columnIds filters := by
  refine forall₂_congr fun i _ => forall₃_congr fun f hf _ => ?_
  rw [getElem?_createFilteredList hm, getElem?_newFilters hm]
  exact joinAll_eq_some_iff (fun _ => isPushed_iff hm) hf

end

section

variable {ε : Type*} [Expressions ε] (folds : Expressions.Folds ε)

include folds

theorem canPrunePlanning_of_isEmpty {schema : Schema} (h : set.isEmpty) :
    canPrunePlanning ε set schema = false := by
  rw [canPrunePlanning_eq_false_iff folds]
  intro i f hf
  rw [← Std.ExtTreeMap.mem_toList_iff_getElem?_eq_some,
    Expressions.Semantics.toList_of_isEmpty h] at hf
  exact nomatch hf

-- The null returns are those for filters that can not prune.
theorem dynamicFilterPushdown_eq :
    list.dynamicFilterPushdown methods ε columnIds filters =
      let newFilters := list.newFilters methods columnIds filters
      if canPrunePlanning ε newFilters list.scanInfo.schema then
        some (list.createFilteredList methods newFilters)
      else
        none := by
  have hnone (h : (list.newFilters methods columnIds filters).isEmpty) :=
    @canPrunePlanning_of_isEmpty _ ε _ folds list.scanInfo.schema h
  rw [dynamicFilterPushdown]
  cases hf : filters.isEmpty
  case true  =>
    have hempty : (list.newFilters methods columnIds filters).isEmpty := by
      rw [newFilters, Expressions.Semantics.toList_of_isEmpty hf]
      rfl
    simp [hnone hempty]
  case false => simpa using hnone

variable (hm : methods.Structural)

include hm

theorem dynamicFilterPushdown_eq_none_iff :
    list.dynamicFilterPushdown methods ε columnIds filters = none ↔
      list.Ignores columnIds filters := by
  have hcolumn (i : Nat) : (∀ f, (list.newFilters methods columnIds filters).filters[i]? = some f →
      f.Collapses) ↔ ∀ f ∈ incoming columnIds filters i, ¬f.Collapses →
        list.tableFilters.filters[i]? = some f := by
    rw [getElem?_newFilters hm]
    refine collapses_joinAll_iff.trans ?_
    simp only [Option.mem_def, reduceCtorEq, false_imp_iff, implies_true, true_and, List.mem_filter,
      Bool.not_eq_true', ← Bool.not_eq_true, isPushed_iff hm, and_imp, not_imp_comm]
  rw [dynamicFilterPushdown_eq folds]
  dsimp only
  rw [ite_eq_right_iff]
  simp only [reduceCtorEq, imp_false, Bool.not_eq_true, canPrunePlanning_eq_false_iff folds]
  exact ⟨fun h i hi => (hcolumn i).mp fun f hf => h i f hf hi,
    fun h i f hf hi => (hcolumn i).mpr (h i hi) f hf⟩

theorem dynamicFilterPushdown_twice_iff :
    (∀ list', list.dynamicFilterPushdown methods ε columnIds filters = some list' →
      list'.dynamicFilterPushdown methods ε columnIds filters = none) ↔
    list.Ignores columnIds filters ∨ list.Settles columnIds filters := by
  have hnone := @dynamicFilterPushdown_eq_none_iff methods list columnIds filters ε _ folds hm
  by_cases h : list.Ignores columnIds filters
  case pos => simp [hnone.mpr h, h]
  case neg =>
    have hsome : list.dynamicFilterPushdown methods ε columnIds filters =
        some (list.createFilteredList methods (list.newFilters methods columnIds filters)) := by
      have hne := mt hnone.mp h
      rw [dynamicFilterPushdown_eq folds] at hne ⊢
      exact if_pos <| by_contra fun hprune => hne <| if_neg hprune
    rw [or_iff_right h, ← ignores_createFilteredList_iff hm, hsome]
    simp only [Option.some.injEq, forall_eq', dynamicFilterPushdown_eq_none_iff folds hm]

end

end MultiFileList

open MultiFileList

-- A list recognises the filters that were pushed into it unless they have become part of a
-- conjunction.
theorem dynamic_pushdown_settles_iff {ε : Type*} [Expressions ε] {φ : Type}
    (folds : Expressions.Folds ε) (methods : TableFilter.Methods) (hm : methods.Structural)
    (scanInfo : ScanInfo) (pushdowns : List (Pushdown φ)) (columnIds : List Nat)
    (filters : TableFilterSet) :
    let list := (machine methods ε scanInfo).run (create scanInfo) pushdowns
    (∀ list', list.dynamicFilterPushdown methods ε columnIds filters = some list' →
      list'.dynamicFilterPushdown methods ε columnIds filters = none) ↔
    list.Ignores columnIds filters ∨ list.Settles columnIds filters :=
  dynamicFilterPushdown_twice_iff folds hm

theorem TableFilter.Methods.structural_structural : structural.Structural where
  copy_eq _      := rfl
  equals_iff f g := by simp [structural]

namespace Shop

def below9 : TableFilter :=
  .constantComparison .compareLessThan (.double 0x4022000000000000)

theorem below9_prunes : ¬below9.Collapses := by
  have prunes {v : Ieee.binary64.Bits} (h : ¬(v.isNaN ∨ v.isZero)) :
      ¬(TableFilter.constantComparison .compareLessThan (.double v)).Collapses
    | .untranslatable (.constant _ (.double h')) => h h'
  exact prunes (by decide +kernel)

end Shop

-- The first filter on a column is recognised.
theorem dynamic_pushdown_settles_iff_prices :
    let list := (machine (φ := Unit) .structural Expression Shop.prices).run (create Shop.prices) []
    let filters := TableFilterSet.empty.pushFilter 0 Shop.below9
    ∀ list', list.dynamicFilterPushdown .structural Expression [0] filters = some list' →
      list'.dynamicFilterPushdown .structural Expression [0] filters = none := by
  intro list filters
  refine (dynamic_pushdown_settles_iff (φ := Unit) Expression.folds .structural
    TableFilter.Methods.structural_structural Shop.prices [] [0] filters).mpr (.inr ?_)
  have hincoming : incoming [0] filters 0 = [Shop.below9] := rfl
  intro i hi f hf _
  have hi : i = 0 := Nat.lt_one_iff.mp hi
  subst hi
  rw [hincoming, List.mem_singleton] at hf
  exact .inr ⟨rfl, by rw [hincoming, hf]⟩

-- The pushed filter is merged with the one that its column already has, so it is pushed again.
theorem dynamic_pushdown_replans_second_filter :
    let pushdowns : List (Pushdown Unit) :=
      [.complex (fun _ => TableFilterSet.empty.pushFilter 0 .isNotNull) [()]]
    let list := (machine .structural Expression Shop.prices).run (create Shop.prices) pushdowns
    let filters := TableFilterSet.empty.pushFilter 0 Shop.below9
    ¬∀ list', list.dynamicFilterPushdown .structural Expression [0] filters = some list' →
      list'.dynamicFilterPushdown .structural Expression [0] filters = none := by
  intro pushdowns list filters
  have hstored : list.tableFilters.filters[0]? = some .isNotNull := rfl
  have hincoming : Shop.below9 ∈ incoming [0] filters 0 := List.mem_singleton.mpr rfl
  rw [dynamicFilterPushdown_twice_iff Expression.folds TableFilter.Methods.structural_structural]
  intro h
  cases h
  case inl h => exact nomatch hstored.symm.trans (h 0 Nat.one_pos _ hincoming Shop.below9_prunes)
  case inr h =>
    cases h 0 Nat.one_pos _ hincoming Shop.below9_prunes
    case inl h => exact nomatch hstored.symm.trans h.left
    case inr h => exact nomatch hstored.symm.trans h.left

end ProtoIceberg
