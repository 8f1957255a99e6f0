import ProtoIceberg.Conversion.Translate
import ProtoIceberg.Extensions.Machine
import ProtoIceberg.Objects.Table

open ProtoIceberg.Expressions

namespace ProtoIceberg

-- The methods of DuckDB's filters.
structure TableFilter.Methods where
  copy   : TableFilter → TableFilter
  equals : TableFilter → TableFilter → Bool

-- DuckDB's IDs of virtual columns start here.
def virtualColumnStart : Nat := 2 ^ 63

def isVirtualColumn (columnId : Nat) : Bool :=
  virtualColumnStart ≤ columnId

-- The column that a dynamic filter is on, if it is not a virtual one.
def scannedColumn (columnIds : List Nat) (filterIdx : Nat) : Option Nat :=
  columnIds[filterIdx]?.filter (!isVirtualColumn ·)

def TableFilterSet.isEmpty (set : TableFilterSet) : Bool :=
  set.filters.isEmpty

-- Collects the filters that `generateTableScanFilters` makes of DuckDB's expressions.
def buildTableFilterSet {φ : Type} (generateTableScanFilters : List φ → TableFilterSet)
    (filters : List φ) : Option TableFilterSet :=
  if filters.isEmpty then
    none
  else
    let filterSet := generateTableScanFilters filters
    if filterSet.isEmpty then none else some filterSet

section

variable (ε : Type*) [Expressions ε]

-- Whether planning with the filters can prune files.
def canPrunePlanning (filters : TableFilterSet) (schema : Schema) : Bool :=
  op (translateOrWidenFilters filters schema : ε) ≠ .true

end

structure MultiFileList where
  scanInfo     : ScanInfo
  tableFilters : TableFilterSet

namespace MultiFileList

def create (scanInfo : ScanInfo) : MultiFileList where
  scanInfo     := scanInfo
  tableFilters := .empty

-- The expression that the files are planned with. Without filters there is none.
def planFilter (ε : Type*) [Expressions ε] (list : MultiFileList) : Option ε :=
  if list.tableFilters.isEmpty then
    none
  else
    some (translateOrWidenFilters list.tableFilters list.scanInfo.schema)

variable (methods : TableFilter.Methods)

def append (combined src : TableFilterSet) : TableFilterSet :=
  src.filters.toList.foldl
    (fun combined (colId, filter) => combined.pushFilter colId (methods.copy filter)) combined

def createFilteredList (list : MultiFileList) (newFilters : TableFilterSet) : MultiFileList where
  scanInfo     := list.scanInfo
  tableFilters := append methods (append methods .empty list.tableFilters) newFilters

-- Whether the filter is already pushed down on the column.
def isPushed (list : MultiFileList) (columnId : Nat) (filter : TableFilter) : Bool :=
  list.tableFilters.filters[columnId]?.any (methods.equals filter)

def pushNewFilter (list : MultiFileList) (columnIds : List Nat) (newFilters : TableFilterSet) :
    Nat × TableFilter → TableFilterSet
  | (filterIdx, filter) =>
    match scannedColumn columnIds filterIdx with
    | none          => newFilters
    | some columnId =>
      if list.isPushed methods columnId filter then
        newFilters
      else
        newFilters.pushFilter columnId (methods.copy filter)

def newFilters (list : MultiFileList) (columnIds : List Nat) (filters : TableFilterSet) :
    TableFilterSet :=
  filters.filters.toList.foldl (list.pushNewFilter methods columnIds) .empty

variable (ε : Type*) [Expressions ε]

-- `none` stands for a null return, which keeps the current list.
def complexFilterPushdown {φ : Type} (list : MultiFileList)
    (generateTableScanFilters : List φ → TableFilterSet) (filters : List φ) : Option MultiFileList :=
  match buildTableFilterSet generateTableScanFilters filters with
  | none           => none
  | some filterSet =>
    if canPrunePlanning ε filterSet list.scanInfo.schema then
      some (list.createFilteredList methods filterSet)
    else
      none

def dynamicFilterPushdown (list : MultiFileList) (columnIds : List Nat) (filters : TableFilterSet) :
    Option MultiFileList :=
  if filters.isEmpty then
    none
  else
    let newFilters := list.newFilters methods columnIds filters
    if newFilters.isEmpty then
      none
    else if canPrunePlanning ε newFilters list.scanInfo.schema then
      some (list.createFilteredList methods newFilters)
    else
      none

-- A pushdown of filters. The filters of a complex one are DuckDB's expressions, which come with what
-- is generated from them.
inductive Pushdown (φ : Type)
  | complex (generateTableScanFilters : List φ → TableFilterSet) (filters : List φ)
  | dynamic (columnIds : List Nat) (filters : TableFilterSet)

variable {φ : Type}

def pushdown (list : MultiFileList) : Pushdown φ → Option MultiFileList
  | .complex generate filters   => list.complexFilterPushdown methods ε generate filters
  | .dynamic columnIds filters  => list.dynamicFilterPushdown methods ε columnIds filters

def machine (scanInfo : ScanInfo) :
    Machine MultiFileList (Pushdown φ) (Option MultiFileList) where
  init := create scanInfo
  step list pushdown :=
    let pushed := list.pushdown methods ε pushdown
    (pushed, pushed.getD list)

end MultiFileList

end ProtoIceberg
