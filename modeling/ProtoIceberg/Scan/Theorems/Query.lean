import ProtoIceberg.Scan.Theorems.Plan
import ProtoIceberg.Snapshot.Theorems.Consistent

namespace ProtoIceberg

-- The rows of a table, by the columns of the schema that they are read with: those of a data file,
-- those that a task's delete files leave of it, and those of a snapshot.
structure TableRows where
  scanned : Schema → Manifest.DataFile → List Row
  live    : Schema → FileScanTask → List Row
  rows    : Schema → TableIdentifier → Option Int → List Row

def Row.HasNaN (row : Row) : Prop :=
  ∃ i, ∃ d ∈ row i, d.isNaN

-- What is relied on of Iceberg's scans: without a filter they have all rows of the snapshot, and a
-- filter only leaves out files of which it keeps no row. Metrics say nothing about NaN.
structure TableScans.Lawful {ε : Type*} [Expressions ε] (scans : TableScans ε)
    (sem : Expressions.Semantics ε) (contents : TableRows) : Prop where
  whole : ∀ {table useSnapshot schema tasks}, table.schemaOf useSnapshot = .ok schema →
    scans.planFiles table useSnapshot none = .ok tasks →
    tasks.flatMap (contents.live schema) =
      contents.rows schema table.name (useSnapshot <|> table.currentSnapshot)
  filtered : ∀ {table useSnapshot schema tasks e}, table.schemaOf useSnapshot = .ok schema →
    scans.planFiles table useSnapshot (some e) = .ok tasks →
    ∃ all keep, scans.planFiles table useSnapshot none = .ok all ∧ tasks = all.filter keep ∧
      ∀ task ∈ all, ¬keep task → ∀ row ∈ contents.live schema task, ¬row.HasNaN →
        ¬sem.eval e (schema.environment row)
  undeleted : ∀ {schema task}, task.deleteFiles = [] →
    contents.live schema task = contents.scanned schema task.dataFile

theorem ScanInfo.snapshot_eq {info : ScanInfo} :
    info.snapshot = (info.mode.useSnapshot <|> info.table.currentSnapshot) := by
  rw [ScanInfo.snapshot]
  cases info.mode <;> rfl

namespace MultiFileList

variable {ε : Type*} [Expressions ε] {φ : Type} {sem : Expressions.Semantics ε}
  {methods : TableFilter.Methods} {u : Unsupported} {scans : TableScans ε} {contents : TableRows}
  {list : MultiFileList} {plan : ScanPlan} {row : Row} {schema : Schema}
  {pushdowns : List (Pushdown φ)}

-- Whether DuckDB keeps a row after all filters that it has supplied.
def Matches (u : Unsupported) (pushdowns : List (Pushdown φ)) (row : Row) : Prop :=
  ∀ pushdown ∈ pushdowns, ∀ f ∈ pushdown.supplied,
    f.2.eval u ((row f.1).map Datum.toValue) = .true

theorem Matches.passes (h : Matches u pushdowns row) (hn : ¬row.HasNaN) :
    ∀ pushdown ∈ pushdowns, ∀ f ∈ pushdown.supplied,
      sem.Passes schema (schema.environment row) f := by
  intro pushdown hp f hf field hfield
  have he := schema.environment_field row hfield
  apply sem.eval_translateOrWidenFilter (u := u) f.2
  case hn => exact fun d hd hnan => hn ⟨f.1, d, he ▸ hd, hnan⟩
  case h  => exact he ▸ h pushdown hp f hf

-- The rows to which DuckDB's filters apply satisfy the expression that files are planned with.
theorem Matches.planFilter {info : ScanInfo} (h : Matches u pushdowns row)
    (hm : methods.Lawful sem)
    (hop : ∀ (e : ε) env, Expressions.op e = .true → sem.eval e env) (hn : ¬row.HasNaN) :
    ∀ e ∈ ((machine methods ε info).run (create info) pushdowns).planFilter ε,
      sem.eval e (info.schema.environment row) := by
  have hinfo : ((machine methods ε info).run (create info) pushdowns).scanInfo = info :=
    run_scanInfo
  rw [eval_planFilter, hinfo]
  exact (eval_run hm hop rfl).mpr ⟨Expressions.Semantics.eval_empty, h.passes hn⟩

theorem scanned_planned {tasks : List FileScanTask} (hs : scans.Lawful sem contents)
    (ht : ∀ task ∈ tasks, task.Readable) :
    (tasks.map FileScanTask.dataFile).flatMap (contents.scanned schema) =
      tasks.flatMap (contents.live schema) := by
  rw [List.flatMap_map]
  exact List.flatMap_congr fun task htask => (hs.undeleted (ht task htask).left).symm

theorem planned_of_ok (h : list.planFiles scans = .ok plan) : ∃ tasks,
    scans.planFiles list.scanInfo.table list.scanInfo.mode.useSnapshot (list.planFilter ε) =
      .ok tasks ∧ (∀ task ∈ tasks, task.Readable) ∧
    plan.dataFiles = tasks.map FileScanTask.dataFile := by
  have hplan := @planFiles_outcome _ _ scans list
  rw [h] at hplan
  cases hplan
  case planned tasks hs ht => exact ⟨tasks, hs, ht, rfl⟩

open Classical in
theorem filter_planned {info : ScanInfo} (hm : methods.Lawful sem)
    (hop : ∀ (e : ε) env, Expressions.op e = .true → sem.eval e env) (hs : scans.Lawful sem contents)
    (hi : info.Resolved)
    (hplan : ((machine methods ε info).run (create info) pushdowns).planFiles scans = .ok plan) :
    let found (row : Row) : Bool := Matches u pushdowns row ∧ ¬row.HasNaN
    (plan.dataFiles.flatMap (contents.scanned info.schema)).filter found =
      (contents.rows info.schema info.table.name info.snapshot).filter found := by
  intro found
  have hinfo : ((machine methods ε info).run (create info) pushdowns).scanInfo = info :=
    run_scanInfo
  obtain ⟨tasks, htasks, hread, hfiles⟩ := planned_of_ok hplan
  rw [hinfo] at htasks
  rw [hfiles, scanned_planned hs hread, info.snapshot_eq]
  cases hfilter : ((machine methods ε info).run (create info) pushdowns).planFilter ε
  case none =>
    rw [hfilter] at htasks
    rw [hs.whole hi htasks]
  case some e =>
    rw [hfilter] at htasks
    obtain ⟨all, keep, hall, hkeep, hdropped⟩ := hs.filtered hi htasks
    rw [← hs.whole hi hall, hkeep]
    apply List.filter_flatMap_filter
    intro task htask hk row hrow hfound
    obtain ⟨hmatches, hn⟩ : Matches u pushdowns row ∧ ¬row.HasNaN := by simpa [found] using hfound
    apply hdropped task htask hk row hrow hn
    exact hmatches.planFilter hm hop hn e hfilter

end MultiFileList

open MultiFileList

open Classical in
-- However filters are pushed down, the planned files have all rows of the snapshot that the filters keep.
theorem planned_files_have_matching_rows {ε : Type*} [Expressions ε] {φ : Type}
    (sem : Expressions.Semantics ε) (methods : TableFilter.Methods) (hm : methods.Lawful sem)
    (hop : ∀ (e : ε) env, Expressions.op e = .true → sem.eval e env) (u : Unsupported)
    (scans : TableScans ε) (contents : TableRows) (hs : scans.Lawful sem contents)
    (info : ScanInfo) (hi : info.Resolved) (pushdowns : List (Pushdown φ)) (plan : ScanPlan)
    (hplan : ((machine methods ε info).run (create info) pushdowns).planFiles scans = .ok plan) :
    let found (row : Row) : Bool := Matches u pushdowns row ∧ ¬row.HasNaN
    (plan.dataFiles.flatMap (contents.scanned info.schema)).filter found =
      (contents.rows info.schema info.table.name info.snapshot).filter found :=
  filter_planned hm hop hs hi hplan

namespace Shop

-- A row of the table of prices.
def priced (bits : Ieee.binary64.Bits) : Row
  | 0 => some (.primitive (.double bits))
  | _ => none

-- A file of each of the prices 1.0 and 7.0.
def priceFile (name : String) : Manifest.DataFile where
  filePath        := s!"s3://shop/prices/{name}.parquet"
  fileFormat      := .parquet
  recordCount     := 1
  fileSizeInBytes := 400

def priceTasks : List FileScanTask := [
  { dataFile := priceFile "low", deleteFiles := [] },
  { dataFile := priceFile "high", deleteFiles := [] }
]

def priceRows (_ : Schema) (df : Manifest.DataFile) : List Row :=
  if df = priceFile "low" then [priced 0x3FF0000000000000] else [priced 0x401C000000000000]

def priceContents : TableRows where
  scanned            := priceRows
  live schema task   := priceRows schema task.dataFile
  rows schema _ _    := priceTasks.flatMap fun task => priceRows schema task.dataFile

-- Skips the files that have no row to keep.
def priceScans : TableScans Expression where
  planFiles table useSnapshot filter := do
    let schema ← table.schemaOf useSnapshot
    return priceTasks.filter fun task => filter.all fun e =>
      (priceRows schema task.dataFile).any fun row => e.eval (schema.environment row)

theorem priceScans_lawful : priceScans.Lawful Expression.semantics priceContents where
  undeleted _ := rfl
  whole hschema htasks := by
    simp only [priceScans, hschema] at htasks
    cases htasks
    rfl
  filtered {table useSnapshot schema tasks e} hschema htasks := by
    simp only [priceScans, hschema] at htasks ⊢
    cases htasks
    refine ⟨priceTasks, _, rfl, rfl, ?_⟩
    intro task _ hk row hrow _ heval
    exact hk <| List.any_eq_true.mpr ⟨row, hrow, heval⟩

end Shop

open Classical in
theorem planned_files_have_matching_rows_prices :
    let above5 := TableFilterSet.empty.pushFilter 0
      (.constantComparison .compareGreaterThan (.double 0x4014000000000000))
    let pushdowns : List (Pushdown Unit) := [.complex (fun _ => above5) [()]]
    let found (row : Row) : Bool :=
      Matches ⟨fun _ _ _ => .unknown, fun _ _ => .unknown⟩ pushdowns row ∧ ¬row.HasNaN
    ([Shop.priceFile "high"].flatMap (Shop.priceRows Shop.prices.schema)).filter found =
      (Shop.priceContents.rows Shop.prices.schema Shop.prices.table.name none).filter found := by
  intro above5 pushdowns found
  refine planned_files_have_matching_rows Expression.semantics .structural
    TableFilter.Methods.structural_lawful (fun _ _ => Expression.eval_of_op_true) _ Shop.priceScans
    Shop.priceContents Shop.priceScans_lawful Shop.prices rfl pushdowns
    { dataFiles := [Shop.priceFile "high"], totalRecordCount := 1 } ?_
  rfl

open Classical in
-- Whether all scans of a table that has been loaded find the rows of one snapshot that it shows.
def Transaction.Queries {ε : Type*} [Expressions ε] (φ : Type) (methods : TableFilter.Methods)
    (u : Unsupported) (scans : TableScans ε) (contents : TableRows)
    (shows : TableIdentifier → Option Int → Prop) (txn : Transaction) : Prop :=
  ∀ (r : Nat) e, txn.heap[r]? = some e → ∀ entry ∈ e.tables.entries, ∀ info ∈ entry.scanInfo,
    ∃ snapshot, shows (getTableIdentifier e.name entry.name) snapshot ∧
      ∀ (pushdowns : List (Pushdown φ)) plan,
        let list := (MultiFileList.machine methods ε info).run (.create info) pushdowns
        let found (row : Row) : Bool := Matches u pushdowns row ∧ ¬row.HasNaN
        list.planFiles scans = .ok plan →
          (plan.dataFiles.flatMap (contents.scanned info.schema)).filter found =
            (contents.rows info.schema info.table.name snapshot).filter found

-- Pushing filters down leaves what a transaction reads.
theorem Transaction.ReadsFrom.queries {ε : Type*} [Expressions ε] {φ : Type}
    {sem : Expressions.Semantics ε} {methods : TableFilter.Methods} (hm : methods.Lawful sem)
    (hop : ∀ (e : ε) env, Expressions.op e = .true → sem.eval e env) {u : Unsupported}
    {scans : TableScans ε} {contents : TableRows} (hs : scans.Lawful sem contents)
    {shows : TableIdentifier → Option Int → Prop} {txn : Transaction} (h : txn.ReadsFrom shows) :
    txn.Queries φ methods u scans contents shows := by
  intro r e he entry hentry info hinfo
  obtain ⟨hshows, _, hi⟩ := h r e he entry hentry info hinfo
  refine ⟨info.snapshot, hshows, ?_⟩
  intro pushdowns plan list found hplan
  exact filter_planned hm hop hs hi hplan

end ProtoIceberg
