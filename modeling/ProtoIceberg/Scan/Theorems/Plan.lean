import Mathlib.Data.UInt
import ProtoIceberg.Conversion.Theorems.Sound
import ProtoIceberg.Scan.Plan
import ProtoIceberg.Scan.Theorems.Pushdown

namespace ProtoIceberg

-- Whether the extension can read what a task scans.
def FileScanTask.Readable (task : FileScanTask) : Prop :=
  task.deleteFiles = [] ∧ task.dataFile.fileFormat = .parquet

-- What the extension says about a task that it can not read.
def FileScanTask.refusal (table : Table) (task : FileScanTask) : String :=
  if task.deleteFiles ≠ [] then
    "Reading delete files is not yet supported"
  else
    s!"Only Parquet data files are supported; table '{table.name.toString}' contains " ++
      s!"'{task.dataFile.fileFormat.toString}' files"

-- The plan that also has the data files of the tasks.
def ScanPlan.extend (plan : ScanPlan) (tasks : List FileScanTask) : ScanPlan where
  dataFiles        := plan.dataFiles ++ tasks.map FileScanTask.dataFile
  totalRecordCount := plan.totalRecordCount + (tasks.map (·.dataFile.recordCount.toUInt64)).sum

-- Record counts are added up as unsigned integers.
theorem toNat_sum_toUInt64 {counts : List Int64} :
    ((counts.map Int64.toUInt64).sum.toNat : Int) = (counts.map Int64.toInt).sum % 2 ^ 64 := by
  induction counts
  case nil => rfl
  case cons count counts ih =>
    have hcount : (count.toUInt64.toNat : Int) % 2 ^ 64 = count.toInt % 2 ^ 64 := by
      rw [← Int64.toInt_toBitVec, BitVec.toInt_eq_toNat_bmod]
      exact Int.bmod_emod.symm
    rw [List.map_cons, List.sum_cons, UInt64.toNat_add, List.map_cons, List.sum_cons,
      Int.natCast_emod, Int.natCast_add, ih]
    omega

namespace MultiFileList

variable {ε : Type*} [Expressions ε] {scans : TableScans ε} {list : MultiFileList} {table : Table}
  {plan : ScanPlan} {task : FileScanTask} {tasks pre post : List FileScanTask}

theorem planTask_of_readable (h : task.Readable) :
    planTask table plan task = .ok (plan.extend [task]) := by
  simp [planTask, ScanPlan.extend, h.left, h.right]

theorem planTask_of_not_readable (h : ¬task.Readable) : planTask table plan task =
    .error { kind := .notImplemented, message := task.refusal table } := by
  rw [planTask, FileScanTask.refusal]
  split
  case isTrue => rfl
  case isFalse hd =>
    rw [if_pos]
    exact fun hf => h ⟨not_not.mp hd, hf⟩

theorem planTasks_of_readable (h : ∀ task ∈ tasks, task.Readable) :
    tasks.foldlM (planTask table) plan = .ok (plan.extend tasks) := by
  induction tasks generalizing plan
  case nil => simp [ScanPlan.extend, pure, Except.pure]
  case cons task tasks ih =>
    rw [List.forall_mem_cons] at h
    rw [List.foldlM_cons, planTask_of_readable h.left]
    exact (ih h.right).trans (by simp [ScanPlan.extend, UInt64.add_assoc])

theorem planTasks_of_not_readable (hpre : ∀ task ∈ pre, task.Readable) (h : ¬task.Readable) :
    (pre ++ task :: post).foldlM (planTask table) plan =
      .error { kind := .notImplemented, message := task.refusal table } := by
  rw [List.foldlM_append, planTasks_of_readable hpre]
  change (task :: post).foldlM (planTask table) (plan.extend pre) = _
  rw [List.foldlM_cons, planTask_of_not_readable h]
  rfl

-- How an error is reported.
def planException (table : Table) (error : Error) : Exception :=
  if error.kind = .notImplemented then
    { type := .notImplemented, message := error.message }
  else
    {
      type    := .io
      message :=
        s!"Failed to plan files for table '{table.name.toString}'" ++ ": " ++ error.message
    }

variable (scans list) in
-- What becomes of planning: it fails as the scan does or at the first task that can not be read, or
-- else has all data files.
inductive PlanOutcome : Except Exception ScanPlan → Prop
  | failed {error : Error}
      (hs : scans.planFiles list.scanInfo.table list.scanInfo.mode.useSnapshot
        (list.planFilter ε) = .error error) :
    PlanOutcome (.error (planException list.scanInfo.table error))
  | refused {pre post : List FileScanTask} {task : FileScanTask}
      (hs : scans.planFiles list.scanInfo.table list.scanInfo.mode.useSnapshot
        (list.planFilter ε) = .ok (pre ++ task :: post))
      (hpre : ∀ task ∈ pre, task.Readable) (ht : ¬task.Readable) :
    PlanOutcome (.error (planException list.scanInfo.table
      { kind := .notImplemented, message := task.refusal list.scanInfo.table }))
  | planned {tasks : List FileScanTask}
      (hs : scans.planFiles list.scanInfo.table list.scanInfo.mode.useSnapshot
        (list.planFilter ε) = .ok tasks)
      (ht : ∀ task ∈ tasks, task.Readable) :
    PlanOutcome (.ok {
      dataFiles        := tasks.map FileScanTask.dataFile
      totalRecordCount := (tasks.map (·.dataFile.recordCount.toUInt64)).sum
    })

theorem exists_first_not_readable (h : ¬∀ task ∈ tasks, task.Readable) :
    ∃ pre task post, tasks = pre ++ task :: post ∧ (∀ task ∈ pre, task.Readable) ∧
      ¬task.Readable := by
  induction tasks
  case nil => simp at h
  case cons task tasks ih =>
    by_cases ht : task.Readable
    case neg => exact ⟨[], task, tasks, rfl, nofun, ht⟩
    case pos =>
      obtain ⟨pre, task', post, htasks, hpre, ht'⟩ :=
        ih fun hall => h <| List.forall_mem_cons.mpr ⟨ht, hall⟩
      exact ⟨task :: pre, task', post, by simp [htasks], List.forall_mem_cons.mpr ⟨ht, hpre⟩, ht'⟩

theorem planFiles_of_error {error : Error} (h : list.planFilesImpl scans = .error error) :
    list.planFiles scans = .error (planException list.scanInfo.table error) := by
  obtain ⟨kind, message⟩ := error
  rw [planFiles, h]
  cases kind <;> simp [planException, unwrapOrThrow]

theorem planFiles_outcome : PlanOutcome scans list (list.planFiles scans) := by
  cases hs : scans.planFiles list.scanInfo.table list.scanInfo.mode.useSnapshot (list.planFilter ε)
  case error error =>
    have himpl : list.planFilesImpl scans = .error error := by rw [planFilesImpl, hs]; rfl
    exact planFiles_of_error himpl ▸ .failed hs
  case ok tasks =>
    have himpl : list.planFilesImpl scans =
        tasks.foldlM (planTask list.scanInfo.table) { dataFiles := [], totalRecordCount := 0 } := by
      rw [planFilesImpl, hs]
      rfl
    by_cases hall : ∀ task ∈ tasks, task.Readable
    case pos =>
      rw [planTasks_of_readable hall] at himpl
      rw [planFiles, himpl]
      simpa [ScanPlan.extend] using PlanOutcome.planned hs hall
    case neg =>
      obtain ⟨pre, task, post, htasks, hpre, ht⟩ := exists_first_not_readable hall
      subst htasks
      rw [planTasks_of_not_readable hpre ht] at himpl
      exact planFiles_of_error himpl ▸ .refused hs hpre ht

-- What the accessors give for the data files of some tasks.
structure ShowsFiles (scans : TableScans ε) (list : MultiFileList) (tasks : List FileScanTask) :
    Prop where
  allFiles       : list.getAllFiles scans =
    .ok (tasks.map fun task => makeOpenFileInfo task.dataFile)
  totalFileCount : list.getTotalFileCount scans = .ok tasks.length
  file           : ∀ idx, list.getFile scans idx =
    .ok ((tasks[idx]?.map fun task => makeOpenFileInfo task.dataFile).getD
      { path := "", extendedInfo := none })
  cardinality    : ∃ stats, list.getCardinality scans = .ok stats ∧
    stats.estimatedCardinality = stats.maxCardinality ∧
    (stats.maxCardinality.toNat : Int) =
      (tasks.map (·.dataFile.recordCount.toInt)).sum % 2 ^ 64

structure FailsWith (scans : TableScans ε) (list : MultiFileList) (exception : Exception) : Prop where
  allFiles       : list.getAllFiles scans = .error exception
  totalFileCount : list.getTotalFileCount scans = .error exception
  file           : ∀ idx, list.getFile scans idx = .error exception
  cardinality    : list.getCardinality scans = .error exception

theorem ShowsFiles.of_planned (h : list.planFiles scans = .ok {
      dataFiles        := tasks.map FileScanTask.dataFile
      totalRecordCount := (tasks.map (·.dataFile.recordCount.toUInt64)).sum
    }) : ShowsFiles scans list tasks where
  allFiles       := by simp [getAllFiles, h, bind, Except.bind, pure, Except.pure]
  totalFileCount := by simp [getTotalFileCount, h, bind, Except.bind, pure, Except.pure]
  file idx       := by
    simp only [getFile, h, bind, Except.bind, List.getElem?_map]
    cases tasks[idx]? <;> rfl
  cardinality    := by
    refine ⟨_, by rw [getCardinality, h]; rfl, rfl, ?_⟩
    have hsum := @toNat_sum_toUInt64 (tasks.map (·.dataFile.recordCount))
    rw [List.map_map, List.map_map] at hsum
    exact hsum

theorem FailsWith.of_error {exception : Exception} (h : list.planFiles scans = .error exception) :
    FailsWith scans list exception where
  allFiles       := by rw [getAllFiles, h]; rfl
  totalFileCount := by rw [getTotalFileCount, h]; rfl
  file idx       := by rw [getFile, h]; rfl
  cardinality    := by rw [getCardinality, h]; rfl

end MultiFileList

open MultiFileList

-- Planning gives all data files of a scan or none: the first one that can not be read fails all of it.
theorem planning_is_all_or_nothing {ε : Type*} [Expressions ε] (scans : TableScans ε)
    (list : MultiFileList) :
    let info := list.scanInfo
    let scan := scans.planFiles info.table info.mode.useSnapshot (list.planFilter ε)
    (∃ tasks, scan = .ok tasks ∧ (∀ task ∈ tasks, task.Readable) ∧ ShowsFiles scans list tasks) ∨
    ∃ error, FailsWith scans list (planException info.table error) ∧
      (scan = .error error ∨
        ∃ pre task post, scan = .ok (pre ++ task :: post) ∧ (∀ task ∈ pre, task.Readable) ∧
          ¬task.Readable ∧
          error = { kind := .notImplemented, message := task.refusal info.table }) := by
  intro info scan
  have hplan := @planFiles_outcome _ _ scans list
  generalize hp : list.planFiles scans = outcome at hplan
  cases hplan
  case planned tasks hs ht          => exact .inl ⟨tasks, hs, ht, .of_planned hp⟩
  case failed error hs              => exact .inr ⟨error, .of_error hp, .inl hs⟩
  case refused pre post task hs h t =>
    exact .inr ⟨_, .of_error hp, .inr ⟨pre, task, post, hs, h, t, rfl⟩⟩

end ProtoIceberg
