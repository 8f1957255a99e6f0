import ProtoIceberg.Extensions.Timeline
import ProtoIceberg.Objects.Table

namespace ProtoIceberg

structure Snapshot where
  id     : Int
  schema : Schema

-- One version of a table's metadata, as Iceberg's table format defines it.
structure Metadata where
  lastUpdatedMs : Int
  schema        : Schema
  snapshots     : List Snapshot
  current       : Option Int
  log           : Timeline Int Int
  latest        : log.latest = current
  logged        : ∀ e ∈ log, e.time ≤ lastUpdatedMs
  known         : ∀ e ∈ log, e.value ∈ snapshots.map Snapshot.id

namespace Metadata

def created (time : Int) (schema : Schema) : Metadata where
  lastUpdatedMs := time
  schema        := schema
  snapshots     := []
  current       := none
  log           := []
  latest        := rfl
  logged        := nofun
  known         := nofun

section

variable (m : Metadata) (time : Int) (h : m.lastUpdatedMs ≤ time)

theorem logged_concat {time : Int} (h : m.lastUpdatedMs ≤ time) (id : Int) :
    ∀ e ∈ m.log ++ [⟨time, id⟩], e.time ≤ time := by
  intro e he
  cases List.mem_append.mp he
  case inl he => exact Int.le_trans (m.logged e he) h
  case inr he => exact List.mem_singleton.mp he ▸ Int.le_refl time

def append (snapshot : Snapshot) : Metadata where
  lastUpdatedMs := time
  schema        := m.schema
  snapshots     := m.snapshots ++ [snapshot]
  current       := some snapshot.id
  log           := m.log ++ [⟨time, snapshot.id⟩]
  latest        := Timeline.latest_concat
  logged        := m.logged_concat h snapshot.id
  known         := by
    intro e he
    rw [List.map_append, List.mem_append]
    refine List.mem_append.mp he |>.imp (m.known e) ?_
    exact fun he => List.mem_singleton.mp he ▸ List.mem_singleton_self snapshot.id

-- A snapshot may also be added for later use only.
def stage (snapshot : Snapshot) : Metadata where
  lastUpdatedMs := time
  schema        := m.schema
  snapshots     := m.snapshots ++ [snapshot]
  current       := m.current
  log           := m.log
  latest        := m.latest
  logged        := fun e he => Int.le_trans (m.logged e he) h
  known         := fun e he => List.map_append ▸ List.mem_append_left _ (m.known e he)

def rollback (id : Int) (hid : id ∈ m.snapshots.map Snapshot.id) : Metadata where
  lastUpdatedMs := time
  schema        := m.schema
  snapshots     := m.snapshots
  current       := some id
  log           := m.log ++ [⟨time, id⟩]
  latest        := Timeline.latest_concat
  logged        := m.logged_concat h id
  known         := by
    intro e he
    cases List.mem_append.mp he
    case inl he => exact m.known e he
    case inr he => exact List.mem_singleton.mp he ▸ hid

-- The log entries of expired snapshots are forgotten along with all entries before them.
def expire (expired : Int → Bool) (hc : ∀ id ∈ m.current, ¬expired id) : Metadata where
  lastUpdatedMs := time
  schema        := m.schema
  snapshots     := m.snapshots.filter fun s => !expired s.id
  current       := m.current
  log           := m.log.forget expired
  latest        := (Timeline.latest_forget (m.latest ▸ hc)).trans m.latest
  logged        := fun e he => Int.le_trans (m.logged e <| Timeline.forget_suffix.subset he) h
  known         := by
    intro e he
    have ⟨s, hs, hse⟩ := List.mem_map.mp <| m.known e (Timeline.forget_suffix.subset he)
    have hne : !expired s.id := by simpa [hse] using Timeline.not_of_mem_forget he
    exact List.mem_map.mpr ⟨s, List.mem_filter.mpr ⟨hs, hne⟩, hse⟩

def evolveSchema (schema : Schema) : Metadata where
  lastUpdatedMs := time
  schema        := schema
  snapshots     := m.snapshots
  current       := m.current
  log           := m.log
  latest        := m.latest
  logged        := fun e he => Int.le_trans (m.logged e he) h
  known         := m.known

end

-- What a commit does to a table.
inductive Commit (m : Metadata) : Metadata → Prop
  | append {time : Int} (h : m.lastUpdatedMs ≤ time) (snapshot : Snapshot) :
    Commit m (m.append time h snapshot)
  | stage {time : Int} (h : m.lastUpdatedMs ≤ time) (snapshot : Snapshot) :
    Commit m (m.stage time h snapshot)
  | rollback {time id : Int} (h : m.lastUpdatedMs ≤ time) (hid : id ∈ m.snapshots.map Snapshot.id) :
    Commit m (m.rollback time h id hid)
  | expire {time : Int} {p : Int → Bool} (h : m.lastUpdatedMs ≤ time) (hc : ∀ id ∈ m.current, ¬p id) :
    Commit m (m.expire time h p hc)
  | evolveSchema {time : Int} (h : m.lastUpdatedMs ≤ time) (schema : Schema) :
    Commit m (m.evolveSchema time h schema)

-- The versions that a table goes through.
structure History where
  versions : List Metadata
  commits  : versions.IsChain Commit

-- The table that iceberg-cpp loads from a version of the metadata.
def table (m : Metadata) (base : Table) : Table where
  name                       := base.name
  location                   := base.location
  io                         := base.io
  properties                 := base.properties
  lastUpdatedMs              := m.lastUpdatedMs
  snapshots                  := m.snapshots.map Snapshot.id
  currentSnapshot            := m.current
  schema                     := .ok m.schema
  schemaFor id               :=
    match m.snapshots.find? (·.id = id) with
    | some snapshot => .ok snapshot.schema
    | none          => .error { kind := .other 0, message := s!"Snapshot with id {id} not found" }
  optionalSnapshotIdAsOfTime := m.log.asOf

end Metadata

end ProtoIceberg
