import ProtoIceberg.Catalog.Theorems.Evolution
import ProtoIceberg.Snapshot.Lake
import ProtoIceberg.Snapshot.Theorems.Isolation

namespace ProtoIceberg

theorem unwrapOrThrow_ok_iff {α : Type} {result : Result α} {message : String} {a : α} :
    unwrapOrThrow result message = .ok a ↔ result = .ok a := by
  cases result <;> simp [unwrapOrThrow]

theorem resolveScanInfo_resolved {txnStart : Int} {table : Table} {namespaceName tableName : String}
    {info : ScanInfo} (h : resolveScanInfo txnStart table namespaceName tableName = .ok info) :
    info.Resolved := by
  rw [resolveScanInfo] at h
  split at h
  case isTrue =>
    split at h
    case h_1 => cases h
    case h_2 =>
      obtain ⟨schema, hs, h⟩ := Except.bind_eq_ok_iff.mp h
      cases h
      exact unwrapOrThrow_ok_iff.mp hs
  case isFalse =>
    obtain ⟨schema, hs, h⟩ := Except.bind_eq_ok_iff.mp h
    cases h
    exact unwrapOrThrow_ok_iff.mp hs

namespace SchemaEntry

variable {e : SchemaEntry} {catalog : Catalog} {txnStart : Int} {tableName : String}
  {entry : TableEntry} {info : ScanInfo}

-- A table entry that has been loaded for a name holds what is resolved from the catalog's answer.
def Resolves (e : SchemaEntry) (catalog : Catalog) (txnStart : Int) (name : String)
    (info : ScanInfo) : Prop :=
  ∃ table, catalog.loadTable (getTableIdentifier e.name name) = .ok table ∧
    resolveScanInfo txnStart table e.name name = .ok info

theorem loadTableEntry_entries
    (h : entry ∈ (e.loadTableEntry catalog txnStart tableName).2.tables.entries)
    (hi : entry.scanInfo = some info) :
    entry ∈ e.tables.entries ∨ e.Resolves catalog txnStart entry.name info := by
  rw [loadTableEntry] at h
  dsimp only at h
  split at h
  case h_1 => exact .inl h
  case h_2 => exact .inl h
  case h_3 => exact .inl h
  case h_4 table hc =>
    split at h
    case h_1 => exact .inl h
    case h_2 hentry =>
      obtain ⟨info', hinfo, hcreate⟩ := Except.bind_eq_ok_iff.mp hentry
      obtain ⟨hname, hscan, _⟩ := createTableEntry_ok hcreate
      cases List.mem_append.mp h
      case inl h => exact .inl h
      case inr h =>
        cases List.mem_singleton.mp h
        cases hi.symm.trans hscan
        exact .inr (hname ▸ ⟨table, hc, hinfo⟩)

theorem scanTables_entries (h : entry ∈ (e.scanTables catalog).2.tables.entries)
    (hi : entry.scanInfo = some info) : entry ∈ e.tables.entries := by
  have hlist := @scanTables_outcome e catalog
  generalize e.scanTables catalog = outcome at hlist h
  cases hlist
  case cached           => exact h
  case namespaceMissing => exact h
  case failed           => exact h
  case listed =>
    cases TableRegistry.scanInfo_list h
    case inl h => exact h
    case inr h => cases h.symm.trans hi

theorem perform_entries {op : Op}
    (h : entry ∈ (e.perform catalog txnStart op).2.tables.entries)
    (hi : entry.scanInfo = some info) :
    entry ∈ e.tables.entries ∨ e.Resolves catalog txnStart entry.name info := by
  cases op
  case scanTables => exact .inl <| scanTables_entries h hi
  case scan type =>
    cases scan_cases e catalog type
    case inl hs => rw [perform, hs] at h; exact .inl h
    case inr hs => rw [perform, hs.right] at h; exact .inl <| scanTables_entries h hi
  case lookupEntry type tableName =>
    dsimp only [perform] at h
    rw [lookupEntry] at h
    split at h
    case isTrue => exact .inl h
    case isFalse =>
      split at h
      case h_1 => exact .inl h
      case h_2 => exact loadTableEntry_entries h hi
      case h_3 =>
        split at h
        case isTrue  => exact loadTableEntry_entries h hi
        case isFalse => exact .inl h

end SchemaEntry

namespace Transaction

variable {txn txn' : Transaction} {catalog : Catalog} {exchanges : List Exchange} {r : Nat}
  {e' : SchemaEntry} {entry : TableEntry} {info : ScanInfo}

-- Table entries are only loaded by operations on their schema entries.
theorem Step.entries (h : Step txn catalog exchanges txn') (he : txn'.heap[r]? = some e')
    (hentry : entry ∈ e'.tables.entries) (hi : entry.scanInfo = some info) :
    (∃ e, txn.heap[r]? = some e ∧ e.name = e'.name ∧ entry ∈ e.tables.entries) ∨
      e'.Resolves catalog txn.startTimestampMs entry.name info := by
  have created {name : String} (hc : e' = .create name) : False := by
    subst hc
    cases hentry
  cases h
  case unchanged => exact .inl ⟨e', he, rfl, hentry⟩
  case failed    => exact .inl ⟨e', he, rfl, hentry⟩
  case stored =>
    cases heap_store_cases he
    case inl he => exact .inl ⟨e', he, rfl, hentry⟩
    case inr hc => exact (created hc.right).elim
  case listed =>
    obtain ⟨e₀, he₀, hmark⟩ := heap_completeListing_cases he
    have hsame : e₀.name = e'.name ∧ e₀.tables = e'.tables := by
      rcases hmark with heq | ⟨heq, _⟩ <;> subst heq <;> exact ⟨rfl, rfl⟩
    rw [← hsame.right] at hentry
    cases heap_foldl_storeNew_cases he₀
    case inl he₀ => exact .inl ⟨e₀, he₀, hsame.left, hentry⟩
    case inr hc =>
      obtain ⟨_, name, heq⟩ := hc
      subst heq
      cases hentry
  case performed r' op =>
    by_cases hr : r = r'
    case neg => exact .inl ⟨e', perform_heap_of_ne hr ▸ he, rfl, hentry⟩
    case pos =>
      subst hr
      cases he₀ : txn.heap[r]?
      case none => simp [perform, mapEntries, he₀] at he
      case some e₀ =>
        cases (perform_heap he₀).symm.trans he
        have hname : (e₀.perform catalog txn.startTimestampMs op).2.name = e₀.name :=
          SchemaEntry.perform_step.evolves.name
        cases SchemaEntry.perform_entries hentry hi
        case inl hold => exact .inl ⟨e₀, rfl, hname.symm, hold⟩
        case inr hres => exact .inr (by rwa [SchemaEntry.Resolves, hname])

-- Whether all tables that have been loaded are read from snapshots that they show.
def ReadsFrom (shows : TableIdentifier → Option Int → Prop) (txn : Transaction) : Prop :=
  ∀ (r : Nat) e, txn.heap[r]? = some e → ∀ entry ∈ e.tables.entries, ∀ info ∈ entry.scanInfo,
    shows (getTableIdentifier e.name entry.name) info.snapshot ∧
      (∀ id ∈ info.snapshot, id ∈ info.table.snapshots) ∧ info.Resolved

variable {shows : TableIdentifier → Option Int → Prop}

theorem Step.readsFrom (h : Step txn catalog exchanges txn') (hr : txn.ReadsFrom shows)
    (hc : ∀ id table, catalog.loadTable id = .ok table → ∀ namespaceName tableName,
      ∃ snapshot, shows id snapshot ∧ ReadsOrRestarts snapshot
        (resolveScanInfo txn.startTimestampMs table namespaceName tableName)) :
    txn'.ReadsFrom shows := by
  intro r e' he entry hentry info hi
  cases h.entries he hentry hi
  case inl hold =>
    obtain ⟨e, he, hname, hentry⟩ := hold
    exact hname ▸ hr r e he entry hentry info hi
  case inr hres =>
    obtain ⟨table, hload, hinfo⟩ := hres
    obtain ⟨snapshot, hshows, hreads⟩ := hc _ table hload e'.name entry.name
    rw [hinfo] at hreads
    obtain ⟨heq, hknown⟩ := hreads
    subst heq
    exact ⟨hshows, hknown, resolveScanInfo_resolved hinfo⟩

theorem ReadsFrom.imp {shows' : TableIdentifier → Option Int → Prop} (h : txn.ReadsFrom shows)
    (hs : ∀ id snapshot, shows id snapshot → shows' id snapshot) : txn.ReadsFrom shows' := by
  intro r e he entry hentry info hi
  obtain ⟨hshows, hread⟩ := h r e he entry hentry info hi
  exact ⟨hs _ _ hshows, hread⟩

end Transaction

namespace Metadata

variable {m m' : Metadata} {t time : Int} {change : Change} {changes : List Change}

-- A table that does not exist is read as if it were empty.
def absent (t : Int) : Metadata :=
  .created t { fields := [], nodup := List.nodup_nil }

-- A version that goes back to the one from time `t`, on which later commits may build.
structure Since (t : Int) (m m' : Metadata) : Prop where
  remembers : Remembers t m m'
  changed   : m' = m ∨ t < m'.lastUpdatedMs

namespace Since

theorem refl : Since t m m where
  remembers := { log := .refl, current := id }
  changed   := .inl rfl

theorem apply (h : Since t m m') (ht : t < time) : Since t m (m'.apply time change) := by
  cases apply_cases m' time change
  case inl he => rwa [he]
  case inr hc =>
    have ht' : t < (m'.apply time change).lastUpdatedMs := by rwa [hc.right]
    exact {
      remembers := {
        log     := h.remembers.log.trans <| hc.left.evolves ht'
        current := hc.left.current_isSome ∘ h.remembers.current
      }
      changed   := .inr ht'
    }

theorem commit (h : Since t m m') (ht : t < time) : Since t m (m'.commit time changes) :=
  List.foldlRecOn (motive := Since t m) changes _ h fun _ h _ _ => h.apply ht

theorem created {schema : Schema} (ht : t < time) :
    Since t (.absent t) (.created time schema) where
  remembers := { log := .refl, current := id }
  changed   := .inr ht

theorem reads {base : Table} {namespaceName tableName : String} (h : Since t m m')
    (hm : m.lastUpdatedMs ≤ t) :
    ReadsOrRestarts m.current (resolveScanInfo t (m'.table base) namespaceName tableName) := by
  cases h.changed
  case inl he =>
    rw [he]
    exact reads_current (.inr hm)
  case inr ht =>
    by_cases hn : m'.snapshots = []
    case pos => exact h.remembers.current_eq_of_snapshots_nil hn ▸ reads_current (.inl hn)
    case neg => exact h.remembers.reads_changed hm ht hn

end Since

-- Other than by the expiration of snapshots, nothing is forgotten.
theorem asOf_apply (hc : ∀ expired, change ≠ .expire expired) (ht : t < time) :
    (m.apply time change).log.asOf t = m.log.asOf t := by
  rw [apply]
  split
  case isFalse => rfl
  case isTrue =>
    cases change
    case append       => exact Timeline.asOf_concat (Int.not_le.mpr ht)
    case stage        => rfl
    case evolveSchema => rfl
    case expire p     => exact absurd rfl (hc p)
    case rollback =>
      dsimp only
      split
      case isTrue  => exact Timeline.asOf_concat (Int.not_le.mpr ht)
      case isFalse => rfl

theorem asOf_commit (hc : ∀ change ∈ changes, ∀ expired, change ≠ .expire expired) (ht : t < time) :
    (m.commit time changes).log.asOf t = m.log.asOf t :=
  List.foldlRecOn (motive := fun m' : Metadata => m'.log.asOf t = m.log.asOf t) changes _ rfl
    fun _ h change hmem => (asOf_apply (hc change hmem) ht).trans h

-- A table is read where it is known which snapshot was current.
theorem reads_of_asOf {base : Table} {namespaceName tableName : String} {id : Int}
    (h : m.log.asOf t = some id) :
    ∃ info, resolveScanInfo t (m.table base) namespaceName tableName = .ok info := by
  rw [resolveScanInfo]
  split
  case isFalse => exact ⟨_, rfl⟩
  case isTrue =>
    have hid : (m.table base).optionalSnapshotIdAsOfTime t = some id := h
    obtain ⟨schema, hs⟩ := @schemaFor_ok _ base _ (asOf_known h)
    simp only [hid, hs, unwrapOrThrow_ok]
    exact ⟨_, rfl⟩

end Metadata

namespace Lake

section

variable {now : Int} (lake : Lake now) (t : Int) (id : TableIdentifier)

def origin : Metadata :=
  (lake.tables id).getD (.absent t)

theorem snapshot_eq : lake.snapshot id = (lake.origin t id).current := by
  rw [snapshot, origin]
  cases lake.tables id <;> rfl

variable {lake t id}

theorem origin_eq {m : Metadata} (h : m ∈ lake.tables id) : lake.origin t id = m := by
  rw [origin, Option.mem_def.mp h]
  rfl

theorem origin_eq_absent (h : lake.tables id = none) : lake.origin t id = .absent t := by
  rw [origin, h]
  rfl

theorem origin_upTo (h : now ≤ t) : (lake.origin t id).lastUpdatedMs ≤ t := by
  cases htable : lake.tables id
  case none   => exact origin_eq_absent htable ▸ Int.le_refl t
  case some m => exact origin_eq htable ▸ Int.le_trans (lake.upTo id m htable) h

theorem catalog_ok {answers : Catalog} {table : Table}
    (h : (lake.catalog answers).loadTable id = .ok table) :
    ∃ base, ∃ m ∈ lake.tables id, m.table base = table := by
  dsimp only [catalog] at h
  split at h
  case h_1 => cases h
  case h_3 => cases h
  case h_2 base m _ hm => exact ⟨base, m, hm, Except.ok.inj h⟩

-- All tables go back to what they were in the past, until time `t`. One that does not exist goes back
-- to one that is empty.
structure GoesBack (lake : Lake now) (t : Int) (past : TableIdentifier → Metadata → Prop) : Prop where
  upTo   : ∀ {id m}, past id m → m.lastUpdatedMs ≤ t
  absent : ∀ {id}, lake.tables id = none → past id (.absent t)
  since  : ∀ {id}, ∀ m ∈ lake.tables id, ∃ m₀, past id m₀ ∧ m₀.Since t m

namespace GoesBack

variable {past : TableIdentifier → Metadata → Prop} {delay : Nat}

-- The tables are as they were.
theorem of_past (hu : ∀ {id m}, past id m → m.lastUpdatedMs ≤ t)
    (hp : ∀ id, past id (lake.origin t id)) : lake.GoesBack t past where
  upTo       := hu
  absent hm  := origin_eq_absent hm ▸ hp _
  since m hm := ⟨m, origin_eq hm ▸ hp _, .refl⟩

theorem put {m : Option Metadata} {lake' : Lake (now + delay)} (h : lake.GoesBack t past)
    (ht : lake'.tables = Function.update lake.tables id m) (ha : m = none → past id (.absent t))
    (hs : ∀ m' ∈ m, ∃ m₀, past id m₀ ∧ m₀.Since t m') : lake'.GoesBack t past where
  upTo := h.upTo
  absent {id'} hm := by
    rw [ht] at hm
    by_cases hid : id' = id
    case pos =>
      subst hid
      rw [Function.update_self] at hm
      exact ha hm
    case neg =>
      rw [Function.update_of_ne hid] at hm
      exact h.absent hm
  since {id'} m' hm := by
    rw [ht] at hm
    by_cases hid : id' = id
    case pos =>
      subst hid
      rw [Function.update_self] at hm
      exact hs m' hm
    case neg =>
      rw [Function.update_of_ne hid] at hm
      exact h.since m' hm

theorem create {schema : Schema} {changes : List Metadata.Change} (h : lake.GoesBack t past)
    (ht : t < now + delay) : (lake.create delay id schema changes).GoesBack t past := by
  refine h.put rfl (fun hm => by cases hm) ?_
  intro m hm
  cases hm
  cases hw : lake.tables id
  case some m => exact h.since m hw
  case none   => exact ⟨_, h.absent hw, (Metadata.Since.created ht).commit ht⟩

theorem commit {changes : List Metadata.Change} (h : lake.GoesBack t past) (ht : t < now + delay) :
    (lake.commit delay id changes).GoesBack t past := by
  refine h.put rfl (fun hm => h.absent <| Option.map_eq_none_iff.mp hm) ?_
  intro m hm
  obtain ⟨m, hw, hm⟩ := Option.map_eq_some_iff.mp hm
  subst hm
  obtain ⟨m₀, hpast, hsince⟩ := h.since m hw
  exact ⟨m₀, hpast, hsince.commit ht⟩

theorem drop (h : lake.GoesBack t past) (hd : past id (.absent t)) :
    (lake.drop delay id).GoesBack t past :=
  h.put rfl (fun _ => hd) fun _ hm => by cases hm

-- What the catalog gives is read as of time `t`.
theorem reads {answers : Catalog} {table : Table} (h : lake.GoesBack t past)
    (hload : (lake.catalog answers).loadTable id = .ok table) (namespaceName tableName : String) :
    ∃ m₀, past id m₀ ∧
      ReadsOrRestarts m₀.current (resolveScanInfo t table namespaceName tableName) := by
  obtain ⟨base, m, hm, htable⟩ := Lake.catalog_ok hload
  obtain ⟨m₀, hpast, hsince⟩ := h.since m hm
  exact ⟨m₀, hpast, htable ▸ hsince.reads (h.upTo hpast)⟩

end GoesBack

end

variable {t : Int} (lake : Lake t) (dropped : TableIdentifier → Prop)

-- What a table's later versions go back to. After it has been dropped, a table may be created anew.
inductive Origin (id : TableIdentifier) : Metadata → Prop
  | kept : Origin id (lake.origin t id)
  | anew (h : dropped id) : Origin id (.absent t)

-- The snapshots from which a table may be read as of time `t`.
def Shows (id : TableIdentifier) (snapshot : Option Int) : Prop :=
  snapshot = lake.snapshot id ∨ dropped id ∧ snapshot = none

namespace Origin

variable {lake dropped} {id : TableIdentifier} {m : Metadata}

theorem shows (h : lake.Origin dropped id m) : lake.Shows dropped id m.current := by
  cases h
  case kept   => exact .inl (lake.snapshot_eq t id).symm
  case anew h => exact .inr ⟨h, rfl⟩

theorem upTo (h : lake.Origin dropped id m) : m.lastUpdatedMs ≤ t := by
  cases h
  case kept   => exact origin_upTo (Int.le_refl t)
  case anew h => exact Int.le_refl t

theorem eq_origin (h : lake.Origin dropped id m) (hd : ¬dropped id) : m = lake.origin t id := by
  cases h
  case kept   => rfl
  case anew h => exact absurd h hd

end Origin

end Lake

namespace Transaction

-- The transaction reads the tables as of time `t`.
structure ReadsAsOf (t : Int) (past : TableIdentifier → Metadata → Prop) (txn : Transaction) :
    Prop where
  start : txn.startTimestampMs = t
  reads : txn.ReadsFrom fun id snapshot => ∃ m, past id m ∧ m.current = snapshot

namespace ReadsAsOf

variable {t : Int} {past : TableIdentifier → Metadata → Prop} {txn : Transaction}

theorem of_start {duckdbTimestamp : Int}
    (h : ProtoIceberg.startTimestampMs duckdbTimestamp = t) :
    (Transaction.start duckdbTimestamp).ReadsAsOf t past where
  start := h
  reads := fun _ _ h => by cases h

theorem step {now : Int} {lake : Lake now} {defaultSchema : String} {answers : Catalog}
    {op : Transaction.Op} (h : txn.ReadsAsOf t past) (hl : lake.GoesBack t past) :
    (txn.step defaultSchema (lake.catalog answers) op).2.ReadsAsOf t past := by
  have hstep := @Transaction.machine_step txn 0 defaultSchema (lake.catalog answers, op)
  refine ⟨hstep.evolves.start.trans h.start, hstep.readsFrom h.reads ?_⟩
  intro id table hload namespaceName tableName
  obtain ⟨m, hpast, hreads⟩ := hl.reads hload namespaceName tableName
  exact ⟨m.current, ⟨m, hpast, rfl⟩, h.start ▸ hreads⟩

theorem imp {shows : TableIdentifier → Option Int → Prop} (h : txn.ReadsAsOf t past)
    (hs : ∀ id m, past id m → shows id m.current) : txn.ReadsFrom shows := by
  refine h.reads.imp ?_
  rintro id snapshot ⟨m, hpast, rfl⟩
  exact hs id m hpast

end ReadsAsOf

end Transaction

namespace World

variable {t : Int} {lake : Lake t} {dropped : TableIdentifier → Prop} {w : World}

-- What others do while the transaction runs leaves the tables' past as it was, unless they drop them.
structure Consistent (dropped : TableIdentifier → Prop) (lake : Lake t) (w : World) : Prop where
  now  : t < w.now
  past : w.lake.GoesBack t (lake.Origin dropped)
  txn  : w.txn.ReadsAsOf t (lake.Origin dropped)

theorem Consistent.later (h : Consistent dropped lake w) {delay : Nat} : t < w.now + delay :=
  Int.lt_of_lt_of_le h.now <| Lake.later (Int.le_refl _)

variable {duckdbTimestamp : Int} {defaultSchema : String}
  {lake : Lake (startTimestampMs duckdbTimestamp)} {events : List Event} {id : TableIdentifier}

theorem Consistent.init :
    Consistent dropped lake (machine duckdbTimestamp defaultSchema lake).init where
  now  := Int.lt_succ _
  past := .of_past Lake.Origin.upTo fun _ => .kept
  txn  := .of_start rfl

-- Whether the table is dropped.
def Event.Drops (id : TableIdentifier) : Event → Prop
  | .drop _ id' => id' = id
  | _           => False

theorem Consistent.next {event : Event} (h : Consistent dropped lake w)
    (hd : ∀ id, event.Drops id → dropped id) :
    Consistent dropped lake ((machine duckdbTimestamp defaultSchema lake).next w event) := by
  cases event
  case create       => exact { h with now := h.later, past := h.past.create h.later }
  case commit       => exact { h with now := h.later, past := h.past.commit h.later }
  case drop delay i => exact { h with now := h.later, past := h.past.drop <| .anew (hd i rfl) }
  case perform      => exact { h with txn := h.txn.step h.past }

theorem consistent (hd : ∀ event ∈ events, ∀ id, event.Drops id → dropped id) :
    let m := machine duckdbTimestamp defaultSchema lake
    Consistent dropped lake (m.run m.init events) :=
  Machine.run_induction (fun _ _ hd h => h.next hd) .init hd

-- Whether snapshots of the table are expired.
def Event.Expires (id : TableIdentifier) : Event → Prop
  | .create _ id' _ changes => id' = id ∧ ∃ expired, .expire expired ∈ changes
  | .commit _ id' changes   => id' = id ∧ ∃ expired, .expire expired ∈ changes
  | _                       => False

-- What is known about a table's past.
def Remembered {t : Int} (lake : Lake t) (id : TableIdentifier) (w : World) : Prop :=
  ∀ m ∈ w.lake.tables id, m.log.asOf t = (lake.origin t id).log.asOf t

namespace Remembered

theorem put {t : Int} {lake : Lake t} {delay : Nat} {id' : TableIdentifier} {m : Option Metadata}
    {lake' : Lake (w.now + delay)} (h : Remembered lake id w)
    (ht : lake'.tables = Function.update w.lake.tables id' m)
    (hm : id' = id → ∀ m' ∈ m, m'.log.asOf t = (lake.origin t id).log.asOf t) :
    Remembered lake id { w with now := w.now + delay, lake := lake' } := by
  intro m' hm'
  dsimp only at hm'
  rw [ht] at hm'
  by_cases hid : id = id'
  case pos =>
    subst hid
    rw [Function.update_self] at hm'
    exact hm rfl m' hm'
  case neg =>
    rw [Function.update_of_ne hid] at hm'
    exact h m' hm'

theorem next {event : Event} (h : Remembered lake id w) (hc : Consistent (· ≠ id) lake w)
    (he : ¬event.Expires id) (hd : ¬event.Drops id) :
    Remembered lake id ((machine duckdbTimestamp defaultSchema lake).next w event) := by
  cases event
  case perform => exact h
  case drop    => exact h.put rfl (absurd · hd)
  case commit delay id' changes =>
    refine h.put rfl ?_
    intro hid m' hm'
    subst hid
    obtain ⟨m, hw, hm⟩ := Option.map_eq_some_iff.mp hm'
    subst hm
    rw [Metadata.asOf_commit (fun _ hmem p heq => he ⟨rfl, p, heq ▸ hmem⟩) hc.later]
    exact h m hw
  case create delay id' schema changes =>
    refine h.put rfl ?_
    intro hid m' hm'
    subst hid
    cases hm'
    cases hw : w.lake.tables id'
    case some m => exact h m hw
    case none =>
      rw [← (hc.past.absent hw).eq_origin (absurd rfl)]
      exact Metadata.asOf_commit (fun _ hmem p heq => he ⟨rfl, p, heq ▸ hmem⟩) hc.later

end Remembered

theorem remembered (h : ∀ event ∈ events, ¬event.Expires id ∧ ¬event.Drops id) :
    let m := machine duckdbTimestamp defaultSchema lake
    Remembered lake id (m.run m.init events) := by
  intro m
  -- All other tables may be dropped.
  have hboth : Consistent (· ≠ id) lake (m.run m.init events) ∧
      Remembered lake id (m.run m.init events) := by
    apply Machine.run_induction (P := fun w => Consistent (· ≠ id) lake w ∧ Remembered lake id w)
      (Q := fun event : Event => ¬event.Expires id ∧ ¬event.Drops id)
    case hs =>
      refine ⟨.init, ?_⟩
      intro m (hm : m ∈ lake.tables id)
      rw [Lake.origin_eq hm]
    case hi    => exact h
    case hstep =>
      intro w event hevent hw
      have hd : ∀ id', event.Drops id' → id' ≠ id :=
        fun id' hdrops hid => hevent.right (hid ▸ hdrops)
      exact ⟨hw.left.next hd, hw.right.next hw.left hevent.left hevent.right⟩
  exact hboth.right

end World

-- A transaction reads all of its tables as they were when it started, whatever others commit while it
-- runs, or asks to be restarted; one that is dropped and created anew may be empty. A table with a
-- snapshot stays readable unless it is dropped or snapshots of it are expired.
theorem transaction_reads_one_state (duckdbTimestamp : Int) (defaultSchema : String)
    (lake : Lake (startTimestampMs duckdbTimestamp)) (events : List World.Event) :
    let m := World.machine duckdbTimestamp defaultSchema lake
    let w := m.run m.init events
    w.txn.ReadsFrom (lake.Shows fun id => ∃ event ∈ events, event.Drops id) ∧
    ∀ id, (lake.snapshot id).isSome →
      (∀ event ∈ events, ¬event.Expires id ∧ ¬event.Drops id) →
      ∀ answers table, (w.lake.catalog answers).loadTable id = .ok table →
        ∀ namespaceName tableName, ∃ info,
          resolveScanInfo w.txn.startTimestampMs table namespaceName tableName = .ok info ∧
          info.snapshot = lake.snapshot id := by
  intro m w
  have hc : World.Consistent (fun id => ∃ event ∈ events, event.Drops id) lake w :=
    World.consistent fun event hevent _ hd => ⟨event, hevent, hd⟩
  refine ⟨hc.txn.imp fun _ _ h => h.shows, ?_⟩
  intro id hsome hkept answers table hload namespaceName tableName
  obtain ⟨m₀, horigin, hreads⟩ := hc.past.reads hload namespaceName tableName
  obtain ⟨base, m', hm', htable⟩ := Lake.catalog_ok hload
  subst htable
  have hasOf : m'.log.asOf (startTimestampMs duckdbTimestamp) = lake.snapshot id := by
    rw [World.remembered hkept m' hm', lake.snapshot_eq]
    exact Metadata.asOf_eq_current <| Lake.origin_upTo (Int.le_refl _)
  obtain ⟨s, hs⟩ := Option.isSome_iff_exists.mp hsome
  obtain ⟨info, hinfo⟩ :=
    @Metadata.reads_of_asOf _ _ base namespaceName tableName _ (hasOf.trans hs)
  rw [hinfo] at hreads
  have hkeeps : ¬∃ event ∈ events, event.Drops id :=
    fun ⟨event, hevent, hd⟩ => (hkept event hevent).right hd
  refine ⟨info, hc.txn.start ▸ hinfo, hreads.left.trans ?_⟩
  rw [horigin.eq_origin hkeeps]
  exact (lake.snapshot_eq _ id).symm

end ProtoIceberg
