import ProtoIceberg.Catalog.SchemaEntry

namespace ProtoIceberg

theorem resolveScanInfo_table {txnStart : Int} {table : Table} {namespaceName tableName : String}
    {info : ScanInfo} (h : resolveScanInfo txnStart table namespaceName tableName = .ok info) :
    info.table = table := by
  rw [resolveScanInfo] at h
  split at h
  case isTrue =>
    split at h
    case h_1 => exact nomatch h
    case h_2 =>
      have ⟨_, _, h⟩ := Except.bind_eq_ok_iff.mp h
      cases h
      rfl
  case isFalse =>
    have ⟨_, _, h⟩ := Except.bind_eq_ok_iff.mp h
    cases h
    rfl

-- A table entry for a table as it is loaded from the catalog.
structure TableEntry.LoadedFrom (entry : TableEntry) (name : String) (table : Table) : Prop where
  name  : entry.name = name
  table : ∃ info, entry.scanInfo = some info ∧ info.table = table

theorem TableEntry.LoadedFrom.not_needsLoad {entry : TableEntry} {name : String} {table : Table}
    (h : entry.LoadedFrom name table) : ¬entry.needsLoad := by
  have ⟨_, h, _⟩ := h.table
  simp [needsLoad, h]

namespace SchemaEntry

-- What an operation can do to a schema entry, given its answer.
inductive Step {α : Type} (e : SchemaEntry) (answer : Answer α) : SchemaEntry → Prop
  | cached (h : answer.exchanges = []) :
    Step e answer e
  | failed {exception : Exception} (h : answer.result = .error exception) :
    Step e answer e
  | namespaceMissing {message : String}
      (h : answer.exchanges =
        [.listTables (getNamespace e.name) (.error ⟨.noSuchNamespace, message⟩)]) :
    Step e answer e.markNamespaceMissing
  | listed {children : List TableIdentifier}
      (h : answer.exchanges = [.listTables (getNamespace e.name) (.ok children)]) :
    Step e answer { e with tables := e.tables.list (children.map TableIdentifier.name) }
  | absent {name message : String} (hs : ¬(e.tables.status name).isSettled)
      (h : answer.exchanges =
        [.loadTable (getTableIdentifier e.name name) (.error ⟨.noSuchTable, message⟩)]) :
    Step e answer { e with tables := e.tables.markMissing name }
  | absentNamespace {name message : String} (hs : ¬(e.tables.status name).isSettled)
      (h : answer.exchanges =
        [.loadTable (getTableIdentifier e.name name) (.error ⟨.noSuchNamespace, message⟩)]) :
    Step e answer { e with namespaceMissing := true, tables := e.tables.markMissing name }
  | loaded {name : String} {table : Table} {entry : TableEntry}
      (hs : ¬(e.tables.status name).isSettled)
      (h : answer.exchanges = [.loadTable (getTableIdentifier e.name name) (.ok table)])
      (hl : entry.LoadedFrom name table) :
    Step e answer { e with tables := e.tables.store entry }

variable {α : Type} {e : SchemaEntry} {answer : Answer α} {catalog : Catalog} {txnStart : Int}
  {name : String}

-- What becomes of a listing of the tables.
inductive ListOutcome (e : SchemaEntry) (catalog : Catalog) : Answer (List Nat) × SchemaEntry → Prop
  | cached (hl : e.tables.listed) :
    ListOutcome e catalog ({ result := .ok e.tables.visited, exchanges := [] }, e)
  | namespaceMissing {message : String} (hl : ¬e.tables.listed)
      (hc : catalog.listTables (getNamespace e.name) = .error ⟨.noSuchNamespace, message⟩) :
    ListOutcome e catalog ({
      result    := .ok []
      exchanges := [.listTables (getNamespace e.name) (.error ⟨.noSuchNamespace, message⟩)]
    }, e.markNamespaceMissing)
  | failed {error : Error} {exception : Exception} (hl : ¬e.tables.listed)
      (hc : catalog.listTables (getNamespace e.name) = .error error)
      (hk : error.kind ≠ .noSuchNamespace) :
    ListOutcome e catalog ({
      result    := .error exception
      exchanges := [.listTables (getNamespace e.name) (.error error)]
    }, e)
  | listed {children : List TableIdentifier} (hl : ¬e.tables.listed)
      (hc : catalog.listTables (getNamespace e.name) = .ok children) :
    ListOutcome e catalog ({
      result    := .ok (e.tables.list (children.map TableIdentifier.name)).visited
      exchanges := [.listTables (getNamespace e.name) (.ok children)]
    }, { e with tables := e.tables.list (children.map TableIdentifier.name) })

-- What becomes of loading a table.
inductive LoadOutcome (e : SchemaEntry) (catalog : Catalog) (txnStart : Int) (name : String) :
    Answer (Option Nat) × SchemaEntry → Prop
  | absentNamespace {message : String} (hc : catalog.loadTable (getTableIdentifier e.name name) =
        .error ⟨.noSuchNamespace, message⟩) :
    LoadOutcome e catalog txnStart name ({
      result    := .ok none
      exchanges :=
        [.loadTable (getTableIdentifier e.name name) (.error ⟨.noSuchNamespace, message⟩)]
    }, { e with namespaceMissing := true, tables := e.tables.markMissing name })
  | absent {message : String}
      (hc : catalog.loadTable (getTableIdentifier e.name name) = .error ⟨.noSuchTable, message⟩) :
    LoadOutcome e catalog txnStart name ({
      result    := .ok none
      exchanges := [.loadTable (getTableIdentifier e.name name) (.error ⟨.noSuchTable, message⟩)]
    }, { e with tables := e.tables.markMissing name })
  | failed {error : Error} {exception : Exception}
      (hc : catalog.loadTable (getTableIdentifier e.name name) = .error error)
      (hk : error.kind ≠ .noSuchNamespace ∧ error.kind ≠ .noSuchTable) :
    LoadOutcome e catalog txnStart name ({
      result    := .error exception
      exchanges := [.loadTable (getTableIdentifier e.name name) (.error error)]
    }, e)
  | unreadable {table : Table} {exception : Exception}
      (hc : catalog.loadTable (getTableIdentifier e.name name) = .ok table)
      (he : resolveScanInfo txnStart table e.name name >>= (createTableEntry · name) =
        .error exception) :
    LoadOutcome e catalog txnStart name ({
      result    := .error exception
      exchanges := [.loadTable (getTableIdentifier e.name name) (.ok table)]
    }, e)
  | loaded {table : Table} {entry : TableEntry}
      (hc : catalog.loadTable (getTableIdentifier e.name name) = .ok table)
      (hl : entry.LoadedFrom name table) :
    LoadOutcome e catalog txnStart name ({
      result    := .ok (some e.tables.entries.length)
      exchanges := [.loadTable (getTableIdentifier e.name name) (.ok table)]
    }, { e with tables := e.tables.store entry })

theorem scanTables_outcome : ListOutcome e catalog (e.scanTables catalog) := by
  rw [scanTables, listTables]
  split
  case isTrue hl => exact .cached hl
  case isFalse hl =>
    dsimp only
    cases hc : catalog.listTables (getNamespace e.name)
    case ok children => exact .listed hl hc
    case error error =>
      let ⟨kind, message⟩ := error
      cases kind
      case noSuchNamespace => exact .namespaceMissing hl hc
      case noSuchTable     => exact .failed hl hc nofun
      case notImplemented  => exact .failed hl hc nofun
      case other           => exact .failed hl hc nofun

theorem loadTableEntry_outcome :
    LoadOutcome e catalog txnStart name (e.loadTableEntry catalog txnStart name) := by
  rw [loadTableEntry]
  dsimp only
  cases hc : catalog.loadTable (getTableIdentifier e.name name)
  case error error =>
    let ⟨kind, message⟩ := error
    cases kind
    case noSuchNamespace => exact .absentNamespace hc
    case noSuchTable     => exact .absent hc
    case notImplemented  => exact .failed hc ⟨nofun, nofun⟩
    case other           => exact .failed hc ⟨nofun, nofun⟩
  case ok table =>
    simp only
    split
    case h_1 exception he => exact .unreadable hc he
    case h_2 entry he     =>
      have ⟨info, hi, he⟩ := Except.bind_eq_ok_iff.mp he
      have ⟨hn, hinfo, _⟩ := createTableEntry_ok he
      exact .loaded hc { name := hn, table := ⟨info, hinfo, resolveScanInfo_table hi⟩ }

theorem scanTables_step : Step e (e.scanTables catalog).1 (e.scanTables catalog).2 := by
  have hlist := @scanTables_outcome e catalog
  generalize e.scanTables catalog = outcome at hlist ⊢
  cases hlist
  case cached           => exact .cached rfl
  case namespaceMissing => exact .namespaceMissing rfl
  case failed           => exact .failed rfl
  case listed           => exact .listed rfl

theorem scan_cases (e : SchemaEntry) (catalog : Catalog) (type : CatalogType) :
    e.scan catalog type = ({ result := .ok [], exchanges := [] }, e) ∨
    ¬e.namespaceMissing ∧ e.scan catalog type = e.scanTables catalog := by
  rw [scan]
  split
  case isTrue => exact .inl rfl
  case isFalse =>
    split
    case isTrue     => exact .inl rfl
    case isFalse hm => exact .inr ⟨hm, rfl⟩

theorem scan_step {type : CatalogType} : Step e (e.scan catalog type).1 (e.scan catalog type).2 := by
  cases scan_cases e catalog type
  case inl h => exact h ▸ .cached rfl
  case inr h => exact h.right ▸ scanTables_step

theorem loadTableEntry_step (hs : ¬(e.tables.status name).isSettled) :
    Step e (e.loadTableEntry catalog txnStart name).1
      (e.loadTableEntry catalog txnStart name).2 := by
  have hload := @loadTableEntry_outcome e catalog txnStart name
  generalize e.loadTableEntry catalog txnStart name = outcome at hload ⊢
  cases hload
  case absentNamespace => exact .absentNamespace hs rfl
  case absent          => exact .absent hs rfl
  case failed          => exact .failed rfl
  case unreadable      => exact .failed rfl
  case loaded hl       => exact .loaded hs rfl hl

-- Looking up a settled table takes no exchange, looking up any other table loads it.
theorem lookupEntry_eq : e.lookupEntry catalog txnStart .tableEntry name =
    match e.tables.status name with
    | .absent   => ({ result := .ok none, exchanges := [] }, e)
    | .loaded r => ({ result := .ok (some r), exchanges := [] }, e)
    | _         => e.loadTableEntry catalog txnStart name := by
  rw [lookupEntry, TableRegistry.status, if_neg (by simp)]
  cases e.tables.lookup name
  case positive r => cases h : e.tables.needsLoad r <;> simp [h]
  all_goals rfl

theorem lookupEntry_step {type : CatalogType} :
    Step e (e.lookupEntry catalog txnStart type name).1
      (e.lookupEntry catalog txnStart type name).2 := by
  by_cases ht : type = .tableEntry
  case neg =>
    rw [lookupEntry, if_pos ht]
    exact .cached rfl
  case pos =>
    rw [ht, lookupEntry_eq]
    cases hs : e.tables.status name
    case absent      => exact .cached rfl
    case loaded      => exact .cached rfl
    case unknown     => exact loadTableEntry_step (hs ▸ nofun)
    case placeholder => exact loadTableEntry_step (hs ▸ nofun)

theorem Step.map {β : Type} {e' : SchemaEntry} (f : α → β) (h : Step e answer e') :
    Step e { answer with result := f <$> answer.result } e' := by
  cases h
  case cached h                => exact .cached h
  case failed h                => exact .failed (congrArg (f <$> ·) h)
  case namespaceMissing h      => exact .namespaceMissing h
  case listed h                => exact .listed h
  case absent hs h             => exact .absent hs h
  case absentNamespace hs h    => exact .absentNamespace hs h
  case loaded hs h hl          => exact .loaded hs h hl

theorem perform_step {op : Op} :
    Step e (e.perform catalog txnStart op).1 (e.perform catalog txnStart op).2 := by
  cases op
  case scan        => exact scan_step
  case scanTables  => exact scanTables_step
  case lookupEntry => exact lookupEntry_step.map _

theorem scanTables_exchanges {x : Exchange} (h : x ∈ (e.scanTables catalog).1.exchanges) :
    x = .listTables (getNamespace e.name) (catalog.listTables (getNamespace e.name)) := by
  have hlist := @scanTables_outcome e catalog
  generalize e.scanTables catalog = outcome at hlist h
  cases hlist
  case cached                => exact nomatch h
  case namespaceMissing hc   => exact hc ▸ List.mem_singleton.mp h
  case failed hc _           => exact hc ▸ List.mem_singleton.mp h
  case listed hc             => exact hc ▸ List.mem_singleton.mp h

theorem loadTableEntry_exchanges : (e.loadTableEntry catalog txnStart name).1.exchanges =
    [.loadTable (getTableIdentifier e.name name)
      (catalog.loadTable (getTableIdentifier e.name name))] := by
  have hload := @loadTableEntry_outcome e catalog txnStart name
  generalize e.loadTableEntry catalog txnStart name = outcome at hload ⊢
  cases hload
  case absentNamespace hc => rw [hc]
  case absent hc          => rw [hc]
  case failed hc _        => rw [hc]
  case unreadable hc _    => rw [hc]
  case loaded hc _        => rw [hc]

-- Schema entries ask about their own namespace and its tables only.
theorem perform_exchanges {op : Op} {x : Exchange}
    (h : x ∈ (e.perform catalog txnStart op).1.exchanges) :
    x = .listTables (getNamespace e.name) (catalog.listTables (getNamespace e.name)) ∨
    ∃ name, x = .loadTable (getTableIdentifier e.name name)
      (catalog.loadTable (getTableIdentifier e.name name)) := by
  cases op
  case scan type =>
    rw [perform] at h
    cases scan_cases e catalog type
    case inl hs => exact nomatch hs ▸ h
    case inr hs => exact .inl <| scanTables_exchanges (hs.right ▸ h)
  case scanTables => exact .inl <| scanTables_exchanges h
  case lookupEntry type name =>
    replace h : x ∈ (e.lookupEntry catalog txnStart type name).1.exchanges := h
    by_cases ht : type = .tableEntry
    case neg =>
      rw [lookupEntry, if_pos ht] at h
      exact nomatch h
    case pos =>
      rw [ht, lookupEntry_eq] at h
      split at h
      case h_1 => exact nomatch h
      case h_2 => exact nomatch h
      case h_3 => exact .inr ⟨name, List.mem_singleton.mp <| loadTableEntry_exchanges ▸ h⟩

-- What can become of a schema entry over time.
structure Evolves (e e' : SchemaEntry) : Prop where
  name    : e'.name = e.name
  missing : e.namespaceMissing → e'.namespaceMissing
  entries : e.tables.entries <+: e'.tables.entries
  settled : ∀ n, (e.tables.status n).isSettled → e'.tables.status n = e.tables.status n
  listed  : e.tables.listed → e'.tables.listed

namespace Evolves

variable {e' e'' : SchemaEntry}

theorem refl : Evolves e e where
  name    := rfl
  missing := id
  entries := List.prefix_rfl
  settled := fun _ _ => rfl
  listed  := id

theorem trans (h : Evolves e e') (h' : Evolves e' e'') : Evolves e e'' where
  name    := h'.name.trans h.name
  missing := h'.missing ∘ h.missing
  entries := h.entries.trans h'.entries
  settled := fun n hs => (h'.settled n (h.settled n hs ▸ hs)).trans (h.settled n hs)
  listed  := h'.listed ∘ h.listed

theorem getElem?_entries {i : Nat} {entry : TableEntry} (h : Evolves e e')
    (he : e.tables.entries[i]? = some entry) : e'.tables.entries[i]? = some entry := by
  have ⟨new, hnew⟩ := h.entries
  have hi := (List.getElem?_eq_some_iff.mp he).1
  rw [← hnew, List.getElem?_append_left hi, he]

theorem markNamespaceMissing : Evolves e e.markNamespaceMissing :=
  { refl with missing := fun _ => rfl }

end Evolves

-- An update of the status of a table that is not settled yet.
theorem Evolves.tables {tables : TableRegistry} {s : TableStatus}
    (hn : ¬(e.tables.status name).isSettled)
    (hs : tables.status = Function.update e.tables.status name s)
    (he : e.tables.entries <+: tables.entries) (hl : e.tables.listed → tables.listed) :
    Evolves e { e with tables } where
  name    := rfl
  missing := id
  entries := he
  settled := by
    intro n hsettled
    have hne : n ≠ name := fun hname => hn (hname ▸ hsettled)
    exact hs ▸ Function.update_of_ne hne _ _
  listed  := hl

theorem Step.evolves {e' : SchemaEntry} (h : Step e answer e') : Evolves e e' := by
  cases h
  case cached           => exact .refl
  case failed           => exact .refl
  case namespaceMissing => exact .markNamespaceMissing
  case listed =>
    exact {
      name    := rfl
      missing := id
      entries := TableRegistry.entries_list_prefix
      settled := fun n hs => TableRegistry.status_list_of_known fun hu => nomatch hu ▸ hs
      listed  := fun _ => TableRegistry.listed_list
    }
  case absent hs _ =>
    exact .tables hs (TableRegistry.status_markMissing ..) List.prefix_rfl id
  case absentNamespace hs _ =>
    have htables := Evolves.tables hs (TableRegistry.status_markMissing ..) List.prefix_rfl id
    exact htables.trans .markNamespaceMissing
  case loaded hs _ hl =>
    exact .tables (hl.name ▸ hs) (TableRegistry.status_store ..) (List.prefix_append ..) id

end SchemaEntry

end ProtoIceberg
