import Mathlib.Data.Set.Basic
import ProtoIceberg.Catalog.Theorems.Listing
import ProtoIceberg.Catalog.Theorems.Settled

namespace ProtoIceberg

-- What a catalog holds: the single-level namespaces at its root, and the names of their tables.
structure Contents where
  namespaces : Set String
  tables     : String → Set String
  closed     : ∀ s t, t ∈ tables s → s ∈ namespaces

-- The catalog's answers are consistent with the contents, whose tables all load in a transaction that
-- starts at the given time.
structure Catalog.Serves (catalog : Catalog) (contents : Contents) (txnStart : Int) : Prop where
  listNamespaces : ∃ namespaces, catalog.listNamespaces { levels := [] } = .ok namespaces ∧
    ∀ s, getNamespace s ∈ namespaces ↔ s ∈ contents.namespaces
  listTables     : ∀ s,
    (∃ children, catalog.listTables (getNamespace s) = .ok children ∧
      ∀ t, t ∈ children.map TableIdentifier.name ↔ t ∈ contents.tables s) ∨
    (∃ message, catalog.listTables (getNamespace s) = .error ⟨.noSuchNamespace, message⟩) ∧
      s ∉ contents.namespaces
  loadTable      : ∀ s t, t ∈ contents.tables s →
    ∃ table, catalog.loadTable (getTableIdentifier s t) = .ok table ∧
    ∃ info, resolveScanInfo txnStart table s t = .ok info ∧
    ∃ entry, createTableEntry info t = .ok entry
  missing        : ∀ s t, t ∉ contents.tables s →
    (∃ message, catalog.loadTable (getTableIdentifier s t) = .error ⟨.noSuchTable, message⟩) ∨
    (∃ message, catalog.loadTable (getTableIdentifier s t) = .error ⟨.noSuchNamespace, message⟩) ∧
      s ∉ contents.namespaces

-- An exchange with the catalog. Its namespaces are only ever listed at the root.
def Exchange.With (catalog : Catalog) : Exchange → Prop
  | .listNamespaces ns answer => ns = { levels := [] } ∧ answer = catalog.listNamespaces ns
  | .listTables ns answer     => answer = catalog.listTables ns
  | .loadTable id answer      => answer = catalog.loadTable id

-- What is shown are the given names, each once and in ascending order.
structure Shows (name? : Nat → Option String) (refs : List Nat) (names : Set String) : Prop where
  ordered  : refs.Pairwise fun r r' => ∃ n n', name? r = some n ∧ name? r' = some n' ∧ n < n'
  sound    : ∀ r ∈ refs, ∃ n ∈ names, name? r = some n
  complete : ∀ n ∈ names, ∃ r ∈ refs, name? r = some n

theorem Shows.empty {name? : Nat → Option String} {names : Set String} (h : ∀ n, n ∉ names) :
    Shows name? [] names where
  ordered  := .nil
  sound    := nofun
  complete := fun n hn => absurd hn (h n)

namespace TableRegistry

variable {registry : TableRegistry} {name : String} {i : Nat}

-- The name of an entry.
def name? (registry : TableRegistry) (i : Nat) : Option String :=
  registry.entries[i]?.map TableEntry.name

theorem name?_of_lookup (h : registry.lookup name = .positive i) : registry.name? i = some name := by
  obtain ⟨entry, he, hn⟩ := registry.valid name i h
  simp [name?, he, hn]

theorem name?_of_visits (h : (registry.status name).visits i) : registry.name? i = some name :=
  name?_of_lookup <| visits_status_iff.mp h

theorem visited_ordered : registry.visited.Pairwise fun i i' =>
    ∃ n n', registry.name? i = some n ∧ registry.name? i' = some n' ∧ n < n' := by
  rw [visited, List.pairwise_map]
  refine SignedStore.positives_ordered.imp_of_mem ?_
  rintro ⟨n, i⟩ ⟨n', i'⟩ hi hi' hlt
  exact ⟨n, n', name?_of_lookup (SignedStore.mem_positives_iff.mp hi),
    name?_of_lookup (SignedStore.mem_positives_iff.mp hi'), compare_lt_iff_lt.mp hlt⟩

end TableRegistry

section

variable {contents : Contents} {catalog : Catalog} {txnStart : Int} {s t : String}

namespace Catalog.Serves

theorem not_mem_of_denies (hc : catalog.Serves contents txnStart) {x : Exchange}
    (hx : x.With catalog) (hd : x.Denies s) : s ∉ contents.namespaces := by
  cases x
  case listNamespaces ns answer =>
    have ⟨namespaces, hl, hiff⟩ := hc.listNamespaces
    have ⟨hroot, hans⟩ := hx
    rw [hroot, hl] at hans
    subst hans
    exact (hiff s).not.mp hd
  case listTables ns answer =>
    cases answer
    case ok => exact hd.elim
    case error error =>
      have ⟨hns, _⟩ := hd
      have hans : .error error = catalog.listTables ns := hx
      rw [hns] at hans
      cases hc.listTables s
      case inl h =>
        have ⟨_, h, _⟩ := h
        exact nomatch hans.trans h
      case inr h => exact h.right
  case loadTable id answer =>
    cases answer
    case ok => exact hd.elim
    case error error =>
      have ⟨hns, hkind⟩ := hd
      have hans : .error error = catalog.loadTable (getTableIdentifier s id.name) := by
        rw [getTableIdentifier, ← hns]
        exact hx
      by_cases ht : id.name ∈ contents.tables s
      case pos =>
        have ⟨_, h, _⟩ := hc.loadTable s id.name ht
        exact nomatch hans.trans h
      case neg =>
        cases hc.missing s id.name ht
        case inr h => exact h.right
        case inl h =>
          have ⟨_, h⟩ := h
          cases hans.trans h
          exact nomatch hkind

theorem mem_of_loadTable (hc : catalog.Serves contents txnStart) {table : Table}
    (h : catalog.loadTable (getTableIdentifier s t) = .ok table) : t ∈ contents.tables s := by
  by_contra ht
  cases hc.missing s t ht
  case inl hm =>
    have ⟨_, hm⟩ := hm
    exact nomatch hm.symm.trans h
  case inr hm =>
    have ⟨⟨_, hm⟩, _⟩ := hm
    exact nomatch hm.symm.trans h

theorem not_mem_of_loadTable (hc : catalog.Serves contents txnStart) {error : Error}
    (h : catalog.loadTable (getTableIdentifier s t) = .error error) : t ∉ contents.tables s := by
  intro ht
  have ⟨_, hl, _⟩ := hc.loadTable s t ht
  exact nomatch hl.symm.trans h

theorem mem_of_listTables (hc : catalog.Serves contents txnStart) {children : List TableIdentifier}
    (h : catalog.listTables (getNamespace s) = .ok children) :
    t ∈ children.map TableIdentifier.name ↔ t ∈ contents.tables s := by
  cases hc.listTables s
  case inl hl =>
    have ⟨_, hl, hiff⟩ := hl
    cases hl.symm.trans h
    exact hiff t
  case inr hl =>
    have ⟨⟨_, hl⟩, _⟩ := hl
    exact nomatch hl.symm.trans h

end Catalog.Serves

-- What is known of a table agrees with whether it exists.
def TableStatus.Agrees (present : Prop) : TableStatus → Prop
  | .unknown                  => True
  | .absent                   => ¬present
  | .placeholder _ | .loaded _ => present

namespace SchemaEntry

-- Whatever a schema entry knows is right, and it knows all tables once they have been listed.
structure Agrees (contents : Contents) (e : SchemaEntry) : Prop where
  missing : e.namespaceMissing → e.name ∉ contents.namespaces
  status  : ∀ t, (e.tables.status t).Agrees (t ∈ contents.tables e.name)
  listed  : e.tables.listed → ∀ t ∈ contents.tables e.name, e.tables.status t ≠ .unknown

variable {α : Type} {e e' : SchemaEntry} {answer : Answer α}

theorem perform_with {op : Op} {x : Exchange}
    (h : x ∈ (e.perform catalog txnStart op).1.exchanges) : x.With catalog := by
  cases perform_exchanges h
  case inl h => exact h ▸ rfl
  case inr h =>
    have ⟨_, h⟩ := h
    exact h ▸ rfl

-- What settling a table does to an entry that agrees.
theorem Agrees.settle (h : e.Agrees contents) {status : TableStatus} (hname : e'.name = e.name)
    (hm : e'.namespaceMissing → e.name ∉ contents.namespaces)
    (hl : e'.tables.listed = e.tables.listed)
    (hs : e'.tables.status = Function.update e.tables.status t status)
    (hagrees : status.Agrees (t ∈ contents.tables e.name)) (hk : status ≠ .unknown) :
    e'.Agrees contents where
  missing := hname ▸ hm
  status  := by
    intro n
    rw [hname, hs]
    by_cases hn : n = t
    case pos => rwa [hn, Function.update_self]
    case neg => rw [Function.update_of_ne hn]; exact h.status n
  listed  := by
    intro hlisted n hmem
    rw [hs]
    by_cases hn : n = t
    case pos => rwa [hn, Function.update_self]
    case neg => rw [Function.update_of_ne hn]; exact h.listed (hl ▸ hlisted) n (hname ▸ hmem)

theorem Agrees.list (h : e.Agrees contents) {names : List String}
    (hnames : ∀ t, t ∈ names ↔ t ∈ contents.tables e.name) :
    Agrees contents { e with tables := e.tables.list names } where
  missing := h.missing
  status  := by
    intro t
    dsimp only
    by_cases hu : e.tables.status t = .unknown
    case neg => exact (TableRegistry.status_list_of_known hu).symm ▸ h.status t
    case pos =>
      by_cases hn : t ∈ names
      case neg => exact (TableRegistry.status_list_of_not_mem hn).symm ▸ h.status t
      case pos =>
        have ⟨_, hs⟩ := TableRegistry.status_list_of_mem hu hn
        rw [hs]
        exact (hnames t).mp hn
  listed  := by
    intro _ t ht
    by_cases hu : e.tables.status t = .unknown
    case neg => exact TableRegistry.status_list_of_known hu ▸ hu
    case pos =>
      have ⟨_, hs⟩ := TableRegistry.status_list_of_mem hu ((hnames t).mpr ht)
      exact hs ▸ nofun

theorem Agrees.markNamespaceMissing (h : e.Agrees contents) (hn : e.name ∉ contents.namespaces) :
    e.markNamespaceMissing.Agrees contents where
  missing := fun _ => hn
  status  := h.status
  listed  := h.listed

theorem Step.agrees (hstep : Step e answer e') (hc : catalog.Serves contents txnStart)
    (hx : ∀ x ∈ answer.exchanges, x.With catalog) (h : e.Agrees contents) :
    e'.Agrees contents := by
  cases hstep
  case cached => exact h
  case failed => exact h
  case namespaceMissing hans =>
    rw [hans] at hx
    exact h.markNamespaceMissing <| hc.not_mem_of_denies (hx _ (.head _)) ⟨rfl, rfl⟩
  case listed hans =>
    rw [hans] at hx
    exact h.list fun t => hc.mem_of_listTables (hx _ (.head _)).symm
  case absent hans =>
    rw [hans] at hx
    have ht := hc.not_mem_of_loadTable (hx _ (.head _)).symm
    exact h.settle rfl h.missing rfl (TableRegistry.status_markMissing _ _) ht nofun
  case absentNamespace hans =>
    rw [hans] at hx
    have ht := hc.not_mem_of_loadTable (hx _ (.head _)).symm
    have hn := hc.not_mem_of_denies (s := e.name) (hx _ (.head _)) ⟨rfl, rfl⟩
    exact h.settle rfl (fun _ => hn) rfl (TableRegistry.status_markMissing _ _) ht nofun
  case loaded hans hl =>
    rw [hans] at hx
    have ht := hc.mem_of_loadTable (hx _ (.head _)).symm
    refine h.settle rfl h.missing rfl (TableRegistry.status_store _ _) (hl.name ▸ ?_) ?_
    all_goals rw [if_neg hl.not_needsLoad]
    case refine_1 => exact ht
    case refine_2 => exact nofun

-- Looking up a table finds it exactly if it exists.
theorem loadTableEntry_of_agrees (hc : catalog.Serves contents txnStart) :
    ∃ r, (e.loadTableEntry catalog txnStart t).1.result = .ok r ∧
      (r.isSome ↔ t ∈ contents.tables e.name) := by
  rw [loadTableEntry]
  dsimp only
  by_cases ht : t ∈ contents.tables e.name
  case pos =>
    obtain ⟨table, hl, info, hi, entry, he⟩ := hc.loadTable e.name t ht
    refine ⟨some e.tables.entries.length, ?_, iff_of_true rfl ht⟩
    have hentry : (resolveScanInfo txnStart table e.name t >>= (createTableEntry · t)) = .ok entry :=
      Except.bind_eq_ok_iff.mpr ⟨info, hi, he⟩
    simp [hl, hentry]
  case neg =>
    refine ⟨none, ?_, iff_of_false (by simp) ht⟩
    cases hc.missing e.name t ht
    case inl hm =>
      obtain ⟨_, hm⟩ := hm
      rw [hm]
    case inr hm =>
      obtain ⟨⟨_, hm⟩, _⟩ := hm
      rw [hm]

theorem lookupEntry_of_agrees (h : e.Agrees contents) (hc : catalog.Serves contents txnStart) :
    ∃ r, (e.lookupEntry catalog txnStart .tableEntry t).1.result = .ok r ∧
      (r.isSome ↔ t ∈ contents.tables e.name) := by
  rw [lookupEntry_eq]
  have hs := h.status t
  cases hstatus : e.tables.status t
  case unknown     => exact loadTableEntry_of_agrees hc
  case placeholder => exact loadTableEntry_of_agrees hc
  case loaded i =>
    rw [hstatus] at hs
    exact ⟨some i, rfl, iff_of_true rfl hs⟩
  case absent =>
    rw [hstatus] at hs
    exact ⟨none, rfl, iff_of_false nofun hs⟩

-- The tables that are shown, in a state that knows them all.
theorem Agrees.shows_visited (h : e.Agrees contents)
    (hk : ∀ t ∈ contents.tables e.name, e.tables.status t ≠ .unknown) :
    Shows e.tables.name? e.tables.visited (contents.tables e.name) where
  ordered  := TableRegistry.visited_ordered
  sound    := by
    intro i hi
    have ⟨t, hv⟩ := TableRegistry.mem_visited_iff.mp hi
    have hs := h.status t
    refine ⟨t, ?_, TableRegistry.name?_of_visits hv⟩
    cases hstatus : e.tables.status t
    case unknown     => rw [hstatus] at hv; exact hv.elim
    case absent      => rw [hstatus] at hv; exact hv.elim
    case placeholder => rwa [hstatus] at hs
    case loaded      => rwa [hstatus] at hs
  complete := by
    intro t ht
    have hs := h.status t
    suffices hv : ∃ i, (e.tables.status t).visits i by
      have ⟨i, hv⟩ := hv
      exact ⟨i, TableRegistry.mem_visited_iff.mpr ⟨t, hv⟩, TableRegistry.name?_of_visits hv⟩
    cases hstatus : e.tables.status t
    case unknown       => exact absurd hstatus (hk t ht)
    case absent        => rw [hstatus] at hs; exact absurd ht hs
    case placeholder i => exact ⟨i, rfl⟩
    case loaded i      => exact ⟨i, rfl⟩

theorem scanTables_of_agrees (h : e.Agrees contents) (hc : catalog.Serves contents txnStart) :
    ∃ refs, (e.scanTables catalog).1.result = .ok refs ∧
      Shows (e.scanTables catalog).2.tables.name? refs (contents.tables e.name) := by
  rw [scanTables, listTables]
  split
  case isTrue hl => exact ⟨_, rfl, h.shows_visited (h.listed hl)⟩
  case isFalse =>
    dsimp only
    cases hc.listTables e.name
    case inl hl =>
      obtain ⟨children, hl, hnames⟩ := hl
      have hlist := h.list hnames
      rw [hl]
      exact ⟨_, rfl, hlist.shows_visited <| hlist.listed TableRegistry.listed_list⟩
    case inr hl =>
      obtain ⟨⟨_, hl⟩, hn⟩ := hl
      rw [hl]
      exact ⟨[], rfl, .empty fun t ht => hn <| contents.closed e.name t ht⟩

theorem scan_of_agrees (h : e.Agrees contents) (hc : catalog.Serves contents txnStart) :
    ∃ refs, (e.scan catalog .tableEntry).1.result = .ok refs ∧
      Shows (e.scan catalog .tableEntry).2.tables.name? refs (contents.tables e.name) := by
  rw [scan, if_neg (by simp)]
  split
  case isTrue hm => exact ⟨[], rfl, .empty fun t ht => h.missing hm <| contents.closed e.name t ht⟩
  case isFalse   => exact scanTables_of_agrees h hc

end SchemaEntry

namespace Transaction

variable {txn txn' : Transaction} {exchanges : List Exchange} {r : Nat} {e : SchemaEntry}
  {defaultSchema : String} {ifNotFound : OnEntryNotFound}

-- Whatever a transaction knows is right, and it knows all schemas once they have been listed.
structure Agrees (contents : Contents) (txn : Transaction) : Prop where
  entries : ∀ (r : Nat) (e : SchemaEntry), txn.heap[r]? = some e → e.Agrees contents
  listed  : txn.listed → ∃ namespaces, Listed namespaces txn ∧
    ∀ s, getNamespace s ∈ namespaces ↔ s ∈ contents.namespaces

theorem Step.with (hstep : Step txn catalog exchanges txn') {x : Exchange} (hx : x ∈ exchanges) :
    x.With catalog := by
  cases hstep
  case unchanged    => exact nomatch hx
  case stored       => exact nomatch hx
  case failed hc    => exact List.mem_singleton.mp hx ▸ ⟨rfl, hc.symm⟩
  case listed _ hc  => exact List.mem_singleton.mp hx ▸ ⟨rfl, hc.symm⟩
  case performed r op =>
    cases he : txn.heap[r]?
    case none => simp [perform, he] at hx
    case some e =>
      rw [perform_answer he] at hx
      exact SchemaEntry.perform_with hx

theorem Step.agrees_entry (hstep : Step txn catalog exchanges txn')
    (hc : catalog.Serves contents txnStart) (h : txn.Agrees contents) (he : txn'.heap[r]? = some e) :
    e.Agrees contents := by
  have denied {name : String} (hd : ∃ x ∈ exchanges, x.Denies name) :
      name ∉ contents.namespaces := by
    have ⟨x, hx, hd⟩ := hd
    exact hc.not_mem_of_denies (hstep.with hx) hd
  cases hstep.entry he
  case created ht hm =>
    exact {
      missing := fun hmissing => denied (hm hmissing)
      status  := fun t => by rw [ht, TableRegistry.status_empty]; trivial
      listed  := fun hl => nomatch ht ▸ hl
    }
  case kept e₀ he₀ hn ht hm =>
    have h₀ := h.entries r e₀ he₀
    exact {
      missing := fun hmissing => hn ▸ (hm hmissing).elim h₀.missing denied
      status  := hn ▸ ht ▸ h₀.status
      listed  := hn ▸ ht ▸ h₀.listed
    }
  case performed e₀ answer he₀ hx hs =>
    exact hs.agrees hc (fun x hmem => hstep.with (hx ▸ hmem)) (h.entries r e₀ he₀)

theorem Step.agrees (hstep : Step txn catalog exchanges txn')
    (hc : catalog.Serves contents txnStart) (h : txn.Agrees contents) : txn'.Agrees contents where
  entries := fun r e he => hstep.agrees_entry hc h he
  listed  := by
    intro hl'
    by_cases hl : txn.listed
    case pos =>
      have ⟨namespaces, hlisted, hiff⟩ := h.listed hl
      exact ⟨namespaces, hlisted.evolves hstep.evolves, hiff⟩
    case neg =>
      cases hstep
      case unchanged => exact absurd hl' hl
      case failed    => exact absurd hl' hl
      case stored    => exact absurd hl' hl
      case performed => exact absurd hl' hl
      case listed namespaces _ hlist =>
        have ⟨_, hlist', hiff⟩ := hc.listNamespaces
        cases hlist.symm.trans hlist'
        exact ⟨namespaces, .of_list, hiff⟩

theorem Agrees.run {duckdbTimestamp : Int} {is : List (Catalog × Op)} (h : txn.Agrees contents)
    (hserves : ∀ i ∈ is, i.1.Serves contents txnStart) :
    ((machine duckdbTimestamp defaultSchema).run txn is).Agrees contents :=
  Machine.run_induction (fun _ _ hc h => machine_step.agrees hc h) h hserves

theorem Agrees.start {duckdbTimestamp : Int} : (start duckdbTimestamp).Agrees contents where
  entries := fun _ _ he => nomatch he
  listed  := fun hl => nomatch hl

theorem Agrees.shows_visited (h : txn.Agrees contents) (hl : txn.listed) :
    Shows txn.name? txn.visited contents.namespaces := by
  obtain ⟨namespaces, hlisted, hiff⟩ := h.listed hl
  exact {
    ordered  := visited_ordered
    sound    := by
      intro r hr
      obtain ⟨⟨n, hn⟩, hm⟩ := mem_visited_iff.mp hr
      refine ⟨n, ?_, name?_of_stored hn⟩
      by_contra hns
      exact hm <| hlisted.missing n r hn ((hiff n).not.mpr hns)
    complete := by
      intro n hn
      obtain ⟨r, hr⟩ := Option.isSome_iff_exists.mp <| hlisted.stored n ((hiff n).mpr hn)
      obtain ⟨e, he, hname⟩ := txn.valid n r hr
      refine ⟨r, mem_visited_iff.mpr ⟨⟨n, hr⟩, ?_⟩, name?_of_stored hr⟩
      rw [isNamespaceMissing_eq he]
      exact fun hm => (h.entries r e he).missing hm (hname ▸ hn)
  }

theorem scanSchemas_of_agrees (h : txn.Agrees contents) (hc : catalog.Serves contents txnStart) :
    ∃ refs, (txn.scanSchemas catalog).1.result = .ok refs ∧
      Shows (txn.scanSchemas catalog).2.name? refs contents.namespaces := by
  have ⟨namespaces, hl, _⟩ := hc.listNamespaces
  have hagrees := scanSchemas_step.agrees hc h
  have hlist := @scanSchemas_outcome txn catalog
  generalize txn.scanSchemas catalog = outcome at hlist hagrees ⊢
  cases hlist
  case cached hlisted => exact ⟨_, rfl, hagrees.shows_visited hlisted⟩
  case failed herror  => exact nomatch hl.symm.trans herror
  case listed         => exact ⟨_, rfl, hagrees.shows_visited rfl⟩

-- A schema that is not found does not exist.
theorem lookupSchema_of_agrees (h : txn.Agrees contents) :
    let lookup := txn.lookupSchema defaultSchema s ifNotFound
    let name := redirect defaultSchema s
    lookup.1 = schemaNotFound name ifNotFound ∧ name ∉ contents.namespaces ∨
    ∃ r, lookup.1 = .ok (some r) ∧ lookup.2.name? r = some name := by
  intro lookup name
  cases hr : txn.schemas[name]?
  case some r =>
    obtain ⟨e, he, hname⟩ := txn.valid name r hr
    cases hm : txn.isNamespaceMissing r
    case false =>
      have hl : lookup = (.ok (some r), txn) := lookupSchema_of_known hr (by simp [hm])
      exact .inr ⟨r, congrArg Prod.fst hl, hl ▸ name?_of_stored hr⟩
    case true =>
      refine .inl ⟨?_, hname ▸ (h.entries r e he).missing (isNamespaceMissing_eq he ▸ hm)⟩
      simp only [lookup, lookupSchema, hr, name, hm, if_true]
  case none =>
    cases hl : txn.listed
    case false =>
      have hl : lookup = (.ok (some txn.heap.length), txn.store name) := by
        simp [lookup, lookupSchema, hr, name, hl]
      exact .inr ⟨_, congrArg Prod.fst hl, hl ▸ name?_of_stored (by simp [store])⟩
    case true =>
      obtain ⟨_, hlisted, hiff⟩ := h.listed hl
      refine .inl ⟨by simp [lookup, lookupSchema, hr, name, hl], fun hn => ?_⟩
      have hs := hlisted.stored name ((hiff name).mpr hn)
      rw [hr] at hs
      cases hs

-- Looking up a table finds it, loaded, exactly if it is present.
def Finds (txn : Transaction) (catalog : Catalog) (r : Nat) (t : String) (present : Prop) : Prop :=
  let lookup := txn.perform catalog r (.lookupEntry .tableEntry t)
  ∃ found : Option Nat, lookup.1.map Answer.result = some (.ok found.toList) ∧
    (found.isSome ↔ present) ∧
    ∀ i ∈ found, ∃ e entry, lookup.2.heap[r]? = some e ∧ e.tables.entries[i]? = some entry ∧
      entry.name = t ∧ ¬entry.needsLoad

theorem Agrees.finds (h : txn.Agrees contents) (hc : catalog.Serves contents txn.startTimestampMs)
    (he : txn.heap[r]? = some e) : txn.Finds catalog r t (t ∈ contents.tables e.name) := by
  have ⟨found, hfound, hiff⟩ := SchemaEntry.lookupEntry_of_agrees (t := t) (h.entries r e he) hc
  have hstatus := SchemaEntry.lookupEntry_status hfound
  refine ⟨found, ?_, hiff, ?_⟩
  case refine_1 =>
    rw [perform_answer he]
    exact congrArg (some <| Option.toList <$> ·) hfound
  case refine_2 =>
    intro i hi
    cases hi
    have ⟨entry, hentry, hname, hload⟩ := TableRegistry.exists_entry_of_loaded hstatus
    exact ⟨_, entry, perform_heap he, hentry, hname, hload⟩

theorem Agrees.scan_shows (h : txn.Agrees contents)
    (hc : catalog.Serves contents txn.startTimestampMs) (he : txn.heap[r]? = some e)
    {op : SchemaEntry.Op} (hop : op ∈ [.scan .tableEntry, .scanTables]) :
    ∃ refs e', (txn.perform catalog r op).1.map Answer.result = some (.ok refs) ∧
      (txn.perform catalog r op).2.heap[r]? = some e' ∧
      Shows e'.tables.name? refs (contents.tables e.name) := by
  have ⟨refs, hrefs, hshows⟩ :
      ∃ refs, (e.perform catalog txn.startTimestampMs op).1.result = .ok refs ∧
        Shows (e.perform catalog txn.startTimestampMs op).2.tables.name? refs
          (contents.tables e.name) := by
    simp only [List.mem_cons, List.not_mem_nil, or_false] at hop
    cases hop
    case inl hop => exact hop ▸ SchemaEntry.scan_of_agrees (h.entries r e he) hc
    case inr hop => exact hop ▸ SchemaEntry.scanTables_of_agrees (h.entries r e he) hc
  refine ⟨refs, _, ?_, perform_heap he, hshows⟩
  rw [perform_answer he]
  exact congrArg some hrefs

theorem Evolves.name? (h : Evolves txn txn') {name : String} (hn : txn.name? r = some name) :
    ∃ e, txn'.heap[r]? = some e ∧ e.name = name := by
  have ⟨e, he, hname⟩ := Option.map_eq_some_iff.mp hn
  have ⟨e', he', hev⟩ := h.heap he
  exact ⟨e', he', hev.name.trans hname⟩

end Transaction

end

open Transaction

-- Whatever the order of operations, their answers are those that the catalog's contents give.
theorem catalog_cache_is_transparent (contents : Contents) (duckdbTimestamp : Int)
    (defaultSchema : String) (is is' : List (Catalog × Op)) (catalog : Catalog)
    (hserves : ∀ c ∈ catalog :: (is ++ is').map Prod.fst,
      c.Serves contents (startTimestampMs duckdbTimestamp)) :
    let m := machine duckdbTimestamp defaultSchema
    let txn := m.run m.init is
    (∀ s t ifNotFound,
      let lookup := txn.lookupSchema defaultSchema s ifNotFound
      let name := redirect defaultSchema s
      lookup.1 = schemaNotFound name ifNotFound ∧ name ∉ contents.namespaces ∨
      ∃ r, lookup.1 = .ok (some r) ∧
        (m.run lookup.2 is').Finds catalog r t (t ∈ contents.tables name)) ∧
    (∃ refs, (txn.scanSchemas catalog).1.result = .ok refs ∧
      Shows (txn.scanSchemas catalog).2.name? refs contents.namespaces) ∧
    ∀ (r : Nat) (e : SchemaEntry), txn.heap[r]? = some e →
      (∀ t, txn.Finds catalog r t (t ∈ contents.tables e.name)) ∧
      ∀ op ∈ [.scan .tableEntry, .scanTables], ∃ refs e',
        (txn.perform catalog r op).1.map Answer.result = some (.ok refs) ∧
        (txn.perform catalog r op).2.heap[r]? = some e' ∧
        Shows e'.tables.name? refs (contents.tables e.name) := by
  intro m txn
  have hc : catalog.Serves contents (startTimestampMs duckdbTimestamp) := hserves _ (.head _)
  have hagrees : txn.Agrees contents := by
    refine Agrees.start.run fun i hi => hserves i.1 ?_
    exact List.mem_cons_of_mem _ <| List.mem_map_of_mem <| List.mem_append_left _ hi
  have hstart : txn.startTimestampMs = startTimestampMs duckdbTimestamp := machine_run_evolves.start
  refine ⟨?resolves, scanSchemas_of_agrees hagrees hc, ?entries⟩
  case resolves =>
    intro s t ifNotFound lookup name
    have hlookup : lookup.1 = schemaNotFound name ifNotFound ∧ name ∉ contents.namespaces ∨
        ∃ r, lookup.1 = .ok (some r) ∧ lookup.2.name? r = some name := lookupSchema_of_agrees hagrees
    cases hlookup
    case inl h => exact .inl h
    case inr h =>
      have ⟨r, hr, hname⟩ := h
      have hev : lookup.2.Evolves (m.run lookup.2 is') := machine_run_evolves
      have ⟨e, he, hname⟩ := hev.name? hname
      have hlater : (m.run lookup.2 is').Agrees contents := by
        refine (lookupSchema_step.agrees hc hagrees).run fun i hi => hserves i.1 ?_
        exact List.mem_cons_of_mem _ <| List.mem_map_of_mem <| List.mem_append_right _ hi
      have hstart : (m.run lookup.2 is').startTimestampMs = startTimestampMs duckdbTimestamp :=
        (lookupSchema_evolves.trans hev).start.trans hstart
      have hname : e.name = name := hname
      exact .inr ⟨r, hr, hname ▸ hlater.finds (hstart ▸ hc) he⟩
  case entries =>
    intro r e he
    exact ⟨fun t => hagrees.finds (hstart ▸ hc) he,
      fun op hop => hagrees.scan_shows (hstart ▸ hc) he hop⟩

namespace Shop

def contents (namespaces : List String) : Contents where
  namespaces := { s | s ∈ namespaces }
  tables s   := { t | s ∈ namespaces ∧ t = "orders" }
  closed     := fun _ _ h => h.left

theorem catalog_serves {namespaces : List String} {txnStart : Int} :
    (catalog namespaces).Serves (contents namespaces) txnStart where
  listNamespaces := ⟨_, rfl, fun s => by simp [contents, getNamespace]⟩
  listTables s   := by
    by_cases hs : s ∈ namespaces
    case pos =>
      have hns : getNamespace s ∈ namespaces.map getNamespace := List.mem_map_of_mem hs
      exact .inl ⟨_, if_pos hns, fun t => by simp [contents, hs]⟩
    case neg =>
      have hns : getNamespace s ∉ namespaces.map getNamespace := by simpa [getNamespace] using hs
      exact .inr ⟨⟨_, if_neg hns⟩, hs⟩
  loadTable s t  := by
    intro ⟨hs, ht⟩
    have hid : getTableIdentifier s t ∈ namespaces.map (getTableIdentifier · "orders") :=
      ht ▸ List.mem_map_of_mem hs
    exact ⟨_, if_pos hid, _, rfl, _, rfl⟩
  missing s t    := by
    intro ht
    have hid : getTableIdentifier s t ∉ namespaces.map (getTableIdentifier · "orders") := by
      intro hid
      have ⟨s', hs', hid⟩ := List.mem_map.mp hid
      cases hid
      exact ht ⟨hs', rfl⟩
    exact .inl ⟨_, if_neg hid⟩

end Shop

-- A namespace that does not exist is looked up first, and the namespaces are listed in the end.
theorem catalog_cache_is_transparent_shop :
    let contents := Shop.contents ["shop"]
    let catalog := Shop.catalog ["shop"]
    let m := machine 0 "default"
    let txn := m.run m.init
      [(catalog, .lookupSchema "attic" .returnNull), (catalog, .lookupSchema "shop" .returnNull)]
    (∃ r, (txn.lookupSchema "default" "shop" .throwException).1 = .ok (some r) ∧
      (m.run (txn.lookupSchema "default" "shop" .throwException).2 [(catalog, .scanSchemas)]).Finds
        catalog r "orders" ("orders" ∈ contents.tables "shop")) ∧
    (∃ refs, (txn.scanSchemas catalog).1.result = .ok refs ∧
      Shows (txn.scanSchemas catalog).2.name? refs contents.namespaces) ∧
    txn.Finds catalog 1 "orders" ("orders" ∈ contents.tables "shop") ∧
    ∃ refs e, (txn.perform catalog 1 (.scan .tableEntry)).1.map Answer.result = some (.ok refs) ∧
      (txn.perform catalog 1 (.scan .tableEntry)).2.heap[1]? = some e ∧
      Shows e.tables.name? refs (contents.tables "shop") := by
  intro contents catalog m txn
  obtain ⟨hresolves, hlists, hentries⟩ := catalog_cache_is_transparent contents 0 "default"
    [(catalog, .lookupSchema "attic" .returnNull), (catalog, .lookupSchema "shop" .returnNull)]
    [(catalog, .scanSchemas)] catalog <| by
      intro c hc
      have hc : c = catalog := by simpa using hc
      exact hc ▸ Shop.catalog_serves
  have hshop : "shop" ∈ contents.namespaces := List.mem_singleton_self "shop"
  obtain ⟨hfinds, hscans⟩ := hentries 1 _ rfl
  refine ⟨?_, hlists, hfinds "orders", hscans _ (.head _)⟩
  exact (hresolves "shop" "orders" .throwException).resolve_left fun h => h.right hshop

end ProtoIceberg
