import ProtoIceberg.Catalog.Theorems.Listing
import ProtoIceberg.Catalog.Theorems.Settled

namespace ProtoIceberg

namespace SchemaEntry

variable {α : Type} {e e' : SchemaEntry} {answer : Answer α} {catalog : Catalog} {xs : List Exchange}

-- Every loaded table entry holds what the catalog answered for its own identifier.
def Sourced (xs : List Exchange) (e : SchemaEntry) : Prop :=
  ∀ entry ∈ e.tables.entries, ∀ info, entry.scanInfo = some info →
    .loadTable (getTableIdentifier e.name entry.name) (.ok info.table) ∈ xs

theorem Sourced.append (h : e.Sourced xs) (exchanges : List Exchange) :
    e.Sourced (xs ++ exchanges) :=
  fun entry he info hi => List.mem_append_left _ <| h entry he info hi

theorem Step.sourced (hstep : Step e answer e') (h : e.Sourced xs) :
    e'.Sourced (xs ++ answer.exchanges) := by
  cases hstep
  case cached           => exact h.append _
  case failed           => exact h.append _
  case namespaceMissing => exact h.append _
  case absent           => exact h.append _
  case absentNamespace  => exact h.append _
  case listed =>
    intro entry he info hi
    cases TableRegistry.scanInfo_list he
    case inl he => exact h.append _ entry he info hi
    case inr hn => exact nomatch hn.symm.trans hi
  case loaded hx hl =>
    intro entry he info hi
    cases List.mem_append.mp he
    case inl he => exact h.append _ entry he info hi
    case inr he =>
      cases List.mem_singleton.mp he
      have ⟨info', hi', htable⟩ := hl.table
      cases hi.symm.trans hi'
      refine List.mem_append_right _ ?_
      rw [hx, hl.name, htable]
      exact List.mem_singleton_self _

-- A scan that shows a table has found its namespace, and shows what is stored.
theorem scan_shows {refs : List Nat} {i : Nat}
    (hr : (e.scan catalog .tableEntry).1.result = .ok refs) (hi : i ∈ refs) :
    ¬(e.scan catalog .tableEntry).2.namespaceMissing ∧
      (e.scan catalog .tableEntry).2.tables.visited = refs := by
  cases scan_cases e catalog .tableEntry
  case inl hs =>
    rw [hs] at hr
    cases hr
    exact nomatch hi
  case inr hs =>
    have ⟨hm, hs⟩ := hs
    rw [hs] at hr ⊢
    have hlist := @scanTables_outcome e catalog
    generalize e.scanTables catalog = outcome at hlist hr ⊢
    cases hlist
    case cached           => exact ⟨hm, Except.ok.inj hr⟩
    case namespaceMissing => cases hr; exact nomatch hi
    case failed           => exact nomatch hr
    case listed           => exact ⟨hm, Except.ok.inj hr⟩

end SchemaEntry

namespace Transaction

variable {txn txn' : Transaction} {catalog : Catalog} {exchanges xs : List Exchange}

def Sourced (xs : List Exchange) (txn : Transaction) : Prop :=
  ∀ (r : Nat) (e : SchemaEntry), txn.heap[r]? = some e → e.Sourced xs

theorem Step.sourced (hstep : Step txn catalog exchanges txn') (h : txn.Sourced xs) :
    txn'.Sourced (xs ++ exchanges) := by
  intro r e' he'
  cases hstep.entry he'
  case created ht _ =>
    intro entry he
    exact nomatch ht ▸ he
  case kept e he hn ht _ =>
    have hs := (h r e he).append exchanges
    rw [SchemaEntry.Sourced] at hs ⊢
    rw [hn, ht]
    exact hs
  case performed e _ he hx hs => exact hx ▸ hs.sourced (h r e he)

theorem Sourced.run {duckdbTimestamp : Int} {defaultSchema : String} {is : List (Catalog × Op)} :
    let m := machine duckdbTimestamp defaultSchema
    (m.run m.init is).Sourced (m.outs m.init is).flatten := by
  apply Machine.run_outs_induction (P := fun (txn : Transaction) os => txn.Sourced os.flatten)
  case hs    => exact fun _ _ h => nomatch h
  case hstep => exact fun _ os _ h => List.flatten_concat ▸ machine_step.sourced h

theorem perform_lookupEntry_of_visits {r i : Nat} {e : SchemaEntry} {entry : TableEntry}
    (he : txn.heap[r]? = some e) (hentry : e.tables.entries[i]? = some entry)
    (hv : (e.tables.status entry.name).visits i) :
    let id := getTableIdentifier e.name entry.name
    ∃ answer, (txn.perform catalog r (.lookupEntry .tableEntry entry.name)).1 = some answer ∧
      (answer.exchanges = [.loadTable id (catalog.loadTable id)] ∨
        answer = { result := .ok [i], exchanges := [] } ∧ ¬entry.needsLoad) := by
  refine ⟨_, perform_answer he, ?_⟩
  rw [SchemaEntry.perform, SchemaEntry.lookupEntry_eq]
  cases hs : e.tables.status entry.name
  case unknown     => rw [hs] at hv; exact hv.elim
  case absent      => rw [hs] at hv; exact hv.elim
  case placeholder => exact .inl SchemaEntry.loadTableEntry_exchanges
  case loaded j =>
    have hj : j = i := by
      rw [hs] at hv
      exact hv
    obtain ⟨entry', hentry', _, hload⟩ := TableRegistry.exists_entry_of_loaded hs
    subst hj
    cases hentry'.symm.trans hentry
    exact .inr ⟨rfl, hload⟩

end Transaction

open Transaction

-- A table that is shown under a schema is read by that schema's name and its own, unless the schema
-- has DuckDB's default name and is redirected.
theorem listed_name_reads_its_table (duckdbTimestamp : Int) (defaultSchema : String)
    (is : List (Catalog × Op)) (catalog catalog' catalog'' : Catalog) (r i : Nat) (e : SchemaEntry)
    (entry : TableEntry) :
    let m := machine duckdbTimestamp defaultSchema
    let listing := (m.run m.init is).scanSchemas catalog
    let tables := listing.2.perform catalog' r (.scan .tableEntry)
    let id := getTableIdentifier e.name entry.name
    (∃ refs, listing.1.result = .ok refs ∧ r ∈ refs) →
    (∃ shown, tables.1.map Answer.result = some (.ok shown) ∧ i ∈ shown) →
    tables.2.heap[r]? = some e → e.tables.entries[i]? = some entry →
    redirect defaultSchema e.name = e.name →
    (∀ ifNotFound,
      tables.2.lookupSchema defaultSchema e.name ifNotFound = (.ok (some r), tables.2)) ∧
    ∃ answer,
      (tables.2.perform catalog'' r (.lookupEntry .tableEntry entry.name)).1 = some answer ∧
      (answer.exchanges = [.loadTable id (catalog''.loadTable id)] ∨
        answer = { result := .ok [i], exchanges := [] } ∧
        ∃ info, entry.scanInfo = some info ∧
          .loadTable id (.ok info.table) ∈ (m.outs m.init
            (is ++ [(catalog, .scanSchemas),
              (catalog', .perform r (.scan .tableEntry))])).flatten) := by
  intro m listing tables id ⟨refs, hrefs, hr⟩ ⟨shown, hshown, hi⟩ he hentry hredirect
  have ⟨⟨schemaName, hstored⟩, _⟩ := mem_visited_iff.mp (scanSchemas_visited hrefs ▸ hr)
  have ⟨e₀, he₀, hname⟩ := listing.2.valid schemaName r hstored
  have hscan : (e₀.scan catalog' .tableEntry).2 = e :=
    Option.some.inj <| (perform_heap he₀).symm.trans he
  have hanswer : Option.map Answer.result (some _) = some (.ok shown) :=
    perform_answer he₀ ▸ hshown
  have ⟨hm, hvisited⟩ := SchemaEntry.scan_shows (Option.some.inj hanswer) hi
  have hname : e.name = schemaName :=
    hscan ▸ SchemaEntry.scan_step.evolves.name.trans hname
  constructor
  case left =>
    intro ifNotFound
    have hr : tables.2.schemas[e.name]? = some r := hname ▸ hstored
    refine lookupSchema_of_known ?_ (isNamespaceMissing_eq he ▸ hscan ▸ hm)
    rw [hredirect, hr]
  case right =>
    have ⟨tableName, hv⟩ := TableRegistry.mem_visited_iff.mp (hscan ▸ hvisited.symm ▸ hi)
    have ⟨_, hentry', htableName⟩ :=
      e.tables.valid tableName i (TableRegistry.visits_status_iff.mp hv)
    cases hentry.symm.trans hentry'
    subst htableName
    have ⟨answer, ha, hcases⟩ :
        ∃ answer, (tables.2.perform catalog'' r _).1 = some answer ∧ _ :=
      perform_lookupEntry_of_visits he hentry hv
    refine ⟨answer, ha, ?_⟩
    cases hcases
    case inl hload => exact .inl hload
    case inr hread =>
      have hloaded : entry.scanInfo ≠ none := Option.isNone_iff_eq_none.not.mp hread.right
      have ⟨info, hinfo⟩ := Option.ne_none_iff_exists'.mp hloaded
      have hrun : m.run m.init (is ++ [(catalog, .scanSchemas),
          (catalog', .perform r (.scan .tableEntry))]) = tables.2 := Machine.run_append
      refine .inr ⟨hread.left, info, hinfo, ?_⟩
      exact Sourced.run r e (hrun ▸ he) entry (List.mem_of_getElem? hentry) info hinfo

theorem listed_name_reads_its_table_shop :
    let m := machine 0 "default"
    let listing := m.init.scanSchemas (Shop.catalog ["shop"])
    let tables := listing.2.perform (Shop.catalog ["shop"]) 0 (.scan .tableEntry)
    let id := getTableIdentifier "shop" "orders"
    (∀ ifNotFound, tables.2.lookupSchema "default" "shop" ifNotFound = (.ok (some 0), tables.2)) ∧
    ∃ answer,
      (tables.2.perform (Shop.catalog []) 0 (.lookupEntry .tableEntry "orders")).1 = some answer ∧
      (answer.exchanges = [.loadTable id ((Shop.catalog []).loadTable id)] ∨
        answer = { result := .ok [0], exchanges := [] } ∧
        ∃ info, (TableEntry.placeholder "orders").scanInfo = some info ∧
          .loadTable id (.ok info.table) ∈ (m.outs m.init
            ([] ++ [(Shop.catalog ["shop"], .scanSchemas),
              (Shop.catalog ["shop"], .perform 0 (.scan .tableEntry))])).flatten) :=
  listed_name_reads_its_table 0 "default" [] (Shop.catalog ["shop"]) (Shop.catalog ["shop"])
    (Shop.catalog []) 0 0
    { name := "shop", namespaceMissing := false, tables := TableRegistry.empty.list ["orders"] }
    (.placeholder "orders") ⟨[0], rfl, by decide⟩ ⟨[0], rfl, by decide⟩ rfl rfl rfl

-- A schema with DuckDB's default name is listed, but its name reads the configured default schema.
theorem listed_main_reads_default_schema :
    let catalog := Shop.catalog ["default", "main"]
    let listing := (machine 0 "default").init.scanSchemas catalog
    let tables := listing.2.perform catalog 1 (.scan .tableEntry)
    listing.1.result = .ok [0, 1] ∧ listing.2.name? 0 = some "default" ∧
      listing.2.name? 1 = some "main" ∧
    tables.1.map Answer.result = some (.ok [0]) ∧
    tables.2.lookupSchema "default" "main" .returnNull = (.ok (some 0), tables.2) ∧
    ∃ answer, (tables.2.perform catalog 0 (.lookupEntry .tableEntry "orders")).1 = some answer ∧
      answer.exchanges = [.loadTable (getTableIdentifier "default" "orders") (.ok Shop.orders)] :=
  ⟨rfl, rfl, rfl, rfl, rfl, _, rfl, rfl⟩

end ProtoIceberg
