import ProtoIceberg.Catalog.Theorems.Evolution
import ProtoIceberg.Catalog.Theorems.Settled

namespace ProtoIceberg

-- A namespace is only ever found missing on the word of the catalog.
theorem SchemaEntry.Step.denied {α : Type} {e e' : SchemaEntry} {answer : Answer α}
    (h : Step e answer e') (hm : e'.namespaceMissing) :
    e.namespaceMissing ∨ ∃ x ∈ answer.exchanges, x.Denies e.name := by
  cases h
  case cached => exact .inl hm
  case failed => exact .inl hm
  case listed => exact .inl hm
  case absent => exact .inl hm
  case loaded => exact .inl hm
  case namespaceMissing h =>
    rw [h]
    exact .inr ⟨_, .head _, And.intro rfl rfl⟩
  case absentNamespace h =>
    rw [h]
    exact .inr ⟨_, .head _, And.intro rfl rfl⟩

theorem SchemaEntry.scan_visits {e : SchemaEntry} {catalog : Catalog} {name : String} {i : Nat}
    {refs : List Nat} (hs : e.tables.status name = .loaded i) (hm : ¬e.namespaceMissing)
    (hr : (e.scan catalog .tableEntry).1.result = .ok refs)
    (hd : ∀ x ∈ (e.scan catalog .tableEntry).1.exchanges, ¬x.Denies e.name) : i ∈ refs := by
  rw [scan, if_neg (by simp), if_neg hm, scanTables, listTables] at hr hd
  have hv : (e.tables.status name).visits i := hs ▸ rfl
  split at hr
  case isTrue =>
    cases hr
    exact TableRegistry.mem_visited_iff.mpr ⟨name, hv⟩
  case isFalse hl =>
    rw [if_neg hl] at hd
    dsimp only at hr hd
    cases hc : catalog.listTables (getNamespace e.name)
    case error error =>
      obtain ⟨kind, message⟩ := error
      rw [hc] at hr hd
      cases kind
      case noSuchNamespace => exact absurd (And.intro rfl rfl) (hd _ (.head _))
      all_goals cases hr
    case ok children =>
      rw [hc] at hr
      cases hr
      have hk : e.tables.status name ≠ .unknown := by simp [hs]
      refine TableRegistry.mem_visited_iff.mpr ⟨name, ?_⟩
      rw [TableRegistry.status_list_of_known hk]
      exact hv

theorem SchemaEntry.result_of_perform_lookupEntry {e : SchemaEntry} {catalog : Catalog}
    {txnStart : Int} {name : String} {i : Nat}
    (h : (e.perform catalog txnStart (.lookupEntry .tableEntry name)).1.result = .ok [i]) :
    (e.lookupEntry catalog txnStart .tableEntry name).1.result = .ok (some i) := by
  cases hr : (e.lookupEntry catalog txnStart .tableEntry name).1.result
  case error => exact nomatch (congrArg (Option.toList <$> ·) hr).symm.trans h
  case ok r =>
    have h : Except.ok r.toList = .ok [i] := (congrArg (Option.toList <$> ·) hr).symm.trans h
    cases r <;> cases h
    rfl

namespace Transaction

variable {txn txn' : Transaction} {catalog : Catalog} {exchanges : List Exchange} {r : Nat}
  {e e' : SchemaEntry}

theorem Step.denied (h : Step txn catalog exchanges txn') (he : txn.heap[r]? = some e)
    (he' : txn'.heap[r]? = some e') (hm : e'.namespaceMissing) :
    e.namespaceMissing ∨ ∃ x ∈ exchanges, x.Denies e.name := by
  cases h.entry he'
  case created hnone _ _ => exact nomatch hnone.symm.trans he
  case kept he₀ _ _ hden =>
    cases he₀.symm.trans he
    exact hden hm
  case performed he₀ hx hs =>
    cases he₀.symm.trans he
    exact hx ▸ hs.denied hm

-- If an entry has come to be missing, then one of the exchanges has told so.
structure Vouched (r : Nat) (name : String) (txn : Transaction) (exchanges : List Exchange) :
    Prop where
  intro ::
  exists_entry : ∃ e, txn.heap[r]? = some e ∧ e.name = name ∧
    (e.namespaceMissing → ∃ x ∈ exchanges, x.Denies name)

theorem Vouched.step {name : String} {xs : List Exchange} (h : Vouched r name txn xs)
    (hstep : Step txn catalog exchanges txn') : Vouched r name txn' (xs ++ exchanges) := by
  have ⟨e, he, hname, hd⟩ := h.exists_entry
  have ⟨e', he', hev⟩ := hstep.evolves.heap he
  refine .intro ⟨e', he', hev.name.trans hname, ?_⟩
  intro hm
  cases hstep.denied he he' hm
  case inl hm =>
    have ⟨x, hx, hdx⟩ := hd hm
    exact ⟨x, List.mem_append_left _ hx, hdx⟩
  case inr hm =>
    have ⟨x, hx, hdx⟩ := hm
    exact ⟨x, List.mem_append_right _ hx, hname ▸ hdx⟩

theorem Vouched.run {duckdbTimestamp : Int} {defaultSchema : String} {is : List (Catalog × Op)}
    (he : txn.heap[r]? = some e) (hm : ¬e.namespaceMissing) :
    let m := machine duckdbTimestamp defaultSchema
    Vouched r e.name (m.run txn is) (m.outs txn is).flatten := by
  apply Machine.run_outs_induction (P := fun txn os => Vouched r e.name txn os.flatten)
  case hs    => exact .intro ⟨e, he, rfl, fun h => absurd h hm⟩
  case hstep => exact fun _ os _ h => List.flatten_concat ▸ h.step machine_step

theorem scanSchemas_visits {name : String} {refs : List Nat} (hr : txn.schemas[name]? = some r)
    (he : txn.heap[r]? = some e) (hm : ¬e.namespaceMissing)
    (hv : (txn.scanSchemas catalog).1.result = .ok refs)
    (hd : ∀ x ∈ (txn.scanSchemas catalog).1.exchanges, ¬x.Denies e.name) : r ∈ refs := by
  have hlist := @scanSchemas_outcome txn catalog
  generalize txn.scanSchemas catalog = outcome at hlist hv hd
  cases hlist
  case cached =>
    cases hv
    exact mem_visited_iff.mpr ⟨⟨name, hr⟩, isNamespaceMissing_eq he ▸ hm⟩
  case failed => exact nomatch hv
  case listed namespaces hl _ =>
    cases hv
    have hmem : getNamespace e.name ∈ namespaces := not_not.mp <| hd _ (.head _)
    have he' : (txn.list namespaces).heap[r]? = some e := by
      rw [getElem?_heap_list he, if_neg fun h => h.right hmem]
    exact mem_visited_iff.mpr
      ⟨⟨name, (list_evolves hl).schemas hr⟩, isNamespaceMissing_eq he' ▸ hm⟩

-- A loaded table that is reached through its schema entry and by name, and shown by both listings.
-- Only a listing that itself tells that the namespace does not exist leaves it out.
structure Reads (txn : Transaction) (defaultSchema schemaName : String) (r i : Nat) : Prop where
  lookupSchema : ∀ ifNotFound,
    txn.lookupSchema defaultSchema schemaName ifNotFound = (.ok (some r), txn)
  scanSchemas  : ∀ catalog refs, (txn.scanSchemas catalog).1.result = .ok refs →
    (∀ x ∈ (txn.scanSchemas catalog).1.exchanges, ¬x.Denies (redirect defaultSchema schemaName)) →
      r ∈ refs
  scan         : ∀ catalog answer, (txn.perform catalog r (.scan .tableEntry)).1 = some answer →
    ∀ refs, answer.result = .ok refs →
    (∀ x ∈ answer.exchanges, ¬x.Denies (redirect defaultSchema schemaName)) → i ∈ refs

end Transaction

open Transaction

-- Once a table has been read, its schema entry keeps returning it. It stays reachable by name unless the
-- catalog has since told that the table's namespace does not exist.
theorem read_table_stays_readable (duckdbTimestamp : Int)
    (defaultSchema schemaName tableName : String) (ifNotFound : OnEntryNotFound) (r i : Nat)
    (pre mid post : List (Catalog × Op)) (catalog : Catalog) :
    let m := machine duckdbTimestamp defaultSchema
    let resolved := (m.run m.init pre).lookupSchema defaultSchema schemaName ifNotFound
    let lookup : Op := .perform r (.lookupEntry .tableEntry tableName)
    let looked := (m.run resolved.2 mid).perform catalog r (.lookupEntry .tableEntry tableName)
    let since := mid ++ (catalog, lookup) :: post
    let txn := m.run resolved.2 since
    resolved.1 = .ok (some r) →
    looked.1.map Answer.result = some (.ok [i]) →
    (∀ catalog, (txn.perform catalog r (.lookupEntry .tableEntry tableName)).1 =
      some { result := .ok [i], exchanges := [] }) ∧
    (∃ e e' entry, looked.2.heap[r]? = some e ∧ txn.heap[r]? = some e' ∧
      e.tables.entries[i]? = some entry ∧ e'.tables.entries[i]? = some entry ∧
      entry.name = tableName ∧ ¬entry.needsLoad) ∧
    ((∀ x ∈ (m.outs resolved.2 since).flatten, ¬x.Denies (redirect defaultSchema schemaName)) →
      txn.Reads defaultSchema schemaName r i) := by
  intro m resolved lookup looked since txn hs ht
  obtain ⟨hr, hm⟩ := lookupSchema_ok hs
  obtain ⟨e₀, he₀, hname⟩ := resolved.2.valid _ r hr
  obtain ⟨e₁, he₁, hev₁⟩ := (machine_run_evolves : resolved.2.Evolves (m.run resolved.2 mid)).heap he₀
  have hlooked : looked.2.heap[r]? = some _ := perform_heap he₁
  have hrun : txn = m.run looked.2 post := Machine.run_append
  obtain ⟨e₃, he₃, hev₃⟩ := (machine_run_evolves : looked.2.Evolves (m.run looked.2 post)).heap hlooked
  rw [← hrun] at he₃
  have hres : Option.map Answer.result (some _) = some (.ok [i]) := perform_answer he₁ ▸ ht
  have hst := SchemaEntry.lookupEntry_status <|
    SchemaEntry.result_of_perform_lookupEntry <| Option.some.inj hres
  have hst₃ : e₃.tables.status tableName = .ofLookup (some i) :=
    (hev₃.settled tableName (hst ▸ rfl)).trans hst
  refine ⟨?lookup, ?entry, ?reads⟩
  case lookup =>
    intro catalog
    rw [perform_answer he₃, SchemaEntry.perform, SchemaEntry.lookupEntry_of_settled hst₃]
    rfl
  case entry =>
    obtain ⟨entry, hentry, hn, hload⟩ := TableRegistry.exists_entry_of_loaded hst
    exact ⟨_, e₃, entry, hlooked, he₃, hentry, hev₃.getElem?_entries hentry, hn, hload⟩
  case reads =>
    intro hd
    have hm₀ : ¬e₀.namespaceMissing := isNamespaceMissing_eq he₀ ▸ hm
    obtain ⟨e, he, hname₃, hden⟩ := (Vouched.run he₀ hm₀ : Vouched r e₀.name txn _).exists_entry
    cases he.symm.trans he₃
    have hm₃ : ¬e₃.namespaceMissing := by
      intro h
      obtain ⟨x, hx, hdx⟩ := hden h
      exact hd x hx (hname ▸ hdx)
    have hr₃ : txn.schemas[redirect defaultSchema schemaName]? = some r :=
      (machine_run_evolves : resolved.2.Evolves txn).schemas hr
    exact {
      lookupSchema := fun _ => lookupSchema_of_known hr₃ (isNamespaceMissing_eq he₃ ▸ hm₃)
      scanSchemas  := fun _ _ h hd => scanSchemas_visits hr₃ he₃ hm₃ h (hname₃ ▸ hname ▸ hd)
      scan         := by
        intro catalog answer ha refs hrefs hd
        cases (perform_answer he₃).symm.trans ha
        exact SchemaEntry.scan_visits hst₃ hm₃ hrefs (hname₃ ▸ hname ▸ hd)
    }

theorem read_table_stays_readable_shop :
    let catalog := Shop.catalog ["shop"]
    let resolved := (start 0).lookupSchema "default" "shop" .throwException
    let lookup : Op := .perform 0 (.lookupEntry .tableEntry "orders")
    let txn := (machine 0 "default").run resolved.2 [(catalog, lookup), (catalog, .scanSchemas)]
    (txn.perform (Shop.catalog []) 0 (.lookupEntry .tableEntry "orders")).1 =
      some { result := .ok [0], exchanges := [] } ∧
    txn.Reads "default" "shop" 0 0 := by
  intro catalog resolved lookup txn
  have h := read_table_stays_readable 0 "default" "shop" "orders" .throwException 0 0 [] []
    [(catalog, .scanSchemas)] catalog rfl rfl
  have hx : ((machine 0 "default").outs resolved.2
      [(catalog, lookup), (catalog, .scanSchemas)]).flatten = [
        .loadTable (getTableIdentifier "shop" "orders") (.ok Shop.orders),
        .listNamespaces { levels := [] } (.ok [getNamespace "shop"])
      ] := rfl
  refine ⟨h.left _, h.right.right ?_⟩
  intro x hmem
  rcases List.mem_pair.mp (hx ▸ hmem) with he | he <;> subst he
  case inl => exact id
  case inr => exact not_not.mpr (.head _)

-- The schema `shop` is gone once a listing leaves it out, although its table has been read.
theorem read_table_lost_by_listing :
    let resolved := (Transaction.start 0).lookupSchema "default" "shop" .throwException
    let looked := resolved.2.perform (Shop.catalog ["shop"]) 0 (.lookupEntry .tableEntry "orders")
    let listing := looked.2.scanSchemas (Shop.catalog [])
    resolved.1 = .ok (some 0) ∧ looked.1.map Answer.result = some (.ok [0]) ∧
    listing.1.result = .ok [] ∧
    (listing.2.lookupSchema "default" "shop" .returnNull).1 = .ok none := by
  refine ⟨rfl, rfl, rfl, rfl⟩

end ProtoIceberg
