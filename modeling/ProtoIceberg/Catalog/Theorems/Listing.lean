import Mathlib.Data.String.Basic
import Mathlib.Order.Compare
import ProtoIceberg.Catalog.Theorems.Evolution

namespace ProtoIceberg

-- The namespace listings among the exchanges that the catalog answered.
def Exchange.listing : Exchange → Option (List Namespace)
  | .listNamespaces _ (.ok namespaces) => some namespaces
  | _                                  => none

namespace Transaction

variable {txn txn' : Transaction} {catalog : Catalog} {namespaces : List Namespace}
  {exchanges xs : List Exchange} {defaultSchema schemaName name : String} {r : Nat}

theorem Evolves.isNamespaceMissing (h : Evolves txn txn') (hm : txn.isNamespaceMissing r) :
    txn'.isNamespaceMissing r := by
  cases he : txn.heap[r]?
  case none =>
    rw [Transaction.isNamespaceMissing, he] at hm
    cases hm
  case some e =>
    obtain ⟨e', he', hev⟩ := h.heap he
    rw [isNamespaceMissing_eq he']
    exact hev.missing (isNamespaceMissing_eq he ▸ hm)

-- The stored schemas are those that were listed, and others that are known to be missing.
structure Listed (namespaces : List Namespace) (txn : Transaction) : Prop where
  listed  : txn.listed
  stored  : ∀ name, getNamespace name ∈ namespaces → (txn.schemas[name]?).isSome
  missing : ∀ (name : String) (r : Nat), txn.schemas[name]? = some r →
    getNamespace name ∉ namespaces → txn.isNamespaceMissing r

theorem Listed.evolves (h : Listed namespaces txn) (hev : txn.Evolves txn') :
    Listed namespaces txn' := by
  have ⟨hl, hs⟩ := hev.listed h.listed
  exact {
    listed  := hl
    stored  := fun name hn => hs ▸ h.stored name hn
    missing := fun name r hr hn => hev.isNamespaceMissing <| h.missing name r (hs ▸ hr) hn
  }

theorem Listed.of_list : Listed namespaces (txn.list namespaces) where
  listed := rfl
  stored := by
    intro name hn
    have hmem := Namespace.mem_filterMap_singleLevel.mpr hn
    rw [list, schemas_completeListing]
    exact isSome_schemas_foldl_storeNew_iff.mpr (.inr hmem)
  missing := by
    intro name r hr hn
    let stored := (namespaces.filterMap Namespace.singleLevel).foldl storeNew txn
    have hr : stored.schemas[name]? = some r := schemas_completeListing ▸ hr
    obtain ⟨e, he, hname⟩ := stored.valid name r hr
    have hmark : (txn.list namespaces).heap[r]? = some e.markNamespaceMissing := by
      have hn : e.name ∉ namespaces.filterMap Namespace.singleLevel := by
        rw [hname, Namespace.mem_filterMap_singleLevel]
        exact hn
      rw [list, getElem?_heap_completeListing he, if_pos ⟨mem_stored_iff.mpr ⟨name, hr⟩, hn⟩]
    rw [isNamespaceMissing_eq hmark]
    rfl

-- There is at most one listing, and it is what the stored schemas agree with.
inductive ListedOnce (txn : Transaction) (exchanges : List Exchange) : Prop
  | unlisted (hl : ¬txn.listed) (hx : exchanges.filterMap Exchange.listing = [])
  | listed {namespaces : List Namespace} (hl : Listed namespaces txn)
      (hx : exchanges.filterMap Exchange.listing = [namespaces])

theorem perform_listing {op : SchemaEntry.Op} :
    ((txn.perform catalog r op).1.elim [] Answer.exchanges).filterMap Exchange.listing = [] := by
  rw [List.filterMap_eq_nil_iff]
  intro x hx
  cases he : txn.heap[r]?
  case none => simp [perform, he] at hx
  case some e =>
    rw [perform_answer he] at hx
    rcases SchemaEntry.perform_exchanges hx with rfl | ⟨_, rfl⟩ <;> rfl

theorem ListedOnce.step (h : ListedOnce txn xs) (hstep : Step txn catalog exchanges txn') :
    ListedOnce txn' (xs ++ exchanges) := by
  cases h
  case listed hl hx =>
    refine .listed (hl.evolves hstep.evolves) ?_
    rw [List.filterMap_append, hx]
    cases hstep
    case unchanged     => rfl
    case failed        => rfl
    case stored        => rfl
    case listed h _    => exact absurd hl.listed h
    case performed     => rw [perform_listing, List.append_nil]
  case unlisted hl hx =>
    cases hstep
    case unchanged     => exact .unlisted hl (by rw [List.append_nil, hx])
    case failed        => exact .unlisted hl (by rw [List.filterMap_append, hx]; rfl)
    case stored        => exact .unlisted hl (by rw [List.append_nil, hx])
    case listed        => exact .listed .of_list (by rw [List.filterMap_append, hx]; rfl)
    case performed     =>
      exact .unlisted hl (by rw [List.filterMap_append, hx, perform_listing]; rfl)

theorem ListedOnce.run {duckdbTimestamp : Int} {is : List (Catalog × Op)} :
    let m := machine duckdbTimestamp defaultSchema
    ListedOnce (m.run m.init is) (m.outs m.init is).flatten := by
  apply Machine.run_outs_induction (P := fun txn os => ListedOnce txn os.flatten)
  case hs    => exact .unlisted (by simp [machine, start]) rfl
  case hstep => exact fun _ os _ h => List.flatten_concat ▸ h.step machine_step

theorem scanSchemas_of_listed (hl : txn.listed) :
    txn.scanSchemas catalog = ({ result := .ok txn.visited, exchanges := [] }, txn) := by
  rw [scanSchemas, if_pos hl]

-- The name of an entry on the heap.
def name? (txn : Transaction) (r : Nat) : Option String :=
  txn.heap[r]?.map SchemaEntry.name

theorem name?_of_stored (h : txn.schemas[name]? = some r) : txn.name? r = some name := by
  obtain ⟨e, he, hn⟩ := txn.valid name r h
  simp [name?, he, hn]

theorem visited_ordered :
    txn.visited.Pairwise fun r r' =>
      ∃ n n', txn.name? r = some n ∧ txn.name? r' = some n' ∧ n < n' := by
  apply List.Pairwise.filter
  rw [stored, List.pairwise_map]
  refine Std.ExtTreeMap.ordered_keys_toList.imp_of_mem ?_
  rintro ⟨n, r⟩ ⟨n', r'⟩ hr hr' hlt
  exact ⟨n, n', name?_of_stored (Std.ExtTreeMap.mem_toList_iff_getElem?_eq_some.mp hr),
    name?_of_stored (Std.ExtTreeMap.mem_toList_iff_getElem?_eq_some.mp hr'),
    compare_lt_iff_lt.mp hlt⟩

theorem mem_visited_and_name?_iff : r ∈ txn.visited ∧ txn.name? r = some name ↔
    txn.schemas[name]? = some r ∧ ¬txn.isNamespaceMissing r := by
  rw [mem_visited_iff]
  constructor
  case mp =>
    intro ⟨⟨⟨n, hr⟩, hm⟩, hname⟩
    cases (name?_of_stored hr).symm.trans hname
    exact ⟨hr, hm⟩
  case mpr => exact fun ⟨hr, hm⟩ => ⟨⟨⟨name, hr⟩, hm⟩, name?_of_stored hr⟩

theorem lookupSchema_of_listed_iff (hl : txn.listed) {ifNotFound : OnEntryNotFound} :
    (txn.lookupSchema defaultSchema schemaName ifNotFound).1 = .ok (some r) ↔
      txn.schemas[redirect defaultSchema schemaName]? = some r ∧ ¬txn.isNamespaceMissing r := by
  constructor
  case mpr => exact fun ⟨hr, hm⟩ => congrArg Prod.fst (lookupSchema_of_known hr hm)
  case mp =>
    intro h
    have ⟨hr, hm⟩ := lookupSchema_ok h
    have hsame : (txn.lookupSchema defaultSchema schemaName ifNotFound).2 = txn := by
      dsimp only [lookupSchema]
      split
      case h_1 => split <;> rfl
      case h_2 => rw [if_pos hl]
    exact ⟨hsame ▸ hr, hsame ▸ hm⟩

-- A schema that is not found is known to be missing, or has been left out by a listing.
structure Absent (txn : Transaction) (name : String) : Prop where
  intro ::
  stored_missing : (∃ r, txn.schemas[name]? = some r ∧ txn.isNamespaceMissing r) ∨
    txn.listed ∧ txn.schemas[name]? = none

theorem Absent.evolves (h : Absent txn name) (hev : txn.Evolves txn') : Absent txn' name := by
  cases h.stored_missing
  case inl hm =>
    have ⟨r, hr, hm⟩ := hm
    exact .intro <| .inl ⟨r, hev.schemas hr, hev.isNamespaceMissing hm⟩
  case inr hl =>
    have ⟨hl', hs⟩ := hev.listed hl.left
    exact .intro <| .inr ⟨hl', hs ▸ hl.right⟩

theorem absent_iff {ifNotFound : OnEntryNotFound} :
    Absent txn (redirect defaultSchema schemaName) ↔
      ∀ r, (txn.lookupSchema defaultSchema schemaName ifNotFound).1 ≠ .ok (some r) := by
  dsimp only [lookupSchema]
  cases hs : txn.schemas[redirect defaultSchema schemaName]?
  case some r =>
    dsimp only
    cases hm : txn.isNamespaceMissing r
    case true  => exact iff_of_true (.intro <| .inl ⟨r, hs, hm⟩) fun _ => schemaNotFound_ne_ok
    case false =>
      refine iff_of_false ?_ fun h => h r rfl
      intro h
      cases h.stored_missing
      case inl hm' =>
        have ⟨r', hr', hm'⟩ := hm'
        cases hs.symm.trans hr'
        exact nomatch hm.symm.trans hm'
      case inr hl => exact nomatch hs.symm.trans hl.right
  case none =>
    cases hl : txn.listed
    case true  => exact iff_of_true (.intro <| .inr ⟨hl, hs⟩) fun _ => schemaNotFound_ne_ok
    case false =>
      refine iff_of_false ?_ fun h => h _ rfl
      intro h
      cases h.stored_missing
      case inl hm  => have ⟨r', hr', _⟩ := hm; exact nomatch hs.symm.trans hr'
      case inr hl' => exact nomatch hl.symm.trans hl'.left

end Transaction

open Transaction

-- After the namespaces have been listed, looking up and listing schemas agree. A schema that does not
-- exist never comes to exist.
theorem schema_listing_agrees_with_lookup (duckdbTimestamp : Int) (defaultSchema : String)
    (is : List (Catalog × Op)) :
    let m := machine duckdbTimestamp defaultSchema
    let txn := m.run m.init is
    (txn.listed →
      ∃ namespaces, (m.outs m.init is).flatten.filterMap Exchange.listing = [namespaces] ∧
      ∀ catalog, ∃ refs, txn.scanSchemas catalog = ({ result := .ok refs, exchanges := [] }, txn) ∧
        refs.Pairwise (fun r r' =>
          ∃ n n', txn.name? r = some n ∧ txn.name? r' = some n' ∧ n < n') ∧
        (∀ r ∈ refs, ∃ n, txn.name? r = some n ∧ getNamespace n ∈ namespaces) ∧
        (∀ n, getNamespace n ∈ namespaces → ∃ r, txn.schemas[n]? = some r ∧ txn.name? r = some n ∧
          (r ∈ refs ↔ ¬txn.isNamespaceMissing r)) ∧
        (∀ n ifNotFound r, redirect defaultSchema n = n →
          ((txn.lookupSchema defaultSchema n ifNotFound).1 = .ok (some r) ↔
            r ∈ refs ∧ txn.name? r = some n))) ∧
    (∀ schemaName ifNotFound,
      (∀ r, (txn.lookupSchema defaultSchema schemaName ifNotFound).1 ≠ .ok (some r)) →
      ∀ post ifNotFound' r, ((m.run (txn.lookupSchema defaultSchema schemaName ifNotFound).2 post)
        |>.lookupSchema defaultSchema schemaName ifNotFound').1 ≠ .ok (some r)) := by
  intro m txn
  constructor
  case left =>
    intro hl
    have hrun : ListedOnce txn (m.outs m.init is).flatten := ListedOnce.run
    cases hrun
    case unlisted h _ => exact absurd hl h
    case listed namespaces hlisted hx =>
      refine ⟨namespaces, hx, fun catalog => ⟨txn.visited, scanSchemas_of_listed hl,
        visited_ordered, ?only, ?omits, ?agrees⟩⟩
      case only =>
        intro r hr
        have ⟨⟨n, hn⟩, hm⟩ := mem_visited_iff.mp hr
        refine ⟨n, name?_of_stored hn, ?_⟩
        by_contra hns
        exact hm (hlisted.missing n r hn hns)
      case omits =>
        intro n hn
        have ⟨r, hr⟩ := Option.isSome_iff_exists.mp <| hlisted.stored n hn
        refine ⟨r, hr, name?_of_stored hr, ?_⟩
        rw [mem_visited_iff, and_iff_right ⟨n, hr⟩]
      case agrees =>
        intro n ifNotFound r hn
        rw [lookupSchema_of_listed_iff hl, hn, mem_visited_and_name?_iff]
  case right =>
    intro schemaName ifNotFound h post ifNotFound' r
    have habs := absent_iff.mpr h
    exact absent_iff.mp (habs.evolves <| lookupSchema_evolves.trans machine_run_evolves) r

theorem schema_listing_agrees_with_lookup_shop :
    let txn := (machine 0 "default").run (machine 0 "default").init
      [(Shop.catalog ["shop", "attic"], .scanSchemas)]
    ∃ refs, txn.scanSchemas (Shop.catalog []) = ({ result := .ok refs, exchanges := [] }, txn) ∧
      ∀ r, (txn.lookupSchema "default" "shop" .returnNull).1 = .ok (some r) ↔
        r ∈ refs ∧ txn.name? r = some "shop" :=
  have ⟨_, _, h⟩ := (schema_listing_agrees_with_lookup 0 "default"
    [(Shop.catalog ["shop", "attic"], .scanSchemas)]).left rfl
  have ⟨refs, hrefs, _, _, _, hlookup⟩ := h (Shop.catalog [])
  ⟨refs, hrefs, fun r => hlookup "shop" .returnNull r rfl⟩

end ProtoIceberg
