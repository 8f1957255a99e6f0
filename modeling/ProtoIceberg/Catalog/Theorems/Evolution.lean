import ProtoIceberg.Catalog.Transaction

namespace ProtoIceberg

@[simp]
theorem Namespace.mem_filterMap_singleLevel {namespaces : List Namespace} {name : String} :
    name ∈ namespaces.filterMap singleLevel ↔ getNamespace name ∈ namespaces := by
  rw [List.mem_filterMap]
  constructor
  case mp =>
    intro ⟨⟨levels⟩, hm, hs⟩
    match levels, hs with
    | [_], rfl => exact hm
  case mpr => exact fun h => ⟨_, h, rfl⟩

-- Whether the exchange tells that the namespace does not exist.
def Exchange.Denies (name : String) : Exchange → Prop
  | .listNamespaces _ (.ok namespaces) => getNamespace name ∉ namespaces
  | .listTables ns (.error error)      => ns = getNamespace name ∧ error.kind = .noSuchNamespace
  | .loadTable id (.error error)       => id.ns = getNamespace name ∧ error.kind = .noSuchNamespace
  | _                                  => False

namespace Transaction

section

variable {txn : Transaction} {names : List String} {rs : List Nat} {r : Nat} {e : SchemaEntry}
  {f g : Nat → SchemaEntry → SchemaEntry} {hf : ∀ r e, (f r e).name = e.name}
  {hg : ∀ r e, (g r e).name = e.name}

theorem mapEntries_eq_self (h : ∀ r e, txn.heap[r]? = some e → f r e = e) :
    txn.mapEntries f hf = txn := by
  have hheap : txn.heap.mapIdx f = txn.heap := by
    apply List.ext_getElem?
    intro r
    cases he : txn.heap[r]?
    case none   => simp [he]
    case some e => simp [he, h r e he]
  simp [mapEntries, hheap]

theorem mapEntries_mapEntries : (txn.mapEntries f hf).mapEntries g hg =
    txn.mapEntries (fun r e => g r (f r e)) fun r e => (hg r _).trans (hf r e) := by
  simp [mapEntries, Function.comp_def]

theorem mapEntries_congr (h : f = g) : txn.mapEntries f hf = txn.mapEntries g hg := by
  subst h
  rfl

-- Checking the entries one after another marks those that have not been listed.
theorem foldl_markAbsent : rs.foldl (fun txn r => txn.markAbsent names r) txn =
    txn.mapEntries (fun r e => if r ∈ rs ∧ e.name ∉ names then e.markNamespaceMissing else e)
      (fun _ _ => by split <;> rfl) := by
  induction rs generalizing txn
  case nil => exact (mapEntries_eq_self <| by simp).symm
  case cons r rs ih =>
    rw [List.foldl_cons, ih, markAbsent, mapEntries_mapEntries]
    apply mapEntries_congr
    funext r' e
    by_cases hn : e.name ∈ names
    case pos => simp [hn]
    case neg =>
      by_cases hr : r' = r <;> by_cases hrs : r' ∈ rs <;>
        simp [hn, hr, hrs, SchemaEntry.markNamespaceMissing]

theorem completeListing_eq : txn.completeListing names = { txn.mapEntries
      (fun r e => if r ∈ txn.stored ∧ e.name ∉ names then e.markNamespaceMissing else e)
      (fun _ _ => by split <;> rfl) with listed := true } := by
  rw [completeListing, foldl_markAbsent]

theorem schemas_completeListing : (txn.completeListing names).schemas = txn.schemas := by
  rw [completeListing_eq]
  rfl

theorem stored_completeListing : (txn.completeListing names).stored = txn.stored := by
  rw [stored, schemas_completeListing, stored]

-- The entries that exist before a listing are at most marked as missing by it.
theorem getElem?_heap_completeListing (he : txn.heap[r]? = some e) :
    (txn.completeListing names).heap[r]? = some
      (if r ∈ txn.stored ∧ e.name ∉ names then e.markNamespaceMissing else e) := by
  simp [completeListing_eq, mapEntries, he]

end

-- What can become of a transaction over time.
structure Evolves (txn txn' : Transaction) : Prop where
  start   : txn'.startTimestampMs = txn.startTimestampMs
  heap    : ∀ {r : Nat} {e : SchemaEntry}, txn.heap[r]? = some e →
    ∃ e', txn'.heap[r]? = some e' ∧ e.Evolves e'
  schemas : ∀ {name : String} {r : Nat}, txn.schemas[name]? = some r → txn'.schemas[name]? = some r
  listed  : txn.listed → txn'.listed ∧ txn'.schemas = txn.schemas

variable {txn txn' txn'' : Transaction} {catalog : Catalog} {name : String} {r : Nat}
  {e e' : SchemaEntry} {exchanges : List Exchange}

namespace Evolves

theorem refl : Evolves txn txn where
  start   := rfl
  heap    := fun h => ⟨_, h, .refl⟩
  schemas := id
  listed  := fun h => ⟨h, rfl⟩

theorem trans (h : Evolves txn txn') (h' : Evolves txn' txn'') : Evolves txn txn'' where
  start   := h'.start.trans h.start
  schemas := h'.schemas ∘ h.schemas
  heap    := by
    intro r e he
    have ⟨e', he', hev⟩ := h.heap he
    have ⟨e'', he'', hev'⟩ := h'.heap he'
    exact ⟨e'', he'', hev.trans hev'⟩
  listed  := by
    intro hl
    have ⟨hl', hs⟩ := h.listed hl
    have ⟨hl'', hs'⟩ := h'.listed hl'
    exact ⟨hl'', hs'.trans hs⟩

theorem store (hl : ¬txn.listed) (hn : txn.schemas[name]? = none) :
    Evolves txn (txn.store name) where
  start   := rfl
  listed  := fun h => absurd h hl
  heap    := by
    intro r e he
    have hr := (List.getElem?_eq_some_iff.mp he).1
    exact ⟨e, (List.getElem?_append_left hr).trans he, .refl⟩
  schemas := by
    intro name' r hr
    have hne : name ≠ name' := fun h => nomatch (h ▸ hn).symm.trans hr
    simp [Transaction.store, Std.ExtTreeMap.getElem?_insert, hne, hr]

theorem mapEntries {f : Nat → SchemaEntry → SchemaEntry} (hn : ∀ r e, (f r e).name = e.name)
    (h : ∀ r e, txn.heap[r]? = some e → SchemaEntry.Evolves e (f r e)) :
    Evolves txn (txn.mapEntries f hn) where
  start   := rfl
  heap    := fun he => ⟨_, by simp [Transaction.mapEntries, he], h _ _ he⟩
  schemas := id
  listed  := fun h => ⟨h, rfl⟩

theorem completeListing (hl : ¬txn.listed) {names : List String} :
    Evolves txn (txn.completeListing names) where
  start   := by rw [completeListing_eq]; rfl
  schemas := schemas_completeListing.symm ▸ id
  listed  := fun h => absurd h hl
  heap    := by
    intro r e he
    refine ⟨_, getElem?_heap_completeListing he, ?_⟩
    split
    case isTrue  => exact .markNamespaceMissing
    case isFalse => exact .refl

end Evolves

theorem storeNew_evolves (hl : ¬txn.listed) : txn.Evolves (txn.storeNew name) := by
  rw [storeNew]
  split
  case h_1 => exact .refl
  case h_2 hn => exact .store hl hn

@[simp]
theorem listed_storeNew : (txn.storeNew name).listed = txn.listed := by
  rw [storeNew]
  split <;> rfl

theorem list_evolves (hl : ¬txn.listed) {namespaces : List Namespace} :
    txn.Evolves (txn.list namespaces) := by
  have go (names : List String) : let txn' := names.foldl storeNew txn
      txn.Evolves txn' ∧ ¬txn'.listed := by
    refine List.foldlRecOn (motive := fun t => txn.Evolves t ∧ ¬t.listed) names _ ⟨.refl, hl⟩ ?_
    exact fun t ⟨h, hl⟩ n _ => ⟨h.trans <| storeNew_evolves hl, by simpa using hl⟩
  have ⟨h, hl⟩ := go (namespaces.filterMap Namespace.singleLevel)
  exact h.trans <| .completeListing hl

-- What a step can do, given the exchanges that it took.
inductive Step (txn : Transaction) (catalog : Catalog) : List Exchange → Transaction → Prop
  | unchanged :
    Step txn catalog [] txn
  | failed {error : Error} (hc : catalog.listNamespaces { levels := [] } = .error error) :
    Step txn catalog [.listNamespaces { levels := [] } (.error error)] txn
  | stored {name : String} (hl : ¬txn.listed) (hn : txn.schemas[name]? = none) :
    Step txn catalog [] (txn.store name)
  | listed {namespaces : List Namespace} (hl : ¬txn.listed)
      (hc : catalog.listNamespaces { levels := [] } = .ok namespaces) :
    Step txn catalog [.listNamespaces { levels := [] } (.ok namespaces)] (txn.list namespaces)
  | performed {r : Nat} {op : SchemaEntry.Op} :
    Step txn catalog ((txn.perform catalog r op).1.elim [] Answer.exchanges)
      (txn.perform catalog r op).2

-- What becomes of a listing of the namespaces.
inductive ListOutcome (txn : Transaction) (catalog : Catalog) :
    Answer (List Nat) × Transaction → Prop
  | cached (hl : txn.listed) :
    ListOutcome txn catalog ({ result := .ok txn.visited, exchanges := [] }, txn)
  | failed {error : Error} {exception : Exception}
      (hc : catalog.listNamespaces { levels := [] } = .error error) :
    ListOutcome txn catalog ({
      result    := .error exception
      exchanges := [.listNamespaces { levels := [] } (.error error)]
    }, txn)
  | listed {namespaces : List Namespace} (hl : ¬txn.listed)
      (hc : catalog.listNamespaces { levels := [] } = .ok namespaces) :
    ListOutcome txn catalog ({
      result    := .ok (txn.list namespaces).visited
      exchanges := [.listNamespaces { levels := [] } (.ok namespaces)]
    }, txn.list namespaces)

theorem scanSchemas_outcome : ListOutcome txn catalog (txn.scanSchemas catalog) := by
  rw [scanSchemas]
  split
  case isTrue hl  => exact .cached hl
  case isFalse hl =>
    dsimp only
    cases hc : catalog.listNamespaces { levels := [] }
    case error => exact .failed hc
    case ok    => exact .listed hl hc

theorem scanSchemas_step :
    Step txn catalog (txn.scanSchemas catalog).1.exchanges (txn.scanSchemas catalog).2 := by
  have hlist := @scanSchemas_outcome txn catalog
  generalize txn.scanSchemas catalog = outcome at hlist ⊢
  cases hlist
  case cached       => exact .unchanged
  case failed hc    => exact .failed hc
  case listed hl hc => exact .listed hl hc

theorem lookupSchema_step {defaultSchema schemaName : String} {ifNotFound : OnEntryNotFound} :
    Step txn catalog [] (txn.lookupSchema defaultSchema schemaName ifNotFound).2 := by
  dsimp only [lookupSchema]
  split
  case h_1 => split <;> exact .unchanged
  case h_2 hn =>
    split
    case isTrue     => exact .unchanged
    case isFalse hl => exact .stored hl hn

theorem scanSchemas_visited {refs : List Nat}
    (h : (txn.scanSchemas catalog).1.result = .ok refs) :
    refs = (txn.scanSchemas catalog).2.visited := by
  have hlist := @scanSchemas_outcome txn catalog
  generalize txn.scanSchemas catalog = outcome at hlist h ⊢
  cases hlist
  case cached => exact (Except.ok.inj h).symm
  case failed => exact nomatch h
  case listed => exact (Except.ok.inj h).symm

theorem lookupSchema_evolves {defaultSchema schemaName : String} {ifNotFound : OnEntryNotFound} :
    txn.Evolves (txn.lookupSchema defaultSchema schemaName ifNotFound).2 := by
  dsimp only [lookupSchema]
  split
  case h_1 => split <;> exact .refl
  case h_2 hn =>
    split
    case isTrue     => exact .refl
    case isFalse hl => exact .store hl hn

theorem machine_step {duckdbTimestamp : Int} {defaultSchema : String} {i : Catalog × Op} :
    let m := machine duckdbTimestamp defaultSchema
    Step txn i.1 (m.out txn i) (m.next txn i) := by
  rcases i with ⟨catalog, op⟩
  cases op
  case lookupSchema => exact lookupSchema_step
  case scanSchemas  => exact scanSchemas_step
  case perform      => exact .performed

theorem perform_evolves {op : SchemaEntry.Op} : txn.Evolves (txn.perform catalog r op).2 := by
  dsimp only [perform]
  refine Evolves.mapEntries _ fun r' e he => ?_
  split
  case isTrue  => exact SchemaEntry.perform_step.evolves
  case isFalse => exact .refl

theorem Step.evolves (h : Step txn catalog exchanges txn') : txn.Evolves txn' := by
  cases h
  case unchanged     => exact .refl
  case failed        => exact .refl
  case stored hl hn  => exact .store hl hn
  case listed hl _   => exact list_evolves hl
  case performed     => exact perform_evolves

theorem machine_run_evolves {duckdbTimestamp : Int} {defaultSchema : String}
    {is : List (Catalog × Op)} : txn.Evolves ((machine duckdbTimestamp defaultSchema).run txn is) :=
  Machine.run_preserves (fun _ _ h => Evolves.trans h machine_step.evolves) .refl

theorem perform_heap {op : SchemaEntry.Op} (he : txn.heap[r]? = some e) :
    (txn.perform catalog r op).2.heap[r]? =
      some (e.perform catalog txn.startTimestampMs op).2 := by
  simp [perform, mapEntries, he]

theorem perform_heap_of_ne {r' : Nat} {op : SchemaEntry.Op} (hr : r ≠ r') :
    (txn.perform catalog r' op).2.heap[r]? = txn.heap[r]? := by
  cases he : txn.heap[r]? <;> simp [perform, mapEntries, he, hr]

theorem perform_answer {op : SchemaEntry.Op} (he : txn.heap[r]? = some e) :
    (txn.perform catalog r op).1 = some (e.perform catalog txn.startTimestampMs op).1 := by
  simp [perform, he]

theorem isNamespaceMissing_eq (he : txn.heap[r]? = some e) :
    txn.isNamespaceMissing r = e.namespaceMissing := by
  simp [isNamespaceMissing, he]

theorem mem_stored_iff :
    r ∈ txn.stored ↔ ∃ name : String, txn.schemas[name]? = some r := by
  simp only [stored, List.mem_map, Prod.exists, exists_eq_right,
    Std.ExtTreeMap.mem_toList_iff_getElem?_eq_some]

theorem mem_visited_iff : r ∈ txn.visited ↔
    (∃ name : String, txn.schemas[name]? = some r) ∧ ¬txn.isNamespaceMissing r := by
  simp [visited, mem_stored_iff]

section

variable {defaultSchema schemaName : String} {ifNotFound : OnEntryNotFound}

theorem lookupSchema_of_known (hr : txn.schemas[redirect defaultSchema schemaName]? = some r)
    (hm : ¬txn.isNamespaceMissing r) :
    txn.lookupSchema defaultSchema schemaName ifNotFound = (.ok (some r), txn) := by
  simp [lookupSchema, hr, hm]

theorem schemaNotFound_ne_ok : schemaNotFound schemaName ifNotFound ≠ .ok (some r) := by
  cases ifNotFound <;> exact nofun

-- A schema entry that has been looked up is the one that is stored, and not known to be missing.
theorem lookupSchema_ok
    (h : (txn.lookupSchema defaultSchema schemaName ifNotFound).1 = .ok (some r)) :
    let txn' := (txn.lookupSchema defaultSchema schemaName ifNotFound).2
    txn'.schemas[redirect defaultSchema schemaName]? = some r ∧ ¬txn'.isNamespaceMissing r := by
  intro txn'
  dsimp only [txn', lookupSchema] at h ⊢
  split at h
  case h_1 r' hr =>
    split at h
    case isTrue => exact (schemaNotFound_ne_ok h).elim
    case isFalse hm =>
      cases h
      simp [hr, hm]
  case h_2 hn =>
    split at h
    case isTrue => exact (schemaNotFound_ne_ok h).elim
    case isFalse hl =>
      cases h
      simp [hl, store, isNamespaceMissing, SchemaEntry.create]

end

section

variable {names : List String} {namespaces : List Namespace}

theorem getElem?_heap_storeNew (he : txn.heap[r]? = some e) :
    (txn.storeNew name).heap[r]? = some e := by
  rw [storeNew]
  split
  case h_1 => exact he
  case h_2 => exact (List.getElem?_append_left (List.getElem?_eq_some_iff.mp he).1).trans he

theorem getElem?_heap_foldl_storeNew (he : txn.heap[r]? = some e) :
    (names.foldl storeNew txn).heap[r]? = some e :=
  List.foldlRecOn (motive := fun t : Transaction => t.heap[r]? = some e) names _ he
    fun _ h _ _ => getElem?_heap_storeNew h

theorem getElem?_heap_list (he : txn.heap[r]? = some e) :
    (txn.list namespaces).heap[r]? = some
      (if r ∈ (txn.list namespaces).stored ∧ getNamespace e.name ∉ namespaces
        then e.markNamespaceMissing else e) := by
  rw [list, stored_completeListing, getElem?_heap_completeListing (getElem?_heap_foldl_storeNew he)]
  simp only [Namespace.mem_filterMap_singleLevel]

theorem schemas_storeNew {name' : String} : (txn.storeNew name).schemas[name']? =
    if name = name' ∧ txn.schemas[name]? = none then some txn.heap.length
    else txn.schemas[name']? := by
  rw [storeNew]
  cases h : txn.schemas[name]?
  case some => simp
  case none => simp [store, Std.ExtTreeMap.getElem?_insert]

theorem isSome_schemas_foldl_storeNew_iff :
    ((names.foldl storeNew txn).schemas[name]?).isSome ↔
      (txn.schemas[name]?).isSome ∨ name ∈ names := by
  induction names generalizing txn
  case nil => simp
  case cons n names ih =>
    rw [List.foldl_cons, ih, schemas_storeNew, List.mem_cons]
    by_cases hn : n = name
    case pos => cases h : txn.schemas[name]? <;> simp [hn, h]
    case neg => simp [hn, Ne.symm hn]

theorem heap_store_cases (he : (txn.store name).heap[r]? = some e) :
    txn.heap[r]? = some e ∨ txn.heap[r]? = none ∧ e = .create name := by
  cases Nat.lt_or_ge r txn.heap.length
  case inl hr => exact .inl <| (List.getElem?_append_left hr).symm.trans he
  case inr hr =>
    have hs := (List.getElem?_append_right hr).symm.trans he
    exact .inr ⟨List.getElem?_eq_none hr, List.mem_singleton.mp <| List.mem_of_getElem? hs⟩

theorem heap_foldl_storeNew_cases (he : (names.foldl storeNew txn).heap[r]? = some e) :
    txn.heap[r]? = some e ∨ txn.heap[r]? = none ∧ ∃ name, e = .create name := by
  cases he₀ : txn.heap[r]?
  case some e₀ => exact .inl <| (getElem?_heap_foldl_storeNew he₀).symm.trans he
  case none =>
    refine .inr ⟨rfl, ?_⟩
    induction names generalizing txn
    case nil => exact nomatch he₀.symm.trans he
    case cons n names ih =>
      cases hn : (txn.storeNew n).heap[r]?
      case none => exact ih he hn
      case some e' =>
        cases (getElem?_heap_foldl_storeNew hn).symm.trans he
        rw [storeNew] at hn
        split at hn
        case h_1 => exact nomatch he₀.symm.trans hn
        case h_2 =>
          cases heap_store_cases hn
          case inl hold => exact nomatch he₀.symm.trans hold
          case inr hc   => exact ⟨n, hc.right⟩

theorem heap_completeListing_cases
    (he : (txn.completeListing (namespaces.filterMap Namespace.singleLevel)).heap[r]? = some e) :
    ∃ e₀, txn.heap[r]? = some e₀ ∧
      (e = e₀ ∨ e = e₀.markNamespaceMissing ∧ getNamespace e₀.name ∉ namespaces) := by
  cases he₀ : txn.heap[r]?
  case none => simp [completeListing_eq, mapEntries, he₀] at he
  case some e₀ =>
    refine ⟨e₀, rfl, ?_⟩
    have heq := (getElem?_heap_completeListing he₀).symm.trans he
    split at heq
    case isTrue h =>
      cases heq
      exact .inr ⟨rfl, Namespace.mem_filterMap_singleLevel.not.mp h.right⟩
    case isFalse => exact .inl (Option.some.inj heq).symm

-- What a step can do to an entry of the heap, or where an entry comes from.
inductive EntryStep (txn : Transaction) (exchanges : List Exchange) (r : Nat) (e' : SchemaEntry) :
    Prop
  | created (he : txn.heap[r]? = none) (ht : e'.tables = .empty)
      (hm : e'.namespaceMissing → ∃ x ∈ exchanges, x.Denies e'.name)
  | kept {e : SchemaEntry} (he : txn.heap[r]? = some e) (hn : e'.name = e.name)
      (ht : e'.tables = e.tables)
      (hm : e'.namespaceMissing → e.namespaceMissing ∨ ∃ x ∈ exchanges, x.Denies e.name)
  | performed {e : SchemaEntry} {answer : Answer (List Nat)} (he : txn.heap[r]? = some e)
      (hx : answer.exchanges = exchanges) (h : SchemaEntry.Step e answer e')

theorem EntryStep.same (he : txn.heap[r]? = some e) : EntryStep txn exchanges r e :=
  .kept he rfl rfl .inl

theorem Step.entry (h : Step txn catalog exchanges txn') (he : txn'.heap[r]? = some e) :
    EntryStep txn exchanges r e := by
  cases h
  case unchanged => exact .same he
  case failed    => exact .same he
  case stored =>
    cases heap_store_cases he
    case inl hold => exact .same hold
    case inr hc   => have ⟨hnone, hc⟩ := hc; subst hc; exact .created hnone rfl nofun
  case listed namespaces _ _ =>
    let stored := (namespaces.filterMap Namespace.singleLevel).foldl storeNew txn
    have ⟨e₀, he₀, hmark⟩ := heap_completeListing_cases he
    have hden (h : getNamespace e₀.name ∉ namespaces) :
        ∃ x ∈ [.listNamespaces { levels := [] } (.ok namespaces)], Exchange.Denies e₀.name x :=
      ⟨_, .head _, h⟩
    rcases heap_foldl_storeNew_cases he₀ with hold | ⟨hnone, n, hnew⟩
    all_goals
      rcases hmark with heq | ⟨heq, hn⟩ <;> subst heq
    case inl.inl => exact .same hold
    case inl.inr => exact .kept hold rfl rfl fun _ => .inr (hden hn)
    case inr.inl => subst hnew; exact .created hnone rfl nofun
    case inr.inr => subst hnew; exact .created hnone rfl fun _ => hden hn
  case performed r' op =>
    by_cases hr : r = r'
    case neg => exact .same (perform_heap_of_ne hr ▸ he)
    case pos =>
      subst hr
      cases he₀ : txn.heap[r]?
      case none => simp [perform, mapEntries, he₀] at he
      case some e₀ =>
        cases (perform_heap he₀).symm.trans he
        exact .performed he₀ (by simp [perform, he₀]) SchemaEntry.perform_step

end

end Transaction

end ProtoIceberg
