import ProtoIceberg.Catalog.Theorems.Failure
import ProtoIceberg.Catalog.Theorems.Settled

namespace ProtoIceberg

-- A loaded entry is what is known of its table.
def TableRegistry.LoadedCurrent (registry : TableRegistry) : Prop :=
  ∀ i entry, registry.entries[i]? = some entry → ¬entry.needsLoad →
    registry.status entry.name = .loaded i

namespace TableRegistry.LoadedCurrent

variable {registry : TableRegistry} {entry : TableEntry} {name : String}

theorem empty : TableRegistry.empty.LoadedCurrent :=
  fun _ _ h => nomatch h

theorem store (h : registry.LoadedCurrent) (hs : ¬(registry.status entry.name).isSettled) :
    (registry.store entry).LoadedCurrent := by
  intro i entry' he hload
  rw [status_store]
  cases Nat.lt_or_ge i registry.entries.length
  case inl hi =>
    have hold := h i entry' ((List.getElem?_append_left hi).symm.trans he) hload
    have hne : entry'.name ≠ entry.name := fun hn => hs (hn ▸ hold ▸ rfl)
    rw [Function.update_of_ne hne, hold]
  case inr hi =>
    have hlast := (List.getElem?_append_right hi).symm.trans he
    have hlen : i = registry.entries.length := by
      have := (List.getElem?_eq_some_iff.mp hlast).1
      simp at this
      omega
    subst hlen
    rw [Nat.sub_self] at hlast
    cases hlast
    rw [Function.update_self, if_neg hload]

theorem markMissing (h : registry.LoadedCurrent) (hs : ¬(registry.status name).isSettled) :
    (registry.markMissing name).LoadedCurrent := by
  intro i entry he hload
  have hold := h i entry he hload
  have hne : entry.name ≠ name := fun hn => hs (hn ▸ hold ▸ rfl)
  rw [status_markMissing, Function.update_of_ne hne, hold]

theorem list {names : List String} (h : registry.LoadedCurrent) :
    (registry.list names).LoadedCurrent := by
  refine List.foldlRecOn (motive := LoadedCurrent) names _ h ?_
  intro registry h name _
  rw [storePlaceholder]
  split
  case h_2 => exact h
  case h_1 hu =>
    refine h.store ?_
    change ¬(registry.status name).isSettled
    rw [status_eq_unknown_iff.mpr hu]
    simp [TableStatus.isSettled]

end TableRegistry.LoadedCurrent

namespace SchemaEntry

variable {α : Type} {e e' : SchemaEntry} {answer : Answer α} {catalog : Catalog} {txnStart : Int}

theorem Step.loadedCurrent (h : Step e answer e') (hc : e.tables.LoadedCurrent) :
    e'.tables.LoadedCurrent := by
  cases h
  case cached               => exact hc
  case failed               => exact hc
  case namespaceMissing     => exact hc
  case listed               => exact hc.list
  case absent hs _          => exact hc.markMissing hs
  case absentNamespace hs _ => exact hc.markMissing hs
  case loaded hs _ hl       => exact hc.store (hl.name ▸ hs)

theorem entries_of_visited {i : Nat} (h : i ∈ e.tables.visited) :
    ∃ entry, e.tables.entries[i]? = some entry := by
  have ⟨name, hv⟩ := TableRegistry.mem_visited_iff.mp h
  have ⟨entry, he, _⟩ := e.tables.valid name i (TableRegistry.visits_status_iff.mp hv)
  exact ⟨entry, he⟩

theorem scanTables_shows {refs : List Nat} (hr : (e.scanTables catalog).1.result = .ok refs) :
    ∀ i ∈ refs, i ∈ (e.scanTables catalog).2.tables.visited := by
  have hlist := @scanTables_outcome e catalog
  generalize e.scanTables catalog = outcome at hlist hr ⊢
  cases hlist
  case cached           => cases hr; exact fun _ => id
  case namespaceMissing => cases hr; exact nofun
  case failed           => exact nomatch hr
  case listed           => cases hr; exact fun _ => id

-- Operations return and pass to callbacks what the registry owns.
theorem perform_owned {op : Op} {refs : List Nat}
    (hr : (e.perform catalog txnStart op).1.result = .ok refs) :
    ∀ i ∈ refs, ∃ entry, (e.perform catalog txnStart op).2.tables.entries[i]? = some entry := by
  cases op
  case scanTables => exact fun i hi => entries_of_visited (scanTables_shows hr i hi)
  case scan type =>
    rw [perform] at hr ⊢
    cases scan_cases e catalog type
    case inl hs =>
      rw [hs] at hr
      cases hr
      simp
    case inr hs =>
      rw [hs.right] at hr ⊢
      exact fun i hi => entries_of_visited (scanTables_shows hr i hi)
  case lookupEntry type name =>
    dsimp only [perform] at hr ⊢
    intro i hi
    cases hl : (e.lookupEntry catalog txnStart type name).1.result
    case error =>
      rw [hl] at hr
      cases hr
    case ok r =>
      rw [hl] at hr
      cases hr
      by_cases ht : type = .tableEntry
      case neg =>
        rw [lookupEntry, if_pos ht] at hl
        cases hl
        cases hi
      case pos =>
        rw [ht] at hl ⊢
        have hs := lookupEntry_status hl
        cases Option.mem_toList.mp hi
        obtain ⟨entry, he, _⟩ := TableRegistry.exists_entry_of_loaded hs
        exact ⟨entry, he⟩

end SchemaEntry

namespace Transaction

-- A reference to an entry that a transaction's containers own.
inductive Reference
  | schema (r : Nat)
  | table (r i : Nat)

-- The references that are handed out by an operation with the given result.
def Op.references : Op → Except Exception (List Nat) → List Reference
  | _, .error _            => []
  | .perform r _, .ok refs => refs.map (.table r)
  | _, .ok refs            => refs.map .schema

-- What a schema is, or one of its tables. A schema entry is owned as long as the map has it.
def referent (txn : Transaction) : Reference → Option (String × Option TableEntry)
  | .schema r  => do
    let e ← txn.heap[r]?
    if txn.schemas[e.name]? = some r then return (e.name, none) else none
  | .table r i => do
    let e ← txn.heap[r]?
    let entry ← e.tables.entries[i]?
    if txn.schemas[e.name]? = some r then return (e.name, some entry) else none

-- Entries are stored under their names, and tables are loaded once at most.
structure Truthful (txn : Transaction) : Prop where
  schemas : ∀ (name : String) (r : Nat), txn.schemas[name]? = some r →
    ∃ e, txn.heap[r]? = some e ∧ e.name = name
  tables  : ∀ (r : Nat) (e : SchemaEntry) (name : String) (i : Nat), txn.heap[r]? = some e →
    e.tables.lookup name = .positive i →
    ∃ entry, e.tables.entries[i]? = some entry ∧ entry.name = name
  loaded  : ∀ (r : Nat) (e : SchemaEntry) (i j : Nat) (entry entry' : TableEntry),
    txn.heap[r]? = some e → e.tables.entries[i]? = some entry → e.tables.entries[j]? = some entry' →
    ¬entry.needsLoad → ¬entry'.needsLoad → entry.name = entry'.name → i = j

-- Containers never lose or replace what they own.
structure Retains (txn txn' : Transaction) : Prop where
  schemas : ∀ (name : String) (r : Nat), txn.schemas[name]? = some r → txn'.schemas[name]? = some r
  tables  : ∀ (r : Nat) (e : SchemaEntry), txn.heap[r]? = some e →
    ∃ e', txn'.heap[r]? = some e' ∧ e'.name = e.name ∧ e.tables.entries <+: e'.tables.entries

-- All schema entries are owned by the map.
def Owned (txn : Transaction) : Prop :=
  ∀ (r : Nat) (e : SchemaEntry), txn.heap[r]? = some e → txn.schemas[e.name]? = some r

def LoadedCurrent (txn : Transaction) : Prop :=
  ∀ (r : Nat) (e : SchemaEntry), txn.heap[r]? = some e → e.tables.LoadedCurrent

variable {txn txn' : Transaction} {catalog : Catalog} {exchanges : List Exchange}
  {defaultSchema name : String} {op : Op} {ref : Reference} {x : String × Option TableEntry}

namespace Owned

theorem start {t : Int} : (Transaction.start t).Owned :=
  fun _ _ h => nomatch h

theorem store (h : txn.Owned) (hn : txn.schemas[name]? = none) : (txn.store name).Owned := by
  intro r e he
  dsimp only [Transaction.store]
  rw [Std.ExtTreeMap.getElem?_insert]
  cases heap_store_cases he
  case inl hold =>
    have hne : name ≠ e.name := fun heq => nomatch (heq ▸ hn).symm.trans (h r e hold)
    simpa [hne] using h r e hold
  case inr hnew =>
    have ⟨hr, hc⟩ := hnew
    have hlast : r < txn.heap.length + 1 := by
      simpa [Transaction.store] using (List.getElem?_eq_some_iff.mp he).1
    have hlen : r = txn.heap.length := by
      have := List.getElem?_eq_none_iff.mp hr
      omega
    simp [hc, hlen, SchemaEntry.create]

theorem storeNew (h : txn.Owned) : (txn.storeNew name).Owned := by
  rw [Transaction.storeNew]
  split
  case h_1 => exact h
  case h_2 hn => exact h.store hn

theorem mapEntries {f : Nat → SchemaEntry → SchemaEntry} (hn : ∀ r e, (f r e).name = e.name)
    (h : txn.Owned) : (txn.mapEntries f hn).Owned := by
  intro r e' he'
  cases he : txn.heap[r]?
  case none   => simp [Transaction.mapEntries, he] at he'
  case some e =>
    have heq : f r e = e' := by simpa [Transaction.mapEntries, he] using he'
    rw [← heq, hn]
    exact h r e he

theorem completeListing {names : List String} (h : txn.Owned) :
    (txn.completeListing names).Owned := by
  rw [completeListing_eq]
  exact h.mapEntries fun _ _ => by split <;> rfl

theorem step (h : txn.Owned) (hs : Step txn catalog exchanges txn') : txn'.Owned := by
  cases hs
  case unchanged    => exact h
  case failed       => exact h
  case stored hl hn => exact h.store hn
  case performed =>
    dsimp only [perform]
    exact h.mapEntries _
  case listed =>
    apply completeListing
    exact List.foldlRecOn (motive := Owned) _ _ h fun _ h _ _ => h.storeNew

end Owned

namespace LoadedCurrent

theorem start {t : Int} : (Transaction.start t).LoadedCurrent :=
  fun _ _ h => nomatch h

theorem step (h : txn.LoadedCurrent) (hs : Step txn catalog exchanges txn') :
    txn'.LoadedCurrent := by
  intro r e he
  cases hs.entry he
  case created ht _      => exact ht ▸ .empty
  case kept he _ ht _    => exact ht ▸ h _ _ he
  case performed he _ hs => exact hs.loadedCurrent (h _ _ he)

theorem truthful (h : txn.LoadedCurrent) : txn.Truthful where
  schemas := txn.valid
  tables  := fun _ e name i _ => e.tables.valid name i
  loaded  := by
    intro r e i j entry entry' he hi hj hloadi hloadj hname
    have hsi := h r e he i entry hi hloadi
    have hsj := h r e he j entry' hj hloadj
    rw [hname] at hsi
    cases hsi.symm.trans hsj
    rfl

end LoadedCurrent

theorem Evolves.retains (h : txn.Evolves txn') : txn.Retains txn' where
  schemas := fun _ _ hr => h.schemas hr
  tables  := by
    intro r e he
    have ⟨e', he', hev⟩ := h.heap he
    exact ⟨e', he', hev.name, hev.entries⟩

theorem Evolves.referent (h : txn.Evolves txn') (hx : txn.referent ref = some x) :
    txn'.referent ref = some x := by
  cases ref
  case schema r =>
    have ⟨e, he, hx⟩ := Option.bind_eq_some_iff.mp hx
    have ⟨e', he', hev⟩ := h.heap he
    have ⟨hr, hx⟩ := Option.ite_none_right_eq_some.mp hx
    simp [Transaction.referent, he', hev.name, h.schemas hr, ← hx]
  case table r i =>
    have ⟨e, he, hx⟩ := Option.bind_eq_some_iff.mp hx
    have ⟨entry, hentry, hx⟩ := Option.bind_eq_some_iff.mp hx
    have ⟨e', he', hev⟩ := h.heap he
    have ⟨hr, hx⟩ := Option.ite_none_right_eq_some.mp hx
    simp [Transaction.referent, he', hev.name, hev.getElem?_entries hentry, h.schemas hr, ← hx]

theorem referent_of_stored {r : Nat} (hr : txn.schemas[name]? = some r) :
    txn.referent (.schema r) = some (name, none) := by
  obtain ⟨e, he, hn⟩ := txn.valid name r hr
  simp [referent, he, hn, hr]

theorem referent_of_entry {r i : Nat} {e : SchemaEntry} {entry : TableEntry}
    (he : txn.heap[r]? = some e) (hr : txn.schemas[e.name]? = some r)
    (hentry : e.tables.entries[i]? = some entry) :
    txn.referent (.table r i) = some (e.name, some entry) := by
  simp [referent, he, hr, hentry]

theorem Op.mem_references_iff {result : Except Exception (List Nat)} : ref ∈ op.references result ↔
    ∃ refs, result = .ok refs ∧ ∃ i ∈ refs, ref = match op with
      | .perform r _ => .table r i
      | _            => .schema i := by
  cases result
  case error => cases op <;> simp [Op.references]
  case ok    => cases op <;> simp [Op.references, eq_comm]

-- What an operation hands out is owned right after it.
theorem referent_of_references (ho : (txn.step defaultSchema catalog op).2.Owned)
    (href : ref ∈ op.references (txn.result defaultSchema catalog op)) :
    ∃ x, (txn.step defaultSchema catalog op).2.referent ref = some x := by
  obtain ⟨refs, hrefs, i, hi, href⟩ := Op.mem_references_iff.mp href
  subst href
  cases op
  case lookupSchema schemaName ifNotFound =>
    obtain ⟨found, hfound, htolist⟩ := Except.map_eq_ok_iff.mp hrefs
    subst htolist
    cases Option.mem_toList.mp hi
    exact ⟨_, referent_of_stored (lookupSchema_ok hfound).left⟩
  case scanSchemas =>
    rw [scanSchemas_visited hrefs] at hi
    obtain ⟨⟨name, hstored⟩, _⟩ := mem_visited_iff.mp hi
    exact ⟨_, referent_of_stored hstored⟩
  case perform r sop =>
    dsimp only [result] at hrefs
    cases he : txn.heap[r]?
    case none =>
      simp only [perform, he, Option.map_none, Option.elim_none] at hrefs
      cases hrefs
      cases hi
    case some e =>
      rw [perform_answer he] at hrefs
      obtain ⟨entry, hentry⟩ := SchemaEntry.perform_owned hrefs i hi
      have he' : (txn.perform catalog r sop).2.heap[r]? = some _ := perform_heap he
      exact ⟨_, referent_of_entry he' (ho r _ he') hentry⟩

end Transaction

open Transaction in
-- References stay valid until the transaction ends.
theorem references_stay_valid (duckdbTimestamp : Int) (defaultSchema : String)
    (pre post : List (Catalog × Op)) (catalog : Catalog) (op : Op) :
    let m := machine duckdbTimestamp defaultSchema
    let txn := m.run m.init pre
    let txn' := m.next txn (catalog, op)
    let later := m.run txn' post
    (∀ ref ∈ op.references (txn.result defaultSchema catalog op),
      ∃ x, txn'.referent ref = some x ∧ later.referent ref = some x) ∧
    txn'.Retains later ∧ txn.Truthful ∧ later.Truthful := by
  intro m txn txn' later
  have hev : txn'.Evolves later := machine_run_evolves
  have howned : txn.Owned :=
    Machine.run_preserves (fun _ _ h => h.step machine_step) Owned.start
  have hloaded {t : Transaction} (ht : t.LoadedCurrent) (is : List (Catalog × Op)) :
      (m.run t is).LoadedCurrent :=
    Machine.run_preserves (fun _ _ h => h.step machine_step) ht
  refine ⟨?_, hev.retains, (hloaded .start pre).truthful, ?_⟩
  case refine_1 =>
    intro ref href
    have hnext : (txn.step defaultSchema catalog op).2.Owned :=
      howned.step <| @machine_step txn duckdbTimestamp defaultSchema (catalog, op)
    have ⟨x, hx⟩ := referent_of_references hnext href
    exact ⟨x, hx, hev.referent hx⟩
  case refine_2 => exact (hloaded ((hloaded .start pre).step machine_step) post).truthful

end ProtoIceberg
