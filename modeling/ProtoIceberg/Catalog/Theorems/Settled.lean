import ProtoIceberg.Catalog.Theorems.Step
import ProtoIceberg.Extensions.Machine

namespace ProtoIceberg

-- The status of a table once looking it up has returned an entry or none.
def TableStatus.ofLookup : Option Nat → TableStatus
  | some r => .loaded r
  | none   => .absent

theorem TableStatus.isSettled_iff {s : TableStatus} : s.isSettled ↔ ∃ r, s = .ofLookup r := by
  constructor
  case mpr => exact fun ⟨r, h⟩ => by subst h; cases r <;> rfl
  case mp =>
    intro h
    cases s
    case loaded r => exact ⟨some r, rfl⟩
    case absent   => exact ⟨none, rfl⟩
    all_goals exact nomatch h

theorem TableStatus.ofLookup_ne_unknown {found : Option Nat} : ofLookup found ≠ .unknown := by
  cases found <;> exact nofun

theorem TableStatus.ofLookup_ne_placeholder {found : Option Nat} {r : Nat} :
    ofLookup found ≠ .placeholder r := by
  cases found <;> exact nofun

theorem TableStatus.ofLookup_inj {found found' : Option Nat} :
    ofLookup found = ofLookup found' ↔ found = found' := by
  cases found <;> cases found' <;> simp [ofLookup]

theorem TableRegistry.exists_entry_of_loaded {registry : TableRegistry} {name : String} {r : Nat}
    (h : registry.status name = .loaded r) :
    ∃ entry, registry.entries[r]? = some entry ∧ entry.name = name ∧ ¬entry.needsLoad := by
  rw [status] at h
  split at h
  case h_3 i hl =>
    split at h
    case isTrue => cases h
    case isFalse hn =>
      cases h
      obtain ⟨entry, he, hname⟩ := registry.valid name r hl
      exact ⟨entry, he, hname, by simpa [needsLoad, he] using hn⟩
  all_goals cases h

def Exchange.loads (id : TableIdentifier) : Exchange → Bool
  | .loadTable id' _ => id' = id
  | _                => false

-- Whether a request to load the table ended in a recorded outcome.
def Answer.records {α : Type} (id : TableIdentifier) (answer : Answer α) : Bool :=
  answer.exchanges.any (·.loads id) && answer.result.isOk

namespace SchemaEntry

variable {α : Type} {e e' : SchemaEntry} {answer : Answer α} {catalog : Catalog} {txnStart : Int}
  {name : String} {r : Option Nat}

theorem loadTableEntry_status (h : (e.loadTableEntry catalog txnStart name).1.result = .ok r) :
    (e.loadTableEntry catalog txnStart name).2.tables.status name = .ofLookup r := by
  have hload := @loadTableEntry_outcome e catalog txnStart name
  generalize e.loadTableEntry catalog txnStart name = outcome at hload h ⊢
  cases hload
  case absentNamespace => cases h; simp [TableRegistry.status_markMissing, TableStatus.ofLookup]
  case absent          => cases h; simp [TableRegistry.status_markMissing, TableStatus.ofLookup]
  case failed          => exact nomatch h
  case unreadable      => exact nomatch h
  case loaded hl       =>
    cases h
    simp [TableRegistry.status_store, TableStatus.ofLookup, hl.name, hl.not_needsLoad]

theorem lookupEntry_of_settled (h : e.tables.status name = .ofLookup r) :
    e.lookupEntry catalog txnStart .tableEntry name = ({ result := .ok r, exchanges := [] }, e) := by
  rw [lookupEntry_eq, h]
  cases r <;> rfl

theorem lookupEntry_status
    (h : (e.lookupEntry catalog txnStart .tableEntry name).1.result = .ok r) :
    (e.lookupEntry catalog txnStart .tableEntry name).2.tables.status name = .ofLookup r := by
  by_cases hs : (e.tables.status name).isSettled
  case pos =>
    have ⟨r', hr'⟩ := TableStatus.isSettled_iff.mp hs
    rw [lookupEntry_of_settled hr'] at h ⊢
    cases h
    exact hr'
  case neg =>
    have hl : e.lookupEntry catalog txnStart .tableEntry name =
        e.loadTableEntry catalog txnStart name := by
      rw [lookupEntry_eq]
      cases he : e.tables.status name
      case loaded | absent => exact absurd (he ▸ rfl) hs
      all_goals rfl
    rw [hl] at h ⊢
    exact loadTableEntry_status h

variable {i : Event} {is : List Event} {schemaName : String}

theorem machine_evolves : e.Evolves ((machine txnStart schemaName).next e i) := by
  cases i
  case perform              => exact perform_step.evolves
  case markNamespaceMissing => exact .markNamespaceMissing

theorem machine_run_evolves : e.Evolves ((machine txnStart schemaName).run e is) :=
  Machine.run_preserves (fun _ _ h => Evolves.trans h machine_evolves) .refl

theorem Step.settles (h : Step e answer e')
    (hr : answer.records (getTableIdentifier schemaName name)) :
    ¬(e.tables.status name).isSettled ∧ (e'.tables.status name).isSettled := by
  have ⟨hx, hok⟩ := Bool.and_eq_true_iff.mp hr
  have hname {n : String} {answer' : Result Table}
      (h : answer.exchanges = [.loadTable (getTableIdentifier e.name n) answer']) : n = name := by
    have hid : getTableIdentifier e.name n = getTableIdentifier schemaName name := by
      simpa [h, Exchange.loads] using hx
    exact congrArg TableIdentifier.name hid
  cases h
  case cached h           => exact absurd hx (by simp [h])
  case failed h           => exact absurd hok (by simp [h, Except.isOk, Except.toBool])
  case namespaceMissing h => exact absurd hx (by simp [h, Exchange.loads])
  case listed h           => exact absurd hx (by simp [h, Exchange.loads])
  case absent hs h =>
    cases hname h
    exact ⟨hs, by simp [TableRegistry.status_markMissing, TableStatus.isSettled]⟩
  case absentNamespace hs h =>
    cases hname h
    exact ⟨hs, by simp [TableRegistry.status_markMissing, TableStatus.isSettled]⟩
  case loaded hs h hl =>
    cases hname h
    have hn := hl.not_needsLoad
    exact ⟨hs, by simp [TableRegistry.status_store, hl.name, hn, TableStatus.isSettled]⟩

theorem machine_settles
    (hr : ((machine txnStart schemaName).out e i).records (getTableIdentifier schemaName name)) :
    ¬(e.tables.status name).isSettled ∧
      (((machine txnStart schemaName).next e i).tables.status name).isSettled := by
  cases i
  case perform              => exact perform_step.settles hr
  case markNamespaceMissing => exact nomatch hr

end SchemaEntry

open SchemaEntry in
-- Once a table has been looked up, its entry or its absence is final.
theorem SchemaEntry.lookupEntry_settles (txnStart : Int) (schemaName name : String)
    (pre post : List SchemaEntry.Event) (catalog catalog' : Catalog) (r : Option Nat) :
    let m := machine txnStart schemaName
    let looked := (m.run m.init pre).lookupEntry catalog txnStart .tableEntry name
    let later := m.run looked.2 post
    (m.outs m.init (pre ++ .perform catalog (.lookupEntry .tableEntry name) :: post)).countP
      (·.records (getTableIdentifier schemaName name)) ≤ 1 ∧
    (looked.1.result = .ok r →
      later.lookupEntry catalog' txnStart .tableEntry name =
        ({ result := .ok r, exchanges := [] }, later) ∧
      ∀ i ∈ r, ∃ entry, looked.2.tables.entries[i]? = some entry ∧
        later.tables.entries[i]? = some entry ∧ entry.name = name ∧ ¬entry.needsLoad) := by
  intro m looked later
  constructor
  case left =>
    apply Machine.countP_outs_le_one (P := fun e => (e.tables.status name).isSettled)
    case hp => exact fun _ _ hr => (machine_settles hr).right
    case hn =>
      intro e i hs
      have he : e.Evolves (m.next e i) := machine_evolves
      exact ⟨(he.settled name hs).symm ▸ hs, fun hr => (machine_settles hr).left hs⟩
  case right =>
    intro hr
    have hs := lookupEntry_status hr
    have hl : later.tables.status name = .ofLookup r :=
      (machine_run_evolves.settled name <| TableStatus.isSettled_iff.mpr ⟨r, hs⟩).trans hs
    refine ⟨lookupEntry_of_settled hl, ?_⟩
    intro i hi
    cases hi
    have ⟨entry, he, hname, hn⟩ := TableRegistry.exists_entry_of_loaded hs
    exact ⟨entry, he, machine_run_evolves.getElem?_entries he, hname, hn⟩

-- A table that was absent when it was looked up stays so, even if it is listed afterwards.
theorem SchemaEntry.lookupEntry_settles_absent :
    let listing : Catalog := {
      listNamespaces := fun _ => .ok []
      listTables     := fun ns => .ok [{ ns, name := "orders" }]
      loadTable      := fun _ => .error { kind := .noSuchTable, message := "" }
    }
    let looked := (SchemaEntry.create "shop").lookupEntry listing 0 .tableEntry "orders"
    let later := (SchemaEntry.machine 0 "shop").run looked.2 [.perform listing .scanTables]
    later.lookupEntry listing 0 .tableEntry "orders" =
      ({ result := .ok none, exchanges := [] }, later) := by
  intro listing looked later
  have h := SchemaEntry.lookupEntry_settles 0 "shop" "orders" [] [.perform listing .scanTables]
    listing listing none
  exact h.right rfl |>.left

end ProtoIceberg
