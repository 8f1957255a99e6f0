import Mathlib.Logic.Function.Basic
import ProtoIceberg.Catalog.SignedStore
import ProtoIceberg.Catalog.TableEntry

namespace ProtoIceberg

-- Owns a schema's table entries until the transaction ends. The index names each table's current entry
-- by its position, or records that the table doesn't exist.
structure TableRegistry where
  entries : List TableEntry
  index   : SignedStore String Nat
  listed  : Bool
  valid   : ∀ name r, index.lookup name = .positive r → ∃ e, entries[r]? = some e ∧ e.name = name

namespace TableRegistry

def empty : TableRegistry where
  entries := []
  index   := .empty
  listed  := false
  valid   := fun _ _ h => nomatch SignedStore.lookup_empty.symm.trans h

def lookup (registry : TableRegistry) (name : String) : SignedStore.LookupResult Nat :=
  registry.index.lookup name

def visited (registry : TableRegistry) : List Nat :=
  registry.index.positives.map Prod.snd

-- The new entry is at the end.
def store (registry : TableRegistry) (entry : TableEntry) : TableRegistry where
  entries := registry.entries ++ [entry]
  index   := registry.index.put entry.name registry.entries.length
  listed  := registry.listed
  valid   := by
    intro name r h
    rw [SignedStore.lookup_put] at h
    split at h
    case isTrue hn =>
      cases h
      exact ⟨entry, List.getElem?_concat_length, hn⟩
    case isFalse =>
      have ⟨e, he, hn⟩ := registry.valid name r h
      exact ⟨e, List.getElem?_append_left (List.getElem?_eq_some_iff.mp he).1 ▸ he, hn⟩

def markMissing (registry : TableRegistry) (name : String) : TableRegistry where
  entries := registry.entries
  index   := registry.index.putMiss name
  listed  := registry.listed
  valid   := by
    intro name' r h
    rw [SignedStore.lookup_putMiss] at h
    split at h
    case isTrue  => exact nomatch h
    case isFalse => exact registry.valid name' r h

def markListed (registry : TableRegistry) : TableRegistry :=
  { registry with listed := true }

def storePlaceholder (registry : TableRegistry) (name : String) : TableRegistry :=
  match registry.lookup name with
  | .unknown => registry.store (.placeholder name)
  | _        => registry

def list (registry : TableRegistry) (names : List String) : TableRegistry :=
  names.foldl storePlaceholder registry.markListed

def needsLoad (registry : TableRegistry) (r : Nat) : Bool :=
  registry.entries[r]?.any TableEntry.needsLoad

end TableRegistry

-- What is known of a table. Tables that are loaded or absent are settled.
inductive TableStatus
  | unknown
  | placeholder (entry : Nat)
  | loaded (entry : Nat)
  | absent
  deriving DecidableEq

namespace TableStatus

def isSettled : TableStatus → Bool
  | .loaded _ | .absent => true
  | _                   => false

def visits : TableStatus → Nat → Prop
  | .placeholder r, r' | .loaded r, r' => r = r'
  | _, _                               => False

end TableStatus

namespace TableRegistry

def status (registry : TableRegistry) (name : String) : TableStatus :=
  match registry.lookup name with
  | .unknown    => .unknown
  | .negative   => .absent
  | .positive r => if registry.needsLoad r then .placeholder r else .loaded r

variable {registry : TableRegistry} {entry : TableEntry} {name : String} {r : Nat}

theorem needsLoad_store_of_lt (h : r < registry.entries.length) :
    (registry.store entry).needsLoad r = registry.needsLoad r := by
  rw [needsLoad, needsLoad, store, List.getElem?_append_left h]

theorem needsLoad_store_length :
    (registry.store entry).needsLoad registry.entries.length = entry.needsLoad := by
  rw [needsLoad, store, List.getElem?_concat_length, Option.any_some]

theorem lt_length_of_lookup (h : registry.lookup name = .positive r) :
    r < registry.entries.length :=
  have ⟨_, he, _⟩ := registry.valid name r h
  (List.getElem?_eq_some_iff.mp he).1

theorem lookup_store :
    (registry.store entry).lookup name =
      if entry.name = name then .positive registry.entries.length else registry.lookup name :=
  SignedStore.lookup_put

theorem lookup_markMissing {name' : String} :
    (registry.markMissing name).lookup name' =
      if name = name' then .negative else registry.lookup name' :=
  SignedStore.lookup_putMiss

theorem status_empty : empty.status name = .unknown := by
  simp [status, lookup, empty]

theorem status_store (registry : TableRegistry) (entry : TableEntry) :
    (registry.store entry).status = Function.update registry.status entry.name
      (if entry.needsLoad then .placeholder registry.entries.length
        else .loaded registry.entries.length) := by
  funext name
  rw [status, lookup_store]
  by_cases h : entry.name = name
  case pos => simp [h, needsLoad_store_length]
  case neg =>
    rw [if_neg h, Function.update_of_ne (Ne.symm h), status]
    cases hl : registry.lookup name
    case positive r => simp [needsLoad_store_of_lt (lt_length_of_lookup hl)]
    all_goals rfl

theorem status_markMissing (registry : TableRegistry) (name : String) :
    (registry.markMissing name).status = Function.update registry.status name .absent := by
  funext name'
  rw [status, lookup_markMissing]
  by_cases h : name = name'
  case pos => simp [h]
  case neg => 
    rw [if_neg h, Function.update_of_ne (Ne.symm h)]
    rfl

theorem status_eq_unknown_iff :
    registry.status name = .unknown ↔ registry.lookup name = .unknown := by
  rw [status]
  cases registry.lookup name
  case positive r => cases h : registry.needsLoad r <;> simp [h]
  all_goals simp

theorem visits_status_iff : (registry.status name).visits r ↔ registry.lookup name = .positive r := by
  rw [status]
  cases registry.lookup name
  case positive r => cases h : registry.needsLoad r <;> simp [h, TableStatus.visits]
  all_goals simp [TableStatus.visits]

theorem mem_visited_iff : r ∈ registry.visited ↔ ∃ name, (registry.status name).visits r := by
  simp only [visited, List.mem_map, visits_status_iff, lookup, ← SignedStore.mem_positives_iff]
  constructor
  case mp  => exact fun ⟨⟨name, _⟩, h, he⟩ => ⟨name, he ▸ h⟩
  case mpr => exact fun ⟨name, h⟩ => ⟨⟨name, r⟩, h, rfl⟩

theorem status_storePlaceholder (registry : TableRegistry) (name : String) :
    (registry.storePlaceholder name).status =
      if registry.status name = .unknown then
        Function.update registry.status name (.placeholder registry.entries.length)
      else registry.status := by
  simp only [status_eq_unknown_iff, storePlaceholder]
  cases h : registry.lookup name
  case unknown  => exact status_store registry (.placeholder name)
  case negative => rfl
  case positive => rfl

theorem status_storePlaceholder_eq {name' : String}
    (h : registry.status name' = .unknown → name' ≠ name) :
    (registry.storePlaceholder name).status name' = registry.status name' := by
  rw [status_storePlaceholder]
  split
  case isTrue hu =>
    have hne : name' ≠ name := fun he => h (he ▸ hu) he
    exact Function.update_of_ne hne _ _
  case isFalse => rfl

variable {names : List String}

-- Listing changes nothing about tables that have been looked up, or that are not listed.
theorem status_foldl_storePlaceholder_eq (h : registry.status name = .unknown → name ∉ names) :
    (names.foldl storePlaceholder registry).status name = registry.status name := by
  induction names generalizing registry
  case nil => rfl
  case cons n names ih =>
    have hs : (registry.storePlaceholder n).status name = registry.status name :=
      status_storePlaceholder_eq fun hu => List.ne_of_not_mem_cons (h hu)
    rw [List.foldl_cons, ih fun hu => List.not_mem_of_not_mem_cons (h (hs ▸ hu)), hs]

theorem status_list_of_known (h : registry.status name ≠ .unknown) :
    (registry.list names).status name = registry.status name :=
  status_foldl_storePlaceholder_eq fun hu => absurd hu h

theorem status_list_of_not_mem (hn : name ∉ names) :
    (registry.list names).status name = registry.status name :=
  status_foldl_storePlaceholder_eq fun _ => hn

theorem status_list_of_mem (h : registry.status name = .unknown) (hn : name ∈ names) :
    ∃ r, (registry.list names).status name = .placeholder r := by
  have go (registry : TableRegistry) (h : registry.status name = .unknown) :
      ∃ r, (names.foldl storePlaceholder registry).status name = .placeholder r := by
    induction names generalizing registry
    case nil => exact absurd hn List.not_mem_nil
    case cons n names ih =>
      by_cases he : name = n
      case pos =>
        have hs : (registry.storePlaceholder n).status name =
            .placeholder registry.entries.length := by
          rw [status_storePlaceholder, if_pos (he ▸ h), he, Function.update_self]
        have hk : (registry.storePlaceholder n).status name ≠ .unknown := hs ▸ nofun
        exact ⟨_, (status_foldl_storePlaceholder_eq fun hu => absurd hu hk).trans hs⟩
      case neg =>
        have hs : (registry.storePlaceholder n).status name = registry.status name :=
          status_storePlaceholder_eq fun _ => he
        exact ih (List.mem_of_ne_of_mem he hn) _ (hs.trans h)
  exact go registry.markListed h

theorem status_list_cases (registry : TableRegistry) (names : List String) (name : String) :
    (registry.list names).status name = registry.status name ∧
      (registry.status name = .unknown → name ∉ names) ∨
    registry.status name = .unknown ∧ name ∈ names ∧
      ∃ r, (registry.list names).status name = .placeholder r := by
  by_cases hu : registry.status name = .unknown
  case neg => exact .inl ⟨status_list_of_known hu, fun h => absurd h hu⟩
  case pos =>
    by_cases hn : name ∈ names
    case pos => exact .inr ⟨hu, hn, status_list_of_mem hu hn⟩
    case neg => exact .inl ⟨status_list_of_not_mem hn, fun _ => hn⟩

theorem entries_storePlaceholder_prefix :
    registry.entries <+: (registry.storePlaceholder name).entries := by
  rw [storePlaceholder]
  split
  case h_1 => exact List.prefix_append _ _
  case h_2 => exact List.prefix_rfl

@[simp]
theorem listed_storePlaceholder : (registry.storePlaceholder name).listed = registry.listed := by
  rw [storePlaceholder]
  split <;> rfl

theorem entries_list_prefix : registry.entries <+: (registry.list names).entries :=
  List.foldlRecOn (motive := (registry.entries <+: TableRegistry.entries ·)) names _ List.prefix_rfl
    fun _ h _ _ => h.trans entries_storePlaceholder_prefix

theorem scanInfo_storePlaceholder (h : entry ∈ (registry.storePlaceholder name).entries) :
    entry ∈ registry.entries ∨ entry.scanInfo = none := by
  rw [storePlaceholder] at h
  split at h
  case h_1 =>
    cases List.mem_append.mp h
    case inl h => exact .inl h
    case inr h => exact .inr <| List.mem_singleton.mp h ▸ rfl
  case h_2 => exact .inl h

theorem scanInfo_list (h : entry ∈ (registry.list names).entries) :
    entry ∈ registry.entries ∨ entry.scanInfo = none := by
  revert h
  refine List.foldlRecOn (motive := fun r : TableRegistry =>
    entry ∈ r.entries → entry ∈ registry.entries ∨ entry.scanInfo = none) names _ .inl ?_
  intro _ ih _ _ h
  exact (scanInfo_storePlaceholder h).elim ih .inr

theorem listed_list : (registry.list names).listed = true :=
  List.foldlRecOn (motive := (TableRegistry.listed · = true)) names _ rfl
    fun _ h _ _ => listed_storePlaceholder.trans h

end TableRegistry

end ProtoIceberg
