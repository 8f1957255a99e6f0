import Mathlib.Data.List.Basic
import Std.Data.ExtTreeMap

namespace ProtoIceberg

-- A map whose keys are each unknown, negative (known absent) or positive (found).
structure SignedStore (κ ν : Type) [Ord κ] where
  entries : Std.ExtTreeMap κ (Option ν)

namespace SignedStore

inductive LookupResult (ν : Type)
  | unknown
  | negative
  | positive (value : ν)
  deriving DecidableEq

variable {κ ν : Type} [Ord κ]

def empty : SignedStore κ ν where
  entries := ∅

variable [Std.TransOrd κ]

def lookup (store : SignedStore κ ν) (key : κ) : LookupResult ν :=
  match store.entries[key]? with
  | none              => .unknown
  | some none         => .negative
  | some (some value) => .positive value

-- Stores a positive entry, replacing any previous one.
def put (store : SignedStore κ ν) (key : κ) (value : ν) : SignedStore κ ν where
  entries := store.entries.insert key (some value)

-- Stores a negative entry, replacing any previous one.
def putMiss (store : SignedStore κ ν) (key : κ) : SignedStore κ ν where
  entries := store.entries.insert key none

-- The positive entries in key order.
def positives (store : SignedStore κ ν) : List (κ × ν) :=
  store.entries.toList.filterMap fun (key, value) => value.map (key, ·)

variable {store : SignedStore κ ν} {key key' : κ} {value : ν}

@[simp]
theorem lookup_empty : (empty : SignedStore κ ν).lookup key = .unknown := by
  simp [lookup, empty]

variable [Std.LawfulEqOrd κ] [DecidableEq κ]

theorem lookup_put :
    (store.put key value).lookup key' = if key = key' then .positive value else store.lookup key' := by
  by_cases h : key = key' <;> simp [lookup, put, Std.ExtTreeMap.getElem?_insert, h]

theorem lookup_putMiss :
    (store.putMiss key).lookup key' = if key = key' then .negative else store.lookup key' := by
  by_cases h : key = key' <;> simp [lookup, putMiss, Std.ExtTreeMap.getElem?_insert, h]

omit [DecidableEq κ] in
theorem mem_positives_iff :
    (key, value) ∈ store.positives ↔ store.lookup key = .positive value := by
  have hl : store.lookup key = .positive value ↔ store.entries[key]? = some (some value) := by
    rw [lookup]
    split <;> simp_all
  rw [hl, ← Std.ExtTreeMap.mem_toList_iff_getElem?_eq_some, positives, List.mem_filterMap]
  constructor
  case mp =>
    intro ⟨⟨k, v⟩, hm, he⟩
    have ⟨w, hw, he⟩ := Option.map_eq_some_iff.mp he
    cases hw
    cases he
    exact hm
  case mpr => exact fun h => ⟨_, h, rfl⟩

omit [DecidableEq κ] [Std.LawfulEqOrd κ] in
theorem positives_ordered :
    store.positives.Pairwise fun a b => compare a.1 b.1 = .lt := by
  rw [positives, List.pairwise_filterMap]
  refine Std.ExtTreeMap.ordered_keys_toList.imp ?_
  intro a b h c hc d hd
  have ⟨_, _, hc⟩ := Option.map_eq_some_iff.mp hc
  have ⟨_, _, hd⟩ := Option.map_eq_some_iff.mp hd
  exact hc ▸ hd ▸ h

end SignedStore

end ProtoIceberg
