import ProtoIceberg.Catalog.Theorems.Interleaving
import ProtoIceberg.Catalog.Theorems.Settled

namespace ProtoIceberg

namespace Transaction

variable {txn txn' : Transaction} {catalog : Catalog} {defaultSchema name : String} {r i x : Nat}

-- Whether the table has been found to be the given entry.
def Found (txn : Transaction) (r : Nat) (name : String) (i : Nat) : Prop :=
  ∃ e, txn.heap[r]? = some e ∧ e.tables.status name = .loaded i

theorem Found.evolves (h : txn.Found r name i) (hev : txn.Evolves txn') : txn'.Found r name i := by
  obtain ⟨e, he, hs⟩ := h
  obtain ⟨e', he', hev⟩ := hev.heap he
  exact ⟨e', he', (hev.settled name (by simp [hs, TableStatus.isSettled])).trans hs⟩

theorem Found.of_result
    (h : txn.result defaultSchema catalog (.perform r (.lookupEntry .tableEntry name)) = .ok [i]) :
    (txn.step defaultSchema catalog (.perform r (.lookupEntry .tableEntry name))).2.Found r name i := by
  cases he : txn.heap[r]?
  case none => simp [result, perform, he] at h
  case some e =>
    rw [result, perform_answer he] at h
    obtain ⟨found, hfound, hi⟩ := Except.map_eq_ok_iff.mp h
    have hs := SchemaEntry.lookupEntry_status hfound
    cases found <;> cases hi
    exact ⟨_, perform_heap he, hs⟩

variable {timestamps : Nat → Int} {ops : List (Nat × Catalog × Op)}

-- Whether all entries that lookups have returned are the ones that their tables are found to be.
def Recorded (txns : Nat → Transaction)
    (history : List ((Nat × Catalog × Op) × Except Exception (List Nat))) : Prop :=
  ∀ x catalog r name i,
    ((x, catalog, .perform r (.lookupEntry .tableEntry name)), .ok [i]) ∈ history →
      (txns x).Found r name i

theorem next_evolves {txns : Nat → Transaction} {op : Nat × Catalog × Op} :
    (txns x).Evolves
      ((Machine.product fun x => sequential (timestamps x) defaultSchema).next txns op x) := by
  rw [Machine.next_product]
  split
  case isFalse => exact .refl
  case isTrue  => exact (@machine_step (txns x) (timestamps x) defaultSchema op.2).evolves

theorem recorded :
    let spec := Machine.product fun x => sequential (timestamps x) defaultSchema
    Recorded (spec.run spec.init ops) (spec.history spec.init ops) := by
  intro spec
  apply Machine.run_trace_induction (P := Recorded)
  case hs    => exact fun _ _ _ _ _ h => absurd h List.not_mem_nil
  case hstep =>
    intro txns history op h x catalog r name i hmem
    cases List.mem_append.mp hmem
    case inl hold => exact (h x catalog r name i hold).evolves next_evolves
    case inr hnew =>
      obtain ⟨hop, hout⟩ := Prod.mk.inj <| List.mem_singleton.mp hnew
      subst hop
      rw [Machine.next_product, if_pos rfl]
      exact @Found.of_result _ _ defaultSchema _ _ _ hout.symm

theorem mem_answered {op : Op} {result : Except Exception (List Nat)}
    {answer : (Nat × Catalog × Op) × Except Exception (List Nat)}
    (h : (x, op, result) ∈ answered answer) : ∃ catalog, answer = ((x, catalog, op), result) := by
  obtain ⟨⟨x', catalog, op'⟩, result'⟩ := answer
  obtain ⟨shown, hshown, heq⟩ := List.mem_map.mp h
  cases heq
  refine ⟨catalog, ?_⟩
  cases op'
  case scanSchemas  => cases hshown
  case lookupSchema => cases List.mem_singleton.mp hshown; rfl
  case perform      => cases List.mem_singleton.mp hshown; rfl

end Transaction

open Transaction

-- In any interleaving, all threads get the same entry for a table: the one that the registry holds in
-- the end, which is loaded.
theorem concurrent_lookups_share_one_entry (τ : Type) [DecidableEq τ] [Fintype τ]
    (timestamps : Nat → Int) (defaultSchema : String) (is : List (τ × Transaction.Input))
    (x r i : Nat) (name : String) :
    let m := concurrent τ timestamps defaultSchema
    (x, .perform r (.lookupEntry .tableEntry name), .ok [i]) ∈ (m.outs m.init is).flatMap returned →
      ∃ e entry, ((m.run m.init is).shared x).heap[r]? = some e ∧
        e.tables.lookup name = .positive i ∧ e.tables.entries[i]? = some entry ∧
        entry.name = name ∧ ¬entry.needsLoad := by
  intro m hmem
  let spec := Machine.product fun x => sequential (timestamps x) defaultSchema
  have hr : m.Refines spec (Related timestamps defaultSchema) effects := refines
  rw [hr.history fun i h => h.out i] at hmem
  obtain ⟨answer, hanswer, hmem⟩ := List.mem_flatMap.mp hmem
  obtain ⟨catalog, heq⟩ := mem_answered hmem
  subst heq
  obtain ⟨e', he', hs⟩ := recorded x catalog r name i hanswer
  obtain ⟨completion, hc⟩ := (hr.run is).completed x
  rw [hc.eq, getElem?_heap_complete] at he'
  obtain ⟨e, he, hshade⟩ := Option.map_eq_some_iff.mp he'
  rw [← hshade, tables_shade] at hs
  obtain ⟨entry, hentry, hname, hload⟩ := TableRegistry.exists_entry_of_loaded hs
  refine ⟨e, entry, he, ?_, hentry, hname, hload⟩
  exact TableRegistry.visits_status_iff.mp (by simp [hs, TableStatus.visits])

-- A lookup waits while another thread lists the tables, and replaces the placeholder that is listed.
theorem concurrent_lookups_share_one_entry_shop :
    let resume := Input.resume (Shop.catalog ["shop"])
    let lookup := Input.invoke 0 (.lookupEntry 0 .tableEntry "orders")
    let is : List (Fin 2 × Input) :=
      [(0, .invoke 0 (.lookupSchema "shop" .throwException)), (0, resume), (0, resume)] ++
      [(0, .invoke 0 (.scan 0 .tableEntry)), (0, resume), (0, resume), (1, lookup), (1, resume)] ++
      (1, resume) :: List.replicate 4 (0, resume) ++ List.replicate 5 (1, resume) ++
      (0, lookup) :: List.replicate 3 (0, resume)
    let m := concurrent (Fin 2) (fun _ => 0) "default"
    ((m.outs m.init is).flatMap returned).map (fun (_, _, result) => result) =
      [.ok [0], .ok [0], .ok [1], .ok [1]] ∧
    ∃ e entry, ((m.run m.init is).shared 0).heap[0]? = some e ∧
      e.tables.lookup "orders" = .positive 1 ∧ e.tables.entries[1]? = some entry ∧
      entry.name = "orders" ∧ ¬entry.needsLoad :=
  ⟨rfl, concurrent_lookups_share_one_entry (Fin 2) (fun _ => 0) "default" _ 0 0 1 "orders" <|
    List.mem_of_getElem? (i := 2) rfl⟩

end ProtoIceberg
