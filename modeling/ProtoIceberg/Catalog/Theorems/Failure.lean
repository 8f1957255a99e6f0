import ProtoIceberg.Catalog.Theorems.Evolution

namespace ProtoIceberg

namespace SchemaEntry

variable {e : SchemaEntry} {catalog : Catalog} {txnStart : Int} {exception : Exception}
  {name : String} {type : CatalogType}

theorem loadTableEntry_error
    (h : (e.loadTableEntry catalog txnStart name).1.result = .error exception) :
    (e.loadTableEntry catalog txnStart name).2 = e := by
  have hload := @loadTableEntry_outcome e catalog txnStart name
  generalize e.loadTableEntry catalog txnStart name = outcome at hload h ⊢
  cases hload
  case failed     => rfl
  case unreadable => rfl
  all_goals exact nomatch h

theorem scanTables_error (h : (e.scanTables catalog).1.result = .error exception) :
    (e.scanTables catalog).2 = e := by
  have hlist := @scanTables_outcome e catalog
  generalize e.scanTables catalog = outcome at hlist h ⊢
  cases hlist
  case failed => rfl
  all_goals exact nomatch h

theorem scan_error (h : (e.scan catalog type).1.result = .error exception) :
    (e.scan catalog type).2 = e := by
  cases scan_cases e catalog type
  case inl hs => rw [hs]
  case inr hs =>
    rw [hs.right] at h ⊢
    exact scanTables_error h

theorem lookupEntry_error
    (h : (e.lookupEntry catalog txnStart type name).1.result = .error exception) :
    (e.lookupEntry catalog txnStart type name).2 = e := by
  by_cases ht : type = .tableEntry
  case neg => rw [lookupEntry, if_pos ht]
  case pos =>
    rw [ht, lookupEntry_eq] at h ⊢
    cases hs : e.tables.status name
    case absent      => rfl
    case loaded      => rfl
    case unknown     => exact loadTableEntry_error (hs ▸ h)
    case placeholder => exact loadTableEntry_error (hs ▸ h)

theorem perform_error {op : Op} (h : (e.perform catalog txnStart op).1.result = .error exception) :
    (e.perform catalog txnStart op).2 = e := by
  cases op
  case scan       => exact scan_error h
  case scanTables => exact scanTables_error h
  case lookupEntry type name =>
    dsimp only [perform] at h
    cases hr : (e.lookupEntry catalog txnStart type name).1.result
    case error => exact lookupEntry_error hr
    case ok    => exact nomatch hr ▸ h

end SchemaEntry

namespace Transaction

-- What an operation returns or throws.
def result (txn : Transaction) (defaultSchema : String) (catalog : Catalog) :
    Op → Except Exception (List Nat)
  | .lookupSchema schemaName ifNotFound =>
    Option.toList <$> (txn.lookupSchema defaultSchema schemaName ifNotFound).1
  | .scanSchemas => (txn.scanSchemas catalog).1.result
  | .perform entry op => (txn.perform catalog entry op).1.elim (.ok []) Answer.result

variable {txn : Transaction} {catalog : Catalog} {exception : Exception} {defaultSchema : String}

theorem scanSchemas_error (h : (txn.scanSchemas catalog).1.result = .error exception) :
    (txn.scanSchemas catalog).2 = txn := by
  have hlist := @scanSchemas_outcome txn catalog
  generalize txn.scanSchemas catalog = outcome at hlist h ⊢
  cases hlist
  case failed => rfl
  all_goals exact nomatch h

theorem lookupSchema_error {schemaName : String} {ifNotFound : OnEntryNotFound}
    (h : (txn.lookupSchema defaultSchema schemaName ifNotFound).1 = .error exception) :
    (txn.lookupSchema defaultSchema schemaName ifNotFound).2 = txn := by
  dsimp only [lookupSchema] at h ⊢
  split
  case h_1 => split <;> rfl
  case h_2 hn =>
    split
    case isTrue => rfl
    case isFalse hl =>
      rw [hn] at h
      simp [hl] at h

theorem perform_error {r : Nat} {op : SchemaEntry.Op}
    (h : (txn.perform catalog r op).1.elim (.ok []) Answer.result = .error exception) :
    (txn.perform catalog r op).2 = txn := by
  dsimp only [perform]
  refine mapEntries_eq_self ?_
  intro r' e he
  split
  case isFalse => rfl
  case isTrue hr =>
    subst hr
    rw [perform_answer he] at h
    exact SchemaEntry.perform_error h

theorem step_error {op : Op} (h : txn.result defaultSchema catalog op = .error exception) :
    (txn.step defaultSchema catalog op).2 = txn := by
  cases op
  case scanSchemas => exact scanSchemas_error h
  case perform     => exact perform_error h
  case lookupSchema schemaName ifNotFound =>
    dsimp only [result] at h
    cases hr : (txn.lookupSchema defaultSchema schemaName ifNotFound).1
    case error => exact lookupSchema_error hr
    case ok    => exact nomatch hr ▸ h

end Transaction

-- An operation that throws may be repeated once the catalog recovers, as if it had not been tried.
theorem failed_operation_changes_nothing (duckdbTimestamp : Int) (defaultSchema : String)
    (is : List (Catalog × Transaction.Op)) (catalog : Catalog) (op : Transaction.Op)
    (exception : Exception) :
    let m := Transaction.machine duckdbTimestamp defaultSchema
    let txn := m.run m.init is
    txn.result defaultSchema catalog op = .error exception →
      m.next txn (catalog, op) = txn ∧
      ∀ catalog', (m.next txn (catalog, op)).result defaultSchema catalog' op =
        txn.result defaultSchema catalog' op := by
  intro m txn h
  have hstep : m.next txn (catalog, op) = txn := Transaction.step_error h
  exact ⟨hstep, fun catalog' => by rw [hstep]⟩

theorem failed_operation_changes_nothing_shop :
    let shop := Shop.catalog ["shop"]
    let broken : Catalog :=
      { shop with loadTable := fun _ => .error { kind := .other 503, message := "" } }
    let m := Transaction.machine 0 "default"
    let txn := m.run m.init [(shop, .lookupSchema "shop" .throwException)]
    let lookup := Transaction.Op.perform 0 (.lookupEntry .tableEntry "orders")
    m.next txn (broken, lookup) = txn ∧
      ∀ catalog, (m.next txn (broken, lookup)).result "default" catalog lookup =
        txn.result "default" catalog lookup := by
  intro shop broken m txn lookup
  exact failed_operation_changes_nothing 0 "default" [(shop, .lookupSchema "shop" .throwException)]
    broken lookup _ rfl

end ProtoIceberg
