import ProtoIceberg.Catalog.TransactionManager
import ProtoIceberg.Extensions.Refinement

namespace ProtoIceberg

-- A transaction by its start and by what has been performed on it since.
structure Session where
  duckdbTimestamp : Int
  performed       : List (Catalog × Transaction.Op)

namespace Session

open TransactionManager

variable (defaultSchema : String)

-- What the operations make of a new transaction.
def transaction (session : Session) : Transaction :=
  let m := Transaction.machine session.duckdbTimestamp defaultSchema
  m.run m.init session.performed

-- One session after the other, with nothing left of an earlier one.
def machine : Machine (Option Session) Request Response where
  init := none
  step
    | none, .start duckdbTimestamp        => (.done, some { duckdbTimestamp, performed := [] })
    | some session, .start _              => (.impossible, some session)
    | none, .perform _ _                  => (.impossible, none)
    | some session, .perform catalog op   =>
      (.returned ((session.transaction defaultSchema).result defaultSchema catalog op),
        some { session with performed := session.performed ++ [(catalog, op)] })
    | some _, .commit | some _, .rollback => (.done, none)
    | none, .commit                       =>
      (.failed {
        type    := .transaction
        message := "Cannot commit a transaction that is not active"
      }, none)
    | none, .rollback                     =>
      (.failed {
        type    := .transaction
        message := "Cannot rollback a transaction that is not active"
      }, none)
    | session, .checkpoint                => (.done, session)

variable {defaultSchema} {session : Session} {catalog : Catalog} {op : Transaction.Op}

theorem transaction_concat :
    { session with performed := session.performed ++ [(catalog, op)] : Session }.transaction
        defaultSchema =
      ((session.transaction defaultSchema).step defaultSchema catalog op).2 :=
  Machine.run_concat

end Session

namespace TransactionManager

variable {defaultSchema : String} {manager : TransactionManager} {a a' : Nat}
  {sessions : Nat → Option Session} {session : Option Session}

-- The manager owns the transactions of the active sessions.
def Owns (defaultSchema : String) (manager : TransactionManager)
    (sessions : Nat → Option Session) : Prop :=
  ∀ a, manager.transactions[a]? = (sessions a).map (·.transaction defaultSchema)

namespace Owns

theorem insert {session : Session} {txn : Transaction} (h : manager.Owns defaultSchema sessions)
    (ht : session.transaction defaultSchema = txn) :
    Owns defaultSchema { transactions := manager.transactions.insert a txn }
      (Function.update sessions a (some session)) := by
  intro a'
  by_cases ha : a = a'
  case pos =>
    subst ha
    simp [ht]
  case neg => simp [Std.ExtTreeMap.getElem?_insert, ha, Function.update_of_ne (Ne.symm ha), h a']

theorem erase (h : manager.Owns defaultSchema sessions) :
    Owns defaultSchema (manager.erase a) (Function.update sessions a none) := by
  intro a'
  by_cases ha : a = a'
  case pos =>
    subst ha
    simp [TransactionManager.erase]
  case neg =>
    simp [TransactionManager.erase, Std.ExtTreeMap.getElem?_erase, ha,
      Function.update_of_ne (Ne.symm ha), h a']

theorem unchanged (h : manager.Owns defaultSchema sessions) (hs : session = sessions a) :
    manager.Owns defaultSchema (Function.update sessions a session) := by
  rwa [hs, Function.update_eq_self]

end Owns

-- A step for an address is a step of its session.
theorem step_of_inactive (h : manager.Owns defaultSchema sessions) (hs : sessions a = none)
    (request : Request) :
    (machine defaultSchema).out manager (a, request) =
        (Session.machine defaultSchema).out none request ∧
      ((machine defaultSchema).next manager (a, request)).Owns defaultSchema
        (Function.update sessions a ((Session.machine defaultSchema).next none request)) := by
  have ha : manager.transactions[a]? = none := by simpa [hs] using h a
  cases request <;> dsimp only [Machine.out, Machine.next, machine, Session.machine]
  case start duckdbTimestamp =>
    rw [ha]
    exact ⟨rfl, h.insert rfl⟩
  case commit =>
    rw [commitTransaction, ha]
    exact ⟨rfl, h.unchanged hs.symm⟩
  case rollback =>
    rw [rollbackTransaction, ha]
    exact ⟨rfl, h.unchanged hs.symm⟩
  case checkpoint => exact ⟨rfl, h.unchanged hs.symm⟩
  case perform catalog op =>
    rw [ha]
    exact ⟨rfl, h.unchanged hs.symm⟩

theorem step_of_active {session : Session} (h : manager.Owns defaultSchema sessions)
    (hs : sessions a = some session) (request : Request) :
    (machine defaultSchema).out manager (a, request) =
        (Session.machine defaultSchema).out (some session) request ∧
      ((machine defaultSchema).next manager (a, request)).Owns defaultSchema
        (Function.update sessions a
          ((Session.machine defaultSchema).next (some session) request)) := by
  have ha : manager.transactions[a]? = some (session.transaction defaultSchema) := by
    simpa [hs] using h a
  cases request <;> dsimp only [Machine.out, Machine.next, machine, Session.machine]
  case start duckdbTimestamp =>
    rw [ha]
    exact ⟨rfl, h.unchanged hs.symm⟩
  case commit =>
    rw [commitTransaction, ha]
    exact ⟨rfl, h.erase⟩
  case rollback =>
    rw [rollbackTransaction, ha]
    exact ⟨rfl, h.erase⟩
  case checkpoint => exact ⟨rfl, h.unchanged hs.symm⟩
  case perform catalog op =>
    rw [ha]
    exact ⟨rfl, h.insert Session.transaction_concat⟩

theorem simulates_sessions :
    Machine.Simulates (machine defaultSchema)
      (Machine.product fun _ : Nat => Session.machine defaultSchema) (Owns defaultSchema) where
  init _ := Std.ExtTreeMap.getElem?_empty
  step := by
    rintro manager sessions ⟨a, request⟩ h
    rw [Machine.out_product, Machine.next_product_eq_update]
    cases hs : sessions a
    case none         => exact step_of_inactive h hs request
    case some session => exact step_of_active h hs request

end TransactionManager

-- Transactions that run at the same time do not affect each other, and nothing is left of an ended one,
-- also where its address is used again: each answers as its own operations on a new transaction do.
theorem transactions_do_not_interfere (defaultSchema : String)
    (requests : List (Nat × TransactionManager.Request)) (address : Nat) :
    let m := TransactionManager.machine defaultSchema
    let m' := Session.machine defaultSchema
    let own := Machine.inputs address requests
    (m.run m.init requests).transactions[address]? =
        (m'.run m'.init own).map (·.transaction defaultSchema) ∧
      Machine.answers address (m.history m.init requests) = m'.history m'.init own := by
  intro m m' own
  have hsim := @TransactionManager.simulates_sessions defaultSchema
  constructor
  case left =>
    have hrun := hsim.run requests address
    rwa [Machine.run_product] at hrun
  case right =>
    rw [hsim.history, Machine.history_product]
    rfl

end ProtoIceberg
