import ProtoIceberg.Catalog.Theorems.Failure

namespace ProtoIceberg

-- Owns the active transactions, which are known by their addresses.
structure TransactionManager where
  transactions : Std.ExtTreeMap Nat Transaction

namespace TransactionManager

def create : TransactionManager where
  transactions := ∅

def startTransaction (manager : TransactionManager) (address : Nat) (duckdbTimestamp : Int) :
    TransactionManager where
  transactions := manager.transactions.insert address (.start duckdbTimestamp)

def erase (manager : TransactionManager) (address : Nat) : TransactionManager where
  transactions := manager.transactions.erase address

-- Returns an error rather than throwing it.
def commitTransaction (manager : TransactionManager) (address : Nat) :
    Option Exception × TransactionManager :=
  match manager.transactions[address]? with
  | some _ => (none, manager.erase address)
  | none   => (some {
      type    := .transaction
      message := "Cannot commit a transaction that is not active"
    }, manager)

def rollbackTransaction (manager : TransactionManager) (address : Nat) :
    Except Exception Unit × TransactionManager :=
  match manager.transactions[address]? with
  | some _ => (.ok (), manager.erase address)
  | none   => (.error {
      type    := .transaction
      message := "Cannot rollback a transaction that is not active"
    }, manager)

def checkpoint (manager : TransactionManager) : TransactionManager :=
  manager

-- What is asked of a transaction.
inductive Request
  | start (duckdbTimestamp : Int)
  | commit
  | rollback
  | checkpoint
  | perform (catalog : Catalog) (op : Transaction.Op)

inductive Response
  | done
  | failed (exception : Exception)
  | returned (result : Except Exception (List Nat))
  | impossible

-- An address that is in use is not given to a new transaction, and there are no operations on a
-- transaction that has ended.
def machine (defaultSchema : String) : Machine TransactionManager (Nat × Request) Response where
  init := create
  step manager
    | (address, .start duckdbTimestamp) =>
      match manager.transactions[address]? with
      | some _ => (.impossible, manager)
      | none   => (.done, manager.startTransaction address duckdbTimestamp)
    | (address, .commit) =>
      let (error, manager) := manager.commitTransaction address
      (error.elim .done .failed, manager)
    | (address, .rollback) =>
      let (result, manager) := manager.rollbackTransaction address
      (match result with
        | .ok _            => .done
        | .error exception => .failed exception, manager)
    | (_, .checkpoint) => (.done, manager.checkpoint)
    | (address, .perform catalog op) =>
      match manager.transactions[address]? with
      | none     => (.impossible, manager)
      | some txn =>
        (.returned (txn.result defaultSchema catalog op), {
          transactions :=
            manager.transactions.insert address (txn.step defaultSchema catalog op).2
        })

end TransactionManager

end ProtoIceberg
