import ProtoIceberg.Catalog.TransactionManager
import ProtoIceberg.Snapshot.Lake

namespace ProtoIceberg

-- The active transactions, while others create and drop tables and commit to them.
structure Lakehouse where
  now     : Int
  lake    : Lake now
  manager : TransactionManager

namespace Lakehouse

inductive Event
  | create (delay : Nat) (id : TableIdentifier) (schema : Schema) (changes : List Metadata.Change)
  | commit (delay : Nat) (id : TableIdentifier) (changes : List Metadata.Change)
  | drop (delay : Nat) (id : TableIdentifier)
  | startTransaction (address : Nat) (duckdbTimestamp : Int)
  | commitTransaction (address : Nat)
  | rollbackTransaction (address : Nat)
  | perform (address : Nat) (answers : Catalog) (op : Transaction.Op)

variable (defaultSchema : String)

def request (s : Lakehouse) (address : Nat) (request : TransactionManager.Request) :
    Option TransactionManager.Response × Lakehouse :=
  let (response, manager) :=
    (TransactionManager.machine defaultSchema).step s.manager (address, request)
  (some response, { s with manager })

-- Any number of events may happen in one millisecond.
def machine {now : Int} (lake : Lake now) :
    Machine Lakehouse Event (Option TransactionManager.Response) where
  init := { now, lake, manager := .create }
  step s
    | .create delay id schema changes =>
      (none, { s with now := s.now + delay, lake := s.lake.create delay id schema changes })
    | .commit delay id changes =>
      (none, { s with now := s.now + delay, lake := s.lake.commit delay id changes })
    | .drop delay id => (none, { s with now := s.now + delay, lake := s.lake.drop delay id })
    | .startTransaction address duckdbTimestamp =>
      s.request defaultSchema address (.start duckdbTimestamp)
    | .commitTransaction address          => s.request defaultSchema address .commit
    | .rollbackTransaction address        => s.request defaultSchema address .rollback
    | .perform address answers op         =>
      s.request defaultSchema address (.perform (s.lake.catalog answers) op)

end Lakehouse

end ProtoIceberg
