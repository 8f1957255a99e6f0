import Mathlib.Logic.Function.Basic
import ProtoIceberg.Catalog.Transaction
import ProtoIceberg.Snapshot.Metadata

namespace ProtoIceberg

namespace Metadata

inductive Change
  | append (snapshot : Snapshot)
  | stage (snapshot : Snapshot)
  | rollback (id : Int)
  | expire (expired : Int → Bool)
  | evolveSchema (schema : Schema)

-- Changes that are not valid are not made.
def apply (m : Metadata) (time : Int) (change : Change) : Metadata :=
  if h : m.lastUpdatedMs ≤ time then
    match change with
    | .append snapshot     => m.append time h snapshot
    | .stage snapshot      => m.stage time h snapshot
    | .rollback id         =>
      if hid : id ∈ m.snapshots.map Snapshot.id then m.rollback time h id hid else m
    | .expire expired      =>
      if hc : ∀ id ∈ m.current, ¬expired id then m.expire time h expired hc else m
    | .evolveSchema schema => m.evolveSchema time h schema
  else
    m

def commit (m : Metadata) (time : Int) (changes : List Change) : Metadata :=
  changes.foldl (fun m change => m.apply time change) m

variable {m : Metadata} {time : Int} {change : Change} {changes : List Change}

theorem apply_cases (m : Metadata) (time : Int) (change : Change) :
    m.apply time change = m ∨
      Commit m (m.apply time change) ∧ (m.apply time change).lastUpdatedMs = time := by
  rw [apply]
  split
  case isFalse => exact .inl rfl
  case isTrue h =>
    cases change
    case append       => exact .inr ⟨.append h _, rfl⟩
    case stage        => exact .inr ⟨.stage h _, rfl⟩
    case evolveSchema => exact .inr ⟨.evolveSchema h _, rfl⟩
    case rollback id =>
      dsimp only
      split
      case isTrue hid => exact .inr ⟨.rollback h hid, rfl⟩
      case isFalse    => exact .inl rfl
    case expire expired =>
      dsimp only
      split
      case isTrue hc => exact .inr ⟨.expire h hc, rfl⟩
      case isFalse   => exact .inl rfl

theorem lastUpdatedMs_apply (h : m.lastUpdatedMs ≤ time) :
    (m.apply time change).lastUpdatedMs ≤ time := by
  cases apply_cases m time change
  case inl he => rwa [he]
  case inr hc => exact Int.le_of_eq hc.right

theorem lastUpdatedMs_commit (h : m.lastUpdatedMs ≤ time) :
    (m.commit time changes).lastUpdatedMs ≤ time :=
  List.foldlRecOn (motive := fun m : Metadata => m.lastUpdatedMs ≤ time) changes _ h
    fun _ h _ _ => lastUpdatedMs_apply h

end Metadata

-- The tables of all namespaces at some time.
structure Lake (now : Int) where
  tables : TableIdentifier → Option Metadata
  upTo   : ∀ id, ∀ m ∈ tables id, m.lastUpdatedMs ≤ now

namespace Lake

variable {now : Int} (lake : Lake now)

-- The snapshot that a table is read from if it is read now.
def snapshot (id : TableIdentifier) : Option Int :=
  (lake.tables id).bind Metadata.current

theorem later {time : Int} {delay : Nat} (h : time ≤ now) : time ≤ now + delay :=
  Int.le_trans h <| Int.le_add_of_nonneg_right <| Int.natCast_nonneg delay

def put (delay : Nat) (id : TableIdentifier) (m : Option Metadata)
    (h : ∀ m' ∈ m, m'.lastUpdatedMs ≤ now + delay) : Lake (now + delay) where
  tables := Function.update lake.tables id m
  upTo   := by
    intro id' m' hm
    by_cases hid : id' = id
    case pos =>
      rw [hid, Function.update_self] at hm
      exact h m' hm
    case neg =>
      rw [Function.update_of_ne hid] at hm
      exact later <| lake.upTo id' m' hm

-- A table that exists is not created anew.
def create (delay : Nat) (id : TableIdentifier) (schema : Schema) (changes : List Metadata.Change) :
    Lake (now + delay) :=
  let created := Metadata.created (now + delay) schema
  lake.put delay id ((lake.tables id).getD (created.commit (now + delay) changes)) <| by
    intro m hm
    cases hm
    cases h : lake.tables id
    case none   => exact Metadata.lastUpdatedMs_commit (Int.le_refl _)
    case some m => exact later <| lake.upTo id m h

def commit (delay : Nat) (id : TableIdentifier) (changes : List Metadata.Change) :
    Lake (now + delay) :=
  lake.put delay id ((lake.tables id).map (·.commit (now + delay) changes)) <| by
    intro m hm
    obtain ⟨m, h, hm⟩ := Option.map_eq_some_iff.mp hm
    subst hm
    exact Metadata.lastUpdatedMs_commit <| later <| lake.upTo id m h

def drop (delay : Nat) (id : TableIdentifier) : Lake (now + delay) :=
  lake.put delay id none fun _ h => by cases h

-- The catalog gives the tables as they are now, unless it fails to answer.
def catalog (answers : Catalog) : Catalog where
  listNamespaces := answers.listNamespaces
  listTables     := answers.listTables
  loadTable id   :=
    match answers.loadTable id, lake.tables id with
    | .error error, _    => .error error
    | .ok base, some m   => .ok (m.table base)
    | .ok _, none        => .error {
        kind    := .noSuchTable
        message := s!"Table does not exist: {id.toString}"
      }

end Lake

-- A transaction, while others create and drop tables and commit to them.
structure World where
  now  : Int
  lake : Lake now
  txn  : Transaction

namespace World

inductive Event
  | create (delay : Nat) (id : TableIdentifier) (schema : Schema) (changes : List Metadata.Change)
  | commit (delay : Nat) (id : TableIdentifier) (changes : List Metadata.Change)
  | drop (delay : Nat) (id : TableIdentifier)
  | perform (answers : Catalog) (op : Transaction.Op)

-- The first events happen in the millisecond after the one that the transaction starts in.
def machine (duckdbTimestamp : Int) (defaultSchema : String)
    (lake : Lake (startTimestampMs duckdbTimestamp)) : Machine World Event (List Exchange) where
  init := {
    now  := startTimestampMs duckdbTimestamp + 1
    lake := {
      tables := lake.tables
      upTo   := fun id m hm => Int.le_add_one <| lake.upTo id m hm
    }
    txn  := .start duckdbTimestamp
  }
  step w
    | .create delay id schema changes =>
      ([], { w with now := w.now + delay, lake := w.lake.create delay id schema changes })
    | .commit delay id changes =>
      ([], { w with now := w.now + delay, lake := w.lake.commit delay id changes })
    | .drop delay id => ([], { w with now := w.now + delay, lake := w.lake.drop delay id })
    | .perform answers op =>
      let (exchanges, txn) := w.txn.step defaultSchema (w.lake.catalog answers) op
      (exchanges, { w with txn })

end World

end ProtoIceberg
