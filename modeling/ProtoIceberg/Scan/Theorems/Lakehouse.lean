import ProtoIceberg.Catalog.Theorems.TransactionManager
import ProtoIceberg.Scan.Theorems.Query
import ProtoIceberg.Snapshot.Lakehouse

namespace ProtoIceberg

namespace TransactionManager

variable {defaultSchema : String} {manager : TransactionManager} {a a' : Nat} {request : Request}

-- A request only concerns the transaction that it is for.
theorem getElem?_next_of_ne (h : a' ≠ a) :
    ((machine defaultSchema).next manager (a', request)).transactions[a]? =
      manager.transactions[a]? := by
  have herase : (manager.erase a').transactions[a]? = manager.transactions[a]? := by
    simp [erase, Std.ExtTreeMap.getElem?_erase, h]
  cases request <;> dsimp only [Machine.next, machine]
  case start =>
    split
    case h_1 => rfl
    case h_2 => simp [startTransaction, Std.ExtTreeMap.getElem?_insert, h]
  case commit =>
    rw [commitTransaction]
    split
    case h_1 => exact herase
    case h_2 => rfl
  case rollback =>
    rw [rollbackTransaction]
    split
    case h_1 => exact herase
    case h_2 => rfl
  case checkpoint => rfl
  case perform =>
    split
    case h_1 => rfl
    case h_2 => simp [Std.ExtTreeMap.getElem?_insert, h]

end TransactionManager

namespace Lakehouse

-- Whether the transaction ends.
def Event.Ends (a : Nat) : Event → Prop
  | .commitTransaction a'   => a' = a
  | .rollbackTransaction a' => a' = a
  | _                       => False

def Event.Drops (id : TableIdentifier) : Event → Prop
  | .drop _ id' => id' = id
  | _           => False

variable (m : Machine Lakehouse Event (Option TransactionManager.Response)) (s : Lakehouse)
  (events : List Event)

-- The snapshots from which a table may be read as of the present millisecond, in the rest of which it
-- may still change. Once it is dropped and created anew, it may be read as if it were empty.
def Shows (id : TableIdentifier) (snapshot : Option Int) : Prop :=
  (∃ pre, pre <+: events ∧ (m.run s pre).now = s.now ∧
    snapshot = (m.run s pre).lake.snapshot id) ∨
  (∃ event ∈ events, event.Drops id) ∧ snapshot = none

-- What the tables' later versions go back to.
inductive Origin (id : TableIdentifier) : Metadata → Prop
  | present {pre : List Event} (hp : pre <+: events) (hn : (m.run s pre).now = s.now) :
    Origin id ((m.run s pre).lake.origin s.now id)
  | anew {event : Event} (he : event ∈ events) (hd : event.Drops id) : Origin id (.absent s.now)

variable {m s events} {defaultSchema : String} {now : Int} {lake : Lake now}

namespace Origin

variable {id : TableIdentifier} {version : Metadata}

theorem shows (h : Origin m s events id version) : Shows m s events id version.current := by
  cases h
  case present pre hp hn => exact .inl ⟨pre, hp, hn, (Lake.snapshot_eq ..).symm⟩
  case anew he hd        => exact .inr ⟨⟨_, he, hd⟩, rfl⟩

theorem upTo (h : Origin m s events id version) : version.lastUpdatedMs ≤ s.now := by
  cases h
  case present hn => exact Lake.origin_upTo (Int.le_of_eq hn)
  case anew       => exact Int.le_refl _

end Origin

-- While others change the tables, they go back to what they were in the millisecond of `s`.
structure Consistent (m : Machine Lakehouse Event (Option TransactionManager.Response))
    (s : Lakehouse) (events : List Event) (s' : Lakehouse) : Prop where
  now  : s.now ≤ s'.now
  past : s'.lake.GoesBack s.now (Origin m s events)

namespace Consistent

variable {s' : Lakehouse} {event : Event}

theorem init : Consistent m s events s where
  now  := Int.le_refl _
  past := .of_past Origin.upTo fun _ => .present List.nil_prefix rfl

theorem now_next (h : Consistent m s events s') :
    s.now ≤ ((machine defaultSchema lake).next s' event).now := by
  cases event
  case create              => exact Lake.later h.now
  case commit              => exact Lake.later h.now
  case drop                => exact Lake.later h.now
  case startTransaction    => exact h.now
  case commitTransaction   => exact h.now
  case rollbackTransaction => exact h.now
  case perform             => exact h.now

theorem past_next (h : Consistent m s events s') (hevent : event ∈ events)
    (hlater : s.now < ((machine defaultSchema lake).next s' event).now) :
    ((machine defaultSchema lake).next s' event).lake.GoesBack s.now (Origin m s events) := by
  cases event
  case create              => exact h.past.create hlater
  case commit              => exact h.past.commit hlater
  case drop                => exact h.past.drop <| .anew hevent rfl
  case startTransaction    => exact h.past
  case commitTransaction   => exact h.past
  case rollbackTransaction => exact h.past
  case perform             => exact h.past

-- A step within the millisecond leaves the tables as they may be read.
theorem run {pre : List Event} (hp : pre <+: events) :
    let m := machine defaultSchema lake
    Consistent m s events (m.run s pre) := by
  intro m
  refine Machine.run_prefix_induction .init ?_
  intro pre' event hpre h
  have hpre := hpre.trans hp
  refine ⟨h.now_next, ?_⟩
  rcases Int.lt_or_eq_of_le h.now_next with hlater | hsame
  case inl => exact h.past_next (hpre.subset <| by simp) hlater
  case inr =>
    rw [← Machine.run_concat] at hsame ⊢
    exact .of_past Origin.upTo fun _ => .present hpre hsame.symm

end Consistent

-- The transaction is active and reads the tables as of time `t`.
def Serves (t : Int) (past : TableIdentifier → Metadata → Prop) (a : Nat) (s : Lakehouse) : Prop :=
  ∃ txn, s.manager.transactions[a]? = some txn ∧ txn.ReadsAsOf t past

namespace Serves

variable {t : Int} {past : TableIdentifier → Metadata → Prop} {a a' : Nat} {event : Event}
  {request : TransactionManager.Request} {duckdbTimestamp : Int}

theorem request_of_ne (h : s.Serves t past a) (hne : a' ≠ a) :
    (s.request defaultSchema a' request).2.Serves t past a := by
  obtain ⟨txn, htxn, hr⟩ := h
  exact ⟨txn, (TransactionManager.getElem?_next_of_ne hne).trans htxn, hr⟩

theorem perform {answers : Catalog} {op : Transaction.Op} (h : s.Serves t past a)
    (hl : s.lake.GoesBack t past) :
    (s.request defaultSchema a (.perform (s.lake.catalog answers) op)).2.Serves t past a := by
  obtain ⟨txn, htxn, hr⟩ := h
  refine ⟨(txn.step defaultSchema (s.lake.catalog answers) op).2, ?_, hr.step hl⟩
  simp [request, TransactionManager.machine, htxn]

theorem start (h : s.Serves t past a) :
    ((machine defaultSchema lake).next s (.startTransaction a' duckdbTimestamp)).Serves t past a := by
  by_cases ha : a' = a
  case neg => exact h.request_of_ne ha
  case pos =>
    subst ha
    obtain ⟨txn, htxn, hr⟩ := h
    refine ⟨txn, ?_, hr⟩
    simp [Machine.next, machine, request, TransactionManager.machine, htxn]

theorem next (h : s.Serves t past a) (hl : s.lake.GoesBack t past) (hevent : ¬event.Ends a) :
    ((machine defaultSchema lake).next s event).Serves t past a := by
  cases event
  case create              => exact h
  case commit              => exact h
  case drop                => exact h
  case startTransaction    => exact h.start
  case commitTransaction   => exact h.request_of_ne hevent
  case rollbackTransaction => exact h.request_of_ne hevent
  case perform a' answers op =>
    by_cases ha : a' = a
    case neg => exact h.request_of_ne ha
    case pos =>
      subst ha
      exact h.perform hl

theorem of_start (hfree : s.manager.transactions[a]? = none)
    (hs : startTimestampMs duckdbTimestamp = t) :
    ((machine defaultSchema lake).next s (.startTransaction a duckdbTimestamp)).Serves t past a := by
  refine ⟨.start duckdbTimestamp, ?_, .of_start hs⟩
  simp [Machine.next, machine, request, TransactionManager.machine, hfree,
    TransactionManager.startTransaction]

end Serves

end Lakehouse

-- Transactions run at the same time, while others commit. All loaded tables of a transaction are read
-- as of the millisecond in which DuckDB has started it, by all queries on them, although the catalog's
-- own part of it only starts when it is first needed.
theorem concurrent_transactions_query_their_own_states {ε : Type*} [Expressions ε] (φ : Type)
    (sem : Expressions.Semantics ε) (methods : TableFilter.Methods) (hm : methods.Lawful sem)
    (hop : ∀ (e : ε) env, Expressions.op e = .true → sem.eval e env) (u : Unsupported)
    (scans : TableScans ε) (contents : TableRows) (hs : scans.Lawful sem contents)
    (defaultSchema : String) {now : Int} (lake : Lake now)
    (before between after : List Lakehouse.Event) (address : Nat) (duckdbTimestamp : Int) :
    let m := Lakehouse.machine defaultSchema lake
    let s := m.run m.init before
    let events := between ++ .startTransaction address duckdbTimestamp :: after
    startTimestampMs duckdbTimestamp = s.now →
    (m.run s between).manager.transactions[address]? = none →
    (∀ event ∈ after, ¬event.Ends address) →
    let shows := Lakehouse.Shows m s events
    ∃ txn, (m.run s events).manager.transactions[address]? = some txn ∧ txn.ReadsFrom shows ∧
      txn.Queries φ methods u scans contents shows := by
  intro m s events hstart hfree hafter shows
  let past := Lakehouse.Origin m s events
  have hlake {pre : List Lakehouse.Event} (hp : pre <+: events) :
      Lakehouse.Consistent m s events (m.run s pre) :=
    .run hp
  have hserves : (m.run s events).Serves s.now past address := by
    dsimp only [events]
    rw [Machine.run_append, Machine.run_cons]
    refine Machine.run_prefix_induction (.of_start hfree hstart) ?_
    intro pre event hpre h
    -- The tables that the event finds are those after all events before it.
    have hp : between ++ .startTransaction address duckdbTimestamp :: pre <+: events :=
      List.prefix_append_right_inj _ |>.mpr <| List.cons_prefix_cons.mpr
        ⟨rfl, (List.prefix_append pre [event]).trans hpre⟩
    have hpast := (hlake hp).past
    rw [Machine.run_append, Machine.run_cons] at hpast
    exact h.next hpast <| hafter event <| hpre.subset <| by simp
  obtain ⟨txn, htxn, hr⟩ := hserves
  have hreads : txn.ReadsFrom shows := hr.imp fun _ _ h => h.shows
  exact ⟨txn, htxn, hreads, hreads.queries hm hop hs⟩

namespace Shop

-- The table of orders as it is at time 10, when it has one snapshot.
def ordersLake : Lake 10 where
  tables id :=
    if id = getTableIdentifier "shop" "orders" then
      some <| (Metadata.created 0 prices.schema).append 10 (by decide)
        { id := 1, schema := prices.schema }
    else
      none
  upTo id m hm := by
    split at hm
    case isTrue  => cases hm; exact Int.le_refl 10
    case isFalse => cases hm

end Shop

-- A snapshot that is appended in the millisecond in which two transactions start, before one of them
-- loads the table, is read by it; one that is appended later is not.
theorem concurrent_transactions_query_their_own_states_shop :
    let orders := getTableIdentifier "shop" "orders"
    let append (id : Int) := Metadata.Change.append { id, schema := Shop.prices.schema }
    let m := Lakehouse.machine "default" Shop.ordersLake
    let events : List Lakehouse.Event := [
      .startTransaction 1 10000,
      .commit 0 orders [append 2],
      .startTransaction 0 10000,
      .perform 0 (Shop.catalog ["shop"]) (.lookupSchema "shop" .throwException),
      .commit 4 orders [append 3],
      .drop 0 (getTableIdentifier "shop" "returns"),
      .startTransaction 2 14000,
      .perform 0 (Shop.catalog ["shop"]) (.perform 0 (.lookupEntry .tableEntry "orders")),
      .commitTransaction 1
    ]
    let loaded (txn : Transaction) := txn.heap.map fun e =>
      e.tables.entries.map fun entry => entry.scanInfo.map ScanInfo.snapshot
    let shows := Lakehouse.Shows m m.init events
    (m.run m.init events).manager.transactions[0]?.map loaded = some [[some (some 2)]] ∧
    ∃ txn, (m.run m.init events).manager.transactions[0]? = some txn ∧ txn.ReadsFrom shows ∧
      txn.Queries Unit .structural ⟨fun _ _ _ => .unknown, fun _ _ => .unknown⟩ Shop.priceScans
        Shop.priceContents shows := by
  intro orders append m events loaded shows
  refine ⟨rfl, ?_⟩
  refine concurrent_transactions_query_their_own_states Unit Expression.semantics .structural
    TableFilter.Methods.structural_lawful (fun _ _ => Expression.eval_of_op_true) _ Shop.priceScans
    Shop.priceContents Shop.priceScans_lawful "default" Shop.ordersLake [] (events.take 2)
    (events.drop 3) 0 10000 rfl ?_ ?_
  case refine_1 => rfl
  case refine_2 => simp [events, Lakehouse.Event.Ends]

end ProtoIceberg
