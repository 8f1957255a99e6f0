import ProtoIceberg.Catalog.Concurrency
import ProtoIceberg.Catalog.Theorems.Listing

namespace ProtoIceberg

namespace SchemaEntry

variable {e e' : SchemaEntry} {catalog : Catalog} {txnStart : Int} {op : TablesOp}

theorem cached_congr (h : e'.tables = e.tables) : e'.cached op = e.cached op := by
  cases op <;> simp [cached, h]

theorem namespaceMissing_listTables (h : e.namespaceMissing) :
    (e.listTables catalog).2.namespaceMissing := by
  rw [listTables]
  split
  case h_1 => rfl
  case h_2 => split <;> exact h

theorem namespaceMissing_load (h : e.namespaceMissing) :
    (e.load catalog txnStart op).2.namespaceMissing := by
  cases op
  case scan => exact namespaceMissing_listTables h
  case lookupEntry tableName =>
    have hload := @loadTableEntry_outcome e catalog txnStart tableName
    dsimp only [load]
    generalize e.loadTableEntry catalog txnStart tableName = outcome at hload ⊢
    cases hload
    case absentNamespace => rfl
    case absent          => exact h
    case failed          => exact h
    case unreadable      => exact h
    case loaded          => exact h

end SchemaEntry

namespace Transaction

open SchemaEntry (TablesOp)

variable {txn txn' : Transaction} {catalog answers : Catalog} {defaultSchema : String} {x r r' : Nat}
  {e : SchemaEntry} {names : List String} {op : TablesOp} {p p' q : Point}

theorem getElem?_heap_lookupSchema {schemaName : String} {ifNotFound : OnEntryNotFound}
    (he : txn.heap[r]? = some e) :
    (txn.lookupSchema defaultSchema schemaName ifNotFound).2.heap[r]? = some e := by
  dsimp only [lookupSchema]
  split
  case h_1 => split <;> exact he
  case h_2 =>
    split
    case isTrue  => exact he
    case isFalse => exact (List.getElem?_append_left (List.getElem?_eq_some_iff.mp he).1).trans he

theorem listed_foldl_storeNew : (names.foldl storeNew txn).listed = txn.listed :=
  List.foldlRecOn (motive := fun t : Transaction => t.listed = txn.listed) names _ rfl
    fun _ h _ _ => listed_storeNew.trans h

theorem getElem?_heap_markAbsent (he : txn.heap[r]? = some e) :
    (txn.markAbsent names r').heap[r]? = some
      (if r = r' ∧ e.name ∉ names then e.markNamespaceMissing else e) := by
  simp [markAbsent, mapEntries, he]

theorem getElem?_heap_load (he : txn.heap[r]? = some e) :
    (txn.load r' catalog op).2.heap[r]? = some
      (if r = r' then (e.load catalog txn.startTimestampMs op).2 else e) := by
  simp [load, mapEntries, he]

-- What is the same after a step of a thread that holds the given locks.
structure Keeps (x : Nat) (held : List Mutex) (txn txn' : Transaction) : Prop where
  schemas : .schemas x ∉ held → txn'.schemas = txn.schemas ∧ txn'.listed = txn.listed
  heap    : ∀ {r : Nat} {e : SchemaEntry}, txn.heap[r]? = some e → ∃ e', txn'.heap[r]? = some e' ∧
    (e.namespaceMissing → e'.namespaceMissing) ∧ (.tables x r ∉ held → e'.tables = e.tables)

namespace Keeps

variable {held : List Mutex}

theorem refl : Keeps x held txn txn where
  schemas := fun _ => ⟨rfl, rfl⟩
  heap    := fun he => ⟨_, he, id, fun _ => rfl⟩

theorem of_schemas_held (hm : .schemas x ∈ held)
    (h : ∀ {r : Nat} {e : SchemaEntry}, txn.heap[r]? = some e → ∃ e', txn'.heap[r]? = some e' ∧
      (e' = e ∨ e' = e.markNamespaceMissing)) : Keeps x held txn txn' where
  schemas := fun hn => absurd hm hn
  heap    := by
    intro r e he
    obtain ⟨e', he', heq⟩ := h he
    refine ⟨e', he', ?_⟩
    cases heq
    case inl heq => subst heq; exact ⟨id, fun _ => rfl⟩
    case inr heq => subst heq; exact ⟨fun _ => rfl, fun _ => rfl⟩

theorem isNamespaceMissing (h : Keeps x held txn txn') (hm : txn.isNamespaceMissing r) :
    txn'.isNamespaceMissing r := by
  obtain ⟨e, he, hm⟩ := (Option.any_eq_true _ _).mp hm
  obtain ⟨e', he', hmono, _⟩ := h.heap he
  rw [isNamespaceMissing_eq he']
  exact hmono hm

end Keeps

theorem Point.step_keeps :
    Keeps x (p.held x) txn (p.step txn defaultSchema catalog).2 := by
  cases p
  case lookupSchemaLocked =>
    exact .of_schemas_held (by simp [held]) fun he => ⟨_, getElem?_heap_lookupSchema he, .inl rfl⟩
  case namespacesListed =>
    dsimp only [step]
    split
    case h_1 => exact .refl
    case h_2 =>
      apply Keeps.of_schemas_held (by simp [held])
      exact fun he => ⟨_, getElem?_heap_foldl_storeNew he, .inl rfl⟩
  case completeListing names rs =>
    cases rs
    case nil  => exact .of_schemas_held (by simp [held]) fun he => ⟨_, he, .inl rfl⟩
    case cons =>
      apply Keeps.of_schemas_held (by simp [held])
      intro r e he
      refine ⟨_, getElem?_heap_markAbsent he, ?_⟩
      split
      case isTrue  => exact .inr rfl
      case isFalse => exact .inl rfl
  case catalogAnswered r' op answers =>
    refine { schemas := fun _ => ⟨rfl, rfl⟩, heap := ?_ }
    intro r e he
    refine ⟨_, getElem?_heap_load he, ?_⟩
    split
    case isTrue hr =>
      exact ⟨SchemaEntry.namespaceMissing_load, fun hn => absurd (by simp [held, hr]) hn⟩
    case isFalse => exact ⟨id, fun _ => rfl⟩
  case forEach rs visited => cases rs <;> exact .refl
  case tablesLocked =>
    dsimp only [step]
    split <;> exact .refl
  all_goals exact .refl

-- What a visit of the schemas has to show for the entries that it has passed.
structure Visits (txn : Transaction) (entries visited : List Nat) : Prop where
  listed  : txn.listed
  passed  : ∃ passed, txn.stored = passed ++ entries ∧ visited.Sublist passed ∧
    ∀ r ∈ passed, ¬txn.isNamespaceMissing r → r ∈ visited

-- What a thread knows about the transaction.
def Point.Knows (txn : Transaction) : Point → Prop
  | .listNamespaces          => ¬txn.listed
  | .listNamespacesLocked    => ¬txn.listed
  | .namespacesListed _      => ¬txn.listed
  | .completeListing ..      => ¬txn.listed
  | .forEach entries visited => txn.Visits entries visited
  | .catalog r op            => ∃ e, txn.heap[r]? = some e ∧ e.cached op = none
  | .catalogLocked r op      => ∃ e, txn.heap[r]? = some e ∧ e.cached op = none
  | .catalogAnswered r op _  => ∃ e, txn.heap[r]? = some e ∧ e.cached op = none
  | _                        => True

theorem Visits.start (hl : txn.listed) : txn.Visits txn.stored [] where
  listed := hl
  passed := ⟨[], rfl, .slnil, nofun⟩

theorem Visits.visit {rs visited : List Nat} (h : txn.Visits (r :: rs) visited) :
    txn.Visits rs (if txn.isNamespaceMissing r then visited else visited ++ [r]) where
  listed := h.listed
  passed := by
    obtain ⟨passed, hstored, hsub, hpassed⟩ := h.passed
    refine ⟨passed ++ [r], by simp [hstored], ?_, ?_⟩
    case refine_1 =>
      split
      case isTrue  => exact hsub.trans (List.sublist_append_left ..)
      case isFalse => exact hsub.append (.refl _)
    case refine_2 =>
      intro r' hr' hm
      cases List.mem_append.mp hr'
      case inl hr' =>
        have hv := hpassed r' hr' hm
        split
        case isTrue  => exact hv
        case isFalse => exact List.mem_append_left _ hv
      case inr hr' =>
        cases List.mem_singleton.mp hr'
        simp [hm]

-- A thread knows at its next point what it needs to know there.
theorem Point.knows_next (h : (p.step txn defaultSchema catalog).1 = .next p') (hk : p.Knows txn) :
    p'.Knows (p.step txn defaultSchema catalog).2 := by
  cases p
  case lookupSchema         => cases h; trivial
  case lookupSchemaLocked   => cases h
  case scanSchemas          => cases h; trivial
  case scanSchemasLocked    =>
    cases hl : txn.listed
    case true  => simp only [step, hl, ↓reduceIte] at h; cases h; exact .start hl
    case false => simp only [step, hl] at h; cases h; exact Bool.not_eq_true _ |>.mpr hl
  case listNamespaces       => cases h; exact hk
  case listNamespacesLocked => cases h; exact hk
  case namespacesListed     =>
    dsimp only [step] at h ⊢
    split at h
    case h_1 => cases h
    case h_2 => cases h; exact fun hl => hk (listed_foldl_storeNew.symm.trans hl)
  case completeListing rs   =>
    cases rs
    case nil  => cases h; exact .start rfl
    case cons => cases h; exact hk
  case forEach rs _         =>
    cases rs
    case nil  => cases h
    case cons => cases h; exact hk.visit
  case scan                 => dsimp only [step] at h; split at h <;> cases h; trivial
  case lookupEntry          => dsimp only [step] at h; split at h <;> cases h; trivial
  case tables               => cases h; trivial
  case tablesLocked r op    =>
    cases he : txn.heap[r]?
    case none   => simp [step, he] at h
    case some e =>
      cases hc : e.cached op
      case some => simp [step, he, hc] at h
      case none =>
        simp only [step, he, hc, Option.elim_some] at h ⊢
        cases h
        exact ⟨e, he, hc⟩
  case catalog              => cases h; exact hk
  case catalogLocked        => cases h; exact hk
  case catalogAnswered      => cases h

theorem Visits.complete {visited : List Nat} (h : txn.Visits [] visited) :
    txn.listed ∧ txn.visited ⊆ visited ∧ visited.Sublist txn.stored := by
  obtain ⟨passed, hstored, hsub, hpassed⟩ := h.passed
  rw [List.append_nil] at hstored
  refine ⟨h.listed, ?_, hstored ▸ hsub⟩
  intro r hr
  obtain ⟨hr, hm⟩ := List.mem_filter.mp hr
  exact hpassed r (hstored ▸ hr) (by simpa using hm)

theorem Point.eq_forEach_of_returns {refs : List Nat}
    (h : (p.step txn defaultSchema catalog).1 = .returns .scanSchemas (.ok refs)) :
    p = .forEach [] refs := by
  cases p
  case forEach rs visited => cases rs <;> cases h; rfl
  case namespacesListed   => dsimp only [step] at h; split at h <;> cases h
  case completeListing rs => cases rs <;> cases h
  case scanSchemasLocked  => dsimp only [step] at h; split at h <;> cases h
  case scan               => dsimp only [step] at h; split at h <;> cases h
  case lookupEntry        => dsimp only [step] at h; split at h <;> cases h
  case tablesLocked       => dsimp only [step] at h; split at h <;> cases h
  all_goals cases h

-- What a thread knows is guarded by the locks that it holds.
theorem Point.Knows.kept (hk : q.Knows txn) (h : Keeps x (p.held x) txn txn')
    (hd : ∀ k ∈ p.held x, k ∉ q.held x) : q.Knows txn' := by
  have schemas (hq : .schemas x ∈ q.held x) : txn'.schemas = txn.schemas ∧ txn'.listed = txn.listed :=
    h.schemas fun hp => hd _ hp hq
  have unlisted (hq : .schemas x ∈ q.held x) (hk : ¬txn.listed) : ¬txn'.listed :=
    fun hl => hk ((schemas hq).right.symm.trans hl)
  have uncached {r : Nat} {op : TablesOp} (hq : .tables x r ∈ q.held x)
      (hk : ∃ e, txn.heap[r]? = some e ∧ e.cached op = none) :
      ∃ e, txn'.heap[r]? = some e ∧ e.cached op = none := by
    obtain ⟨e, he, hc⟩ := hk
    obtain ⟨e', he', _, htables⟩ := h.heap he
    exact ⟨e', he', SchemaEntry.cached_congr (htables fun hp => hd _ hp hq) ▸ hc⟩
  cases q
  case listNamespaces       => exact unlisted (by simp [held]) hk
  case listNamespacesLocked => exact unlisted (by simp [held]) hk
  case namespacesListed     => exact unlisted (by simp [held]) hk
  case completeListing      => exact unlisted (by simp [held]) hk
  case catalog              => exact uncached (by simp [held]) hk
  case catalogLocked        => exact uncached (by simp [held]) hk
  case catalogAnswered      => exact uncached (by simp [held]) hk
  case forEach rs visited   =>
    obtain ⟨hschemas, hlisted⟩ := schemas (by simp [held])
    obtain ⟨passed, hstored, hsub, hpassed⟩ := hk.passed
    refine ⟨hlisted ▸ hk.listed, passed, ?_, hsub, ?_⟩
    case refine_1 => rw [stored, hschemas]; exact hstored
    case refine_2 => exact fun r hr hm => hpassed r hr fun hm' => hm (h.isNamespaceMissing hm')
  all_goals trivial

-- What a thread knows about its transaction.
def Knows (thread : Option (Nat × Point)) (txns : Nat → Transaction) : Prop :=
  ∀ x p, thread = some (x, p) → p.Knows (txns x)

theorem outline : (program defaultSchema).Outline Knows where
  step := by
    intro thread i txns hk x' p' he
    rcases thread with _ | ⟨x, p⟩ <;> cases i
    case none.resume => cases he
    case none.invoke x call => cases he; cases call <;> trivial
    case some.invoke => exact hk x' p' he
    case some.resume catalog =>
      dsimp only [Program.point, Program.effect, program] at he ⊢
      cases hn : (p.step (txns x) defaultSchema catalog).1
      case returns => rw [hn] at he; cases he
      case next =>
        rw [hn] at he
        cases he
        rw [Function.update_self]
        exact p.knows_next hn (hk _ p rfl)
  unharmed := by
    intro thread other i txns _ hk hd y q he
    subst he
    rcases thread with _ | ⟨x, p⟩ <;> cases i
    case none.invoke => exact hk y q rfl
    case none.resume => exact hk y q rfl
    case some.invoke => exact hk y q rfl
    case some.resume catalog =>
      dsimp only [Program.effect, program]
      by_cases hx : y = x
      case neg => exact Function.update_of_ne hx .. ▸ hk y q rfl
      case pos =>
        subst hx
        rw [Function.update_self]
        exact (hk y q rfl).kept p.step_keeps hd

-- The order in which a thread may take the mutexes.
def Mutex.rank : Mutex → Fin 3
  | .schemas _  => 0
  | .tables _ _ => 1
  | .catalog    => 2

-- How far an operation is from its end.
def Point.remaining : Point → ℕ ×ₗ ℕ
  | .lookupSchema ..             => toLex (2, 0)
  | .lookupSchemaLocked ..       => toLex (1, 0)
  | .scanSchemas                 => toLex (7, 0)
  | .scanSchemasLocked           => toLex (6, 0)
  | .listNamespaces              => toLex (5, 0)
  | .listNamespacesLocked        => toLex (4, 0)
  | .namespacesListed _          => toLex (3, 0)
  | .completeListing _ entries   => toLex (2, entries.length)
  | .forEach entries _           => toLex (1, entries.length)
  | .scan ..                     => toLex (6, 0)
  | .lookupEntry ..              => toLex (6, 0)
  | .tables ..                   => toLex (5, 0)
  | .tablesLocked ..             => toLex (4, 0)
  | .catalog ..                  => toLex (3, 0)
  | .catalogLocked ..            => toLex (2, 0)
  | .catalogAnswered ..          => toLex (1, 0)

theorem Point.remaining_next (h : (p.step txn defaultSchema catalog).1 = .next p') :
    p'.remaining < p.remaining := by
  rw [Prod.Lex.lt_iff]
  cases p
  case lookupSchema         => cases h; simp [remaining]
  case lookupSchemaLocked   => cases h
  case scanSchemas          => cases h; simp [remaining]
  case scanSchemasLocked    => dsimp only [step] at h; split at h <;> cases h <;> simp [remaining]
  case listNamespaces       => cases h; simp [remaining]
  case listNamespacesLocked => cases h; simp [remaining]
  case namespacesListed     => dsimp only [step] at h; split at h <;> cases h; simp [remaining]
  case completeListing rs   => cases rs <;> cases h <;> simp [remaining]
  case forEach rs _         => cases rs <;> cases h; simp [remaining]
  case scan                 => dsimp only [step] at h; split at h <;> cases h; simp [remaining]
  case lookupEntry          => dsimp only [step] at h; split at h <;> cases h; simp [remaining]
  case tables               => cases h; simp [remaining]
  case tablesLocked         => dsimp only [step] at h; split at h <;> cases h; simp [remaining]
  case catalog              => cases h; simp [remaining]
  case catalogLocked        => cases h; simp [remaining]
  case catalogAnswered      => cases h

def remaining (thread : Option (Nat × Point)) : ℕ ×ₗ ℕ :=
  thread.elim (toLex (0, 0)) fun (_, p) => p.remaining

theorem Point.remaining_pos (p : Point) : toLex (0, 0) < p.remaining := by
  rw [Prod.Lex.lt_iff]
  cases p <;> simp [remaining]

theorem locking_ordered : locking.Ordered Mutex.rank := by
  intro thread k hk k' hk'
  rcases thread with _ | ⟨x, p⟩
  case none => cases hk
  case some =>
    cases p <;> simp_all [locking, Point.wants, Point.held, Mutex.rank]
    all_goals
      subst hk
      decide

end Transaction

open Transaction

-- In any interleaving, no mutex is held twice, so that there is at most one request to the catalog at a
-- time, and no thread is ever locked out for good.
theorem calls_exclude_each_other_and_finish (τ : Type) [DecidableEq τ] [Fintype τ]
    (timestamps : Nat → Int) (defaultSchema : String) (is : List (τ × Transaction.Input))
    (catalog : Catalog) :
    let m := concurrent τ timestamps defaultSchema
    let c := m.run m.init is
    locking.Exclusive c.points ∧
    ∃ schedule : List τ, ∀ t, (m.run c (schedule.map (·, .resume catalog))).points t = none := by
  intro m c
  have hx : (program defaultSchema).Exclusive c.points := Program.exclusive rfl ⟨is, rfl⟩
  refine ⟨hx, ?_⟩
  let busy : Option (Nat × Point) → Prop := fun thread => thread ≠ none
  have hb : ∀ thread, ∀ k ∈ (program defaultSchema).held thread, busy thread := by
    intro thread k hk hn
    subst hn
    cases hk
  have hr : ∀ thread txns, busy thread →
      remaining ((program defaultSchema).point thread (.resume catalog) txns) < remaining thread := by
    intro thread txns ht
    rcases thread with _ | ⟨x, p⟩
    case none => exact absurd rfl ht
    case some =>
      dsimp only [Program.point, program]
      cases hn : (p.step (txns x) defaultSchema catalog).1
      case returns => exact p.remaining_pos
      case next p' => exact p.remaining_next hn
  obtain ⟨schedule, hs⟩ := Program.exists_schedule locking_ordered hb (.resume catalog) hr c
  exact ⟨schedule, fun t => not_not.mp (hs t)⟩

-- What a listing of the schemas shows, threads may find to be missing meanwhile. It leaves out no schema
-- that is not known to be missing when it returns.
theorem concurrent_schema_listing_is_complete (τ : Type) [DecidableEq τ] [Fintype τ]
    (timestamps : Nat → Int) (defaultSchema : String) (is : List (τ × Transaction.Input)) (t : τ)
    (catalog : Catalog) (x : Nat) (refs : List Nat) :
    let m := concurrent τ timestamps defaultSchema
    let c := m.run m.init is
    m.out c (t, .resume catalog) = some (some (x, .scanSchemas, .ok refs)) →
      (c.shared x).listed ∧ (c.shared x).visited ⊆ refs ∧ refs.Sublist (c.shared x).stored := by
  intro m c hout
  have hreach : m.Reachable c := ⟨is, rfl⟩
  cases Program.next_cases (program defaultSchema) (fun x => start (timestamps x)) none c t
    (.resume catalog)
  case inr hn => cases hn.right.right.symm.trans hout
  case inl hn =>
    have hret := Option.some.inj <| hn.right.right.symm.trans hout
    rcases ht : c.points t with _ | ⟨y, p⟩
    case none => simp [Program.shown, program, ht] at hret
    case some =>
      have hk : p.Knows (c.shared y) :=
        outline.reachable rfl (fun _ _ hn => by cases hn) hreach t y p ht
      simp only [Program.shown, program, ht] at hret
      cases hs : (p.step (c.shared y) defaultSchema catalog).1
      case next => rw [hs] at hret; cases hret
      case returns =>
        rw [hs] at hret
        cases hret
        cases Point.eq_forEach_of_returns hs
        exact hk.complete

-- A thread finds a namespace to be missing after another one's listing has passed it.
theorem concurrent_schema_listing_is_complete_shop :
    let catalog := Shop.catalog ["attic", "shop"]
    let later := { catalog with loadTable := fun _ => .error ⟨.noSuchNamespace, ""⟩ }
    let m := concurrent (Fin 2) (fun _ => 0) "default"
    let is := (0, .invoke 0 .scanSchemas) :: List.replicate 9 (0, .resume catalog) ++
      (1, .invoke 0 (.lookupEntry 0 .tableEntry "orders")) :: List.replicate 6 (1, .resume later) ++
      [(0, .resume later)]
    let c := m.run m.init is
    (c.shared 0).isNamespaceMissing 0 ∧
    (c.shared 0).listed ∧ (c.shared 0).visited ⊆ [0, 1] ∧ [0, 1].Sublist (c.shared 0).stored :=
  ⟨rfl, concurrent_schema_listing_is_complete (Fin 2) (fun _ => 0) "default" _ 0
    (Shop.catalog ["attic", "shop"]) 0 [0, 1] rfl⟩

end ProtoIceberg
