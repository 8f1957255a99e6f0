import ProtoIceberg.Catalog.Theorems.Concurrency
import ProtoIceberg.Catalog.Theorems.Failure
import ProtoIceberg.Extensions.Refinement

namespace ProtoIceberg

namespace SchemaEntry

variable {e : SchemaEntry} {catalog : Catalog} {txnStart : Int} {op : TablesOp} {refs : List Nat}

theorem perform_of_cached (h : e.cached op = some refs) :
    e.perform catalog txnStart op.op = ({ result := .ok refs, exchanges := [] }, e) := by
  cases op
  case scan =>
    cases hl : e.tables.listed
    case true  => simp_all [cached, perform, TablesOp.op, scanTables]
    case false => simp [cached, hl] at h
  case lookupEntry tableName =>
    cases hl : e.tables.lookup tableName
    case unknown    => simp [cached, hl] at h
    case negative   => simp_all [cached, perform, TablesOp.op, lookupEntry]
    case positive r =>
      cases hn : e.tables.needsLoad r
      case true  => simp [cached, hl, hn] at h
      case false => simp_all [cached, perform, TablesOp.op, lookupEntry]

-- An operation that the registry can't answer loads from the catalog.
theorem perform_of_uncached (h : e.cached op = none) :
    (e.perform catalog txnStart op.op).1.result = (e.load catalog txnStart op).1 ∧
      (e.perform catalog txnStart op.op).2 = (e.load catalog txnStart op).2 := by
  cases op
  case scan =>
    cases hl : e.tables.listed
    case true  => simp [cached, hl] at h
    case false => simp [perform, TablesOp.op, load, scanTables, hl]
  case lookupEntry tableName =>
    have heq : e.lookupEntry catalog txnStart .tableEntry tableName =
        e.loadTableEntry catalog txnStart tableName := by
      cases hl : e.tables.lookup tableName
      case unknown    => simp [lookupEntry, hl]
      case negative   => simp [cached, hl] at h
      case positive r =>
        cases hn : e.tables.needsLoad r
        case true  => simp [lookupEntry, hl, hn]
        case false => simp [cached, hl, hn] at h
    simp [perform, TablesOp.op, load, heq]

-- Loading does not depend on whether the namespace is known to be missing.
theorem load_markNamespaceMissing : e.markNamespaceMissing.load catalog txnStart op =
    ((e.load catalog txnStart op).1, (e.load catalog txnStart op).2.markNamespaceMissing) := by
  cases op
  case scan =>
    simp only [load, listTables, markNamespaceMissing]
    cases catalog.listTables (getNamespace e.name)
    case ok => rfl
    case error error =>
      obtain ⟨kind, message⟩ := error
      cases kind <;> rfl
  case lookupEntry tableName =>
    simp only [load, loadTableEntry, markNamespaceMissing]
    cases catalog.loadTable (getTableIdentifier e.name tableName)
    case error error =>
      obtain ⟨kind, message⟩ := error
      cases kind <;> rfl
    case ok table =>
      dsimp only
      split <;> rfl

end SchemaEntry

namespace Transaction

open SchemaEntry (TablesOp)

-- Operations one after another, each of which is answered at once.
def sequential (duckdbTimestamp : Int) (defaultSchema : String) :
    Machine Transaction (Catalog × Op) (Except Exception (List Nat)) where
  init := start duckdbTimestamp
  step txn
    | (catalog, op) => (txn.result defaultSchema catalog op, (txn.step defaultSchema catalog op).2)

-- The names that have been listed and the entries that are yet to be checked against them, while a
-- listing is being completed.
abbrev Completion := Option (List String × List Nat)

def Point.completion : Point → Completion
  | .completeListing names entries => some (names, entries)
  | _                              => none

def shade (s : Completion) (r : Nat) (e : SchemaEntry) : SchemaEntry :=
  if ∃ c ∈ s, r ∈ c.2 ∧ e.name ∉ c.1 then e.markNamespaceMissing else e

-- The transaction as if the listing had been completed.
def complete (txn : Transaction) (s : Completion) : Transaction :=
  let txn := txn.mapEntries (shade s) fun _ _ => by rw [shade]; split <;> rfl
  { txn with listed := txn.listed || s.isSome }

variable {txn txn' : Transaction} {catalog : Catalog} {defaultSchema : String} {s : Completion}
  {r r' : Nat} {e : SchemaEntry} {op : TablesOp} {names : List String} {rs : List Nat} {p : Point}

theorem eq_of_getElem? (hstart : txn.startTimestampMs = txn'.startTimestampMs)
    (hheap : ∀ r : Nat, txn.heap[r]? = txn'.heap[r]?) (hschemas : txn.schemas = txn'.schemas)
    (hlisted : txn.listed = txn'.listed) : txn = txn' := by
  have hheap := List.ext_getElem? hheap
  cases txn
  cases txn'
  simp_all

@[simp]
theorem getElem?_heap_complete : (txn.complete s).heap[r]? = (txn.heap[r]?).map (shade s r) := by
  simp [complete, mapEntries]

@[simp]
theorem shade_none : shade none r = id :=
  funext fun _ => if_neg (by simp)

theorem shade_some : shade (some (names, rs)) r e =
    if r ∈ rs ∧ e.name ∉ names then e.markNamespaceMissing else e := by
  simp [shade]

@[simp]
theorem complete_none : txn.complete none = txn :=
  eq_of_getElem? rfl (by simp) rfl (by simp [complete, mapEntries])

theorem tables_shade : (shade s r e).tables = e.tables := by
  rw [shade]
  split <;> rfl

theorem load_shade {txnStart : Int} : (shade s r e).load catalog txnStart op =
    ((e.load catalog txnStart op).1, shade s r (e.load catalog txnStart op).2) := by
  rw [shade, shade, SchemaEntry.name_load]
  split
  case isTrue  => exact SchemaEntry.load_markNamespaceMissing
  case isFalse => rfl

-- Checking one more entry completes the listing by that much.
theorem complete_markAbsent :
    (txn.markAbsent names r).complete (some (names, rs)) = txn.complete (some (names, r :: rs)) := by
  apply eq_of_getElem?
  case hstart   => rfl
  case hschemas => rfl
  case hlisted  => rfl
  case hheap =>
    intro r'
    cases he : txn.heap[r']?
    case none   => simp [markAbsent, mapEntries, he]
    case some e =>
      rw [getElem?_heap_complete, getElem?_heap_complete, getElem?_heap_markAbsent he, he]
      by_cases hn : e.name ∈ names
      case pos => simp [shade, hn]
      case neg =>
        by_cases hr : r' = r <;> by_cases hrs : r' ∈ rs <;>
          simp [shade, hn, hr, hrs, SchemaEntry.markNamespaceMissing]

theorem complete_nil : txn.complete (some (names, [])) = { txn with listed := true } := by
  have hshade (r : Nat) : shade (some (names, [])) r = id := funext fun _ => if_neg (by simp)
  exact eq_of_getElem? rfl (by simp [hshade]) rfl (by simp [complete, mapEntries])

theorem perform_unchanged {sop : SchemaEntry.Op} {refs : List Nat}
    (hnone : txn.heap[r]? = none → refs = [])
    (h : ∀ e, txn.heap[r]? = some e → e.perform catalog txn.startTimestampMs sop =
      ({ result := .ok refs, exchanges := [] }, e)) :
    (txn.perform catalog r sop).1.elim (.ok []) Answer.result = .ok refs ∧
      (txn.perform catalog r sop).2 = txn := by
  cases he : txn.heap[r]?
  case none =>
    refine ⟨by simp [perform, he, hnone he], eq_of_getElem? rfl ?_ rfl rfl⟩
    intro r'
    by_cases hr : r' = r
    case pos => subst hr; simp [perform, mapEntries, he]
    case neg => exact perform_heap_of_ne hr
  case some e =>
    refine ⟨by rw [perform_answer he, h e he, Option.elim_some], eq_of_getElem? rfl ?_ rfl rfl⟩
    intro r'
    by_cases hr : r' = r
    case pos => subst hr; rw [perform_heap he, h e he, he]
    case neg => exact perform_heap_of_ne hr

-- What is known of a schema's tables can be told while a listing is being completed.
theorem perform_complete_cached {refs : List Nat}
    (hc : txn.heap[r]?.elim (some []) (·.cached op) = some refs) :
    ((txn.complete s).perform catalog r op.op).1.elim (.ok []) Answer.result = .ok refs ∧
      ((txn.complete s).perform catalog r op.op).2 = txn.complete s := by
  apply perform_unchanged <;> rw [getElem?_heap_complete]
  case hnone =>
    intro hn
    rw [Option.map_eq_none_iff.mp hn] at hc
    exact (Option.some.inj hc).symm
  case h =>
    intro e' he'
    obtain ⟨e, he, hshade⟩ := Option.map_eq_some_iff.mp he'
    subst hshade
    rw [he] at hc
    exact SchemaEntry.perform_of_cached <| (SchemaEntry.cached_congr tables_shade).trans hc

-- A scan that finds its namespace missing, or that is not for tables, does nothing.
theorem perform_complete_scan {type : CatalogType}
    (h : type ≠ .tableEntry ∨ txn.isNamespaceMissing r) :
    ((txn.complete s).perform catalog r (.scan type)).1.elim (.ok []) Answer.result = .ok [] ∧
      ((txn.complete s).perform catalog r (.scan type)).2 = txn.complete s := by
  apply perform_unchanged (fun _ => rfl)
  intro e' he'
  by_cases ht : type = .tableEntry
  case neg => simp [SchemaEntry.perform, SchemaEntry.scan, ht]
  case pos =>
    rw [getElem?_heap_complete] at he'
    obtain ⟨e, he, hshade⟩ := Option.map_eq_some_iff.mp he'
    subst hshade
    have hm : e.namespaceMissing := isNamespaceMissing_eq he ▸ h.resolve_left (not_not.mpr ht)
    have hm' : (shade s r e).namespaceMissing := by
      rw [shade]
      split
      case isTrue  => rfl
      case isFalse => exact hm
    simp [SchemaEntry.perform, SchemaEntry.scan, hm']

theorem perform_complete_lookupEntry {type : CatalogType} {tableName : String}
    (h : type ≠ .tableEntry) :
    ((txn.complete s).perform catalog r (.lookupEntry type tableName)).1.elim (.ok [])
      Answer.result = .ok [] ∧
    ((txn.complete s).perform catalog r (.lookupEntry type tableName)).2 = txn.complete s := by
  apply perform_unchanged (fun _ => rfl)
  intro e _
  rw [SchemaEntry.perform, SchemaEntry.lookupEntry, if_pos h]
  rfl

-- Loading from the catalog does not conflict with a listing that is being completed.
theorem perform_complete_load (he : txn.heap[r]? = some e) (hc : e.cached op = none) :
    ((txn.complete s).perform catalog r op.op).1.elim (.ok []) Answer.result =
        (txn.load r catalog op).1 ∧
      ((txn.complete s).perform catalog r op.op).2 = (txn.load r catalog op).2.complete s := by
  have he' : (txn.complete s).heap[r]? = some (shade s r e) := by simp [he]
  have hc' : (shade s r e).cached op = none := (SchemaEntry.cached_congr tables_shade).trans hc
  have hstart : (txn.complete s).startTimestampMs = txn.startTimestampMs := rfl
  obtain ⟨hresult, hstate⟩ := @SchemaEntry.perform_of_uncached _ catalog txn.startTimestampMs _ hc'
  rw [load_shade] at hresult hstate
  constructor
  case left =>
    rw [perform_answer he', hstart, Option.elim_some, hresult]
    simp [load, he]
  case right =>
    refine eq_of_getElem? rfl ?_ rfl rfl
    intro r'
    by_cases hr : r' = r
    case pos =>
      subst hr
      rw [perform_heap he', hstart, hstate, getElem?_heap_complete, getElem?_heap_load he]
      simp
    case neg =>
      rw [perform_heap_of_ne hr, getElem?_heap_complete, getElem?_heap_complete]
      cases he : txn.heap[r']? <;> simp [load, mapEntries, he, hr]

-- The operations that take effect at a step. A scan that has passed its check counts as its locked part.
def Point.effects (txn : Transaction) (catalog : Catalog) : Point → List (Catalog × Op)
  | .lookupSchemaLocked schemaName ifNotFound => [(catalog, .lookupSchema schemaName ifNotFound)]
  | .scanSchemasLocked => if txn.listed then [(catalog, .scanSchemas)] else []
  | .namespacesListed answers => [(answers, .scanSchemas)]
  | .scan r type =>
    if type ≠ .tableEntry ∨ txn.isNamespaceMissing r then [(catalog, .perform r (.scan type))] else []
  | .lookupEntry r type tableName =>
    if type ≠ .tableEntry then [(catalog, .perform r (.lookupEntry type tableName))] else []
  | .tablesLocked r op =>
    match txn.heap[r]?.elim (some []) (·.cached op) with
    | some _ => [(catalog, .perform r op.op)]
    | none   => []
  | .catalogAnswered r op answers => [(answers, .perform r op.op)]
  | _ => []

def Outcome.completion (outcome : Outcome) : Completion :=
  outcome.point.bind Point.completion

-- What is seen of an operation. Which schemas a visit of them shows depends on when it passes them.
def Op.shown : Op → Except Exception (List Nat) → List (Op × Except Exception (List Nat))
  | .scanSchemas, _ => []
  | op, result      => [(op, result)]

def Outcome.shown : Outcome → List (Op × Except Exception (List Nat))
  | .next _            => []
  | .returns op result => op.shown result

theorem complete_stored {namespaces : List Namespace} :
    let names := namespaces.filterMap Namespace.singleLevel
    (names.foldl storeNew txn).complete (some (names, (names.foldl storeNew txn).stored)) =
      txn.list namespaces := by
  intro names
  rw [list, completeListing_eq]
  refine eq_of_getElem? rfl ?_ rfl (by simp [complete])
  intro r
  simp only [complete, mapEntries, List.getElem?_mapIdx]
  exact congrArg (Option.map · _) <| funext fun _ => shade_some

-- A step does to the completed transaction what the operations do that take effect at it, and returns
-- what they return.
structure Simulates (timestamp : Int) (defaultSchema : String) (b : Transaction)
    (effects : List (Catalog × Op)) (outcome : Outcome) (b' : Transaction) : Prop where
  run   : (sequential timestamp defaultSchema).run b effects = b'
  shown : outcome.shown = ((sequential timestamp defaultSchema).history b effects).flatMap
    fun (i, result) => i.2.shown result

namespace Simulates

variable {timestamp : Int} {b b' : Transaction} {outcome : Outcome}

theorem returns {op : Op} {result : Except Exception (List Nat)}
    (hr : b.result defaultSchema catalog op = result) (hs : (b.step defaultSchema catalog op).2 = b') :
    Simulates timestamp defaultSchema b [(catalog, op)] (.returns op result) b' where
  run   := hs
  shown := by
    rw [← hr]
    exact (List.append_nil _).symm

theorem scanSchemas (hs : (b.scanSchemas catalog).2 = b') (ho : outcome.shown = []) :
    Simulates timestamp defaultSchema b [(catalog, .scanSchemas)] outcome b' where
  run   := hs
  shown := ho

end Simulates

namespace Point

variable {timestamp : Int} {x : Nat}

-- Only threads that hold the lock on the schemas can be completing a listing.
theorem simulates_locked (hk : p.Knows txn) (hheld : .schemas x ∈ p.held x) :
    let step := p.step txn defaultSchema catalog
    Simulates timestamp defaultSchema (txn.complete p.completion) (p.effects txn catalog) step.1
      (step.2.complete step.1.completion) := by
  cases p
  case lookupSchemaLocked =>
    change Simulates _ _ (txn.complete none) _ _ (complete _ none)
    rw [complete_none, complete_none]
    exact ⟨rfl, rfl⟩
  case scanSchemasLocked =>
    change Simulates _ _ (txn.complete none) _ _ _
    rw [complete_none]
    cases hl : txn.listed
    case false => simp only [step, effects, hl]; exact ⟨complete_none.symm, rfl⟩
    case true  =>
      simp only [step, effects, hl, if_true]
      exact .scanSchemas (by rw [Transaction.scanSchemas, if_pos hl]; exact complete_none.symm) rfl
  case listNamespaces =>
    change Simulates _ _ (txn.complete none) _ _ (complete _ none)
    exact ⟨rfl, rfl⟩
  case listNamespacesLocked =>
    change Simulates _ _ (txn.complete none) _ _ (complete _ none)
    exact ⟨rfl, rfl⟩
  case namespacesListed answers =>
    change Simulates _ _ (txn.complete none) _ _ _
    rw [complete_none]
    dsimp only [step, effects]
    cases ha : answers.listNamespaces { levels := [] }
    case error error =>
      apply Simulates.scanSchemas _ rfl
      rw [Transaction.scanSchemas, if_neg hk]
      dsimp only
      rw [ha]
      exact complete_none.symm
    case ok namespaces =>
      apply Simulates.scanSchemas _ rfl
      rw [Transaction.scanSchemas, if_neg hk]
      dsimp only
      rw [ha]
      exact complete_stored.symm
  case completeListing names rs =>
    cases rs
    case nil       => exact ⟨complete_nil.trans complete_none.symm, rfl⟩
    case cons r rs => exact ⟨complete_markAbsent.symm, rfl⟩
  case forEach rs visited =>
    change Simulates _ _ (txn.complete none) _ _ _
    cases rs <;> exact ⟨rfl, rfl⟩
  all_goals simp [held] at hheld

theorem simulates_unlocked (hk : p.Knows txn) (hheld : .schemas x ∉ p.held x) (s : Completion) :
    let step := p.step txn defaultSchema catalog
    Simulates timestamp defaultSchema (txn.complete s) (p.effects txn catalog) step.1
      (step.2.complete s) ∧ step.1.completion = none := by
  cases p
  case lookupSchema => exact ⟨⟨rfl, rfl⟩, rfl⟩
  case scanSchemas  => exact ⟨⟨rfl, rfl⟩, rfl⟩
  case tables       => exact ⟨⟨rfl, rfl⟩, rfl⟩
  case catalog      => exact ⟨⟨rfl, rfl⟩, rfl⟩
  case catalogLocked => exact ⟨⟨rfl, rfl⟩, rfl⟩
  case scan r type =>
    by_cases h : type ≠ .tableEntry ∨ txn.isNamespaceMissing r
    case pos =>
      obtain ⟨hr, hs⟩ := @perform_complete_scan _ catalog s _ _ h
      simp only [step, effects, h, if_true]
      exact ⟨.returns hr hs, rfl⟩
    case neg =>
      simp only [step, effects, h, if_false]
      exact ⟨⟨rfl, rfl⟩, rfl⟩
  case lookupEntry r type tableName =>
    by_cases h : type ≠ .tableEntry
    case pos =>
      obtain ⟨hr, hs⟩ := @perform_complete_lookupEntry txn catalog s r _ tableName h
      dsimp only [step, effects]
      rw [if_pos h, if_pos h]
      exact ⟨.returns hr hs, rfl⟩
    case neg =>
      dsimp only [step, effects]
      rw [if_neg h, if_neg h]
      exact ⟨⟨rfl, rfl⟩, rfl⟩
  case tablesLocked r op =>
    cases hc : txn.heap[r]?.elim (some []) (·.cached op)
    case none => simp only [step, effects, hc]; exact ⟨⟨rfl, rfl⟩, rfl⟩
    case some refs =>
      obtain ⟨hr, hs⟩ := @perform_complete_cached _ catalog s _ _ _ hc
      simp only [step, effects, hc]
      exact ⟨.returns hr hs, rfl⟩
  case catalogAnswered r op answers =>
    obtain ⟨e, he, hc⟩ := hk
    obtain ⟨hr, hs⟩ := @perform_complete_load _ answers s _ _ _ he hc
    exact ⟨.returns hr hs, rfl⟩
  all_goals simp [held] at hheld

end Point

variable {τ : Type} {points : τ → Option (Nat × Point)} {b : Transaction} {x y : Nat} {t : τ}
  {thread : Option (Nat × Point)} {outcome : Outcome}

-- How a transaction that threads are at work on relates to one whose operations happen at once.
structure Completed (points : τ → Option (Nat × Point)) (x : Nat) (txn b : Transaction)
    (s : Completion) : Prop where
  eq      : b = txn.complete s
  holders : ∀ t p, points t = some (x, p) → .schemas x ∈ p.held x → p.completion = s
  owner   : s ≠ none → ∃ t p, points t = some (x, p) ∧ p.completion = s

-- A listing is only being completed with the lock on the schemas.
theorem Point.held_of_completion (h : p.completion ≠ none) (x : Nat) : .schemas x ∈ p.held x := by
  cases p
  case completeListing => exact List.mem_singleton_self _
  all_goals exact absurd rfl h

namespace Completed

theorem quiescent (h : Completed points x txn b s) (hp : ∀ t p, points t = some (x, p) →
    p.completion = none) : b = txn := by
  cases hs : s
  case none => rw [h.eq, hs, complete_none]
  case some =>
    obtain ⟨t, p, ht, hc⟩ := h.owner (by simp [hs])
    rw [hp t p ht, hs] at hc
    cases hc

variable [DecidableEq τ]

-- A thread that neither completes a listing nor gets the lock on the schemas does not interfere.
theorem other (h : Completed points y txn b s)
    (hold : ∀ p, points t = some (y, p) → p.completion = none)
    (hnew : ∀ p, thread = some (y, p) → .schemas y ∉ p.held y) :
    Completed (Function.update points t thread) y txn b s where
  eq      := h.eq
  holders := by
    intro t' p ht' hheld
    by_cases he : t' = t
    case pos => subst he; rw [Function.update_self] at ht'; exact absurd hheld (hnew p ht')
    case neg => rw [Function.update_of_ne he] at ht'; exact h.holders t' p ht' hheld
  owner   := by
    intro hs
    obtain ⟨t', p, ht', hp⟩ := h.owner hs
    have he : t' ≠ t := by
      intro he
      subst he
      exact hs <| hp.symm.trans <| hold p ht'
    exact ⟨t', p, (Function.update_of_ne he ..).trans ht', hp⟩

theorem locked (hx : locking.Exclusive points) (ht : points t = some (x, p))
    (hheld : .schemas x ∈ p.held x) :
    Completed (Function.update points t (outcome.point.map (x, ·))) x txn
      (txn.complete outcome.completion) outcome.completion where
  eq      := rfl
  holders := by
    intro t' p' ht' hheld'
    by_cases he : t' = t
    case pos =>
      subst he
      rw [Function.update_self] at ht'
      obtain ⟨q, hq, hxq⟩ := Option.map_eq_some_iff.mp ht'
      cases hxq
      rw [Outcome.completion, hq]
      rfl
    case neg =>
      rw [Function.update_of_ne he] at ht'
      exact absurd (hx t' t (.schemas x) (by simpa [locking, ht']) (by simpa [locking, ht])) he
  owner   := by
    intro hs
    cases ho : outcome.point
    case none   => simp [Outcome.completion, ho] at hs
    case some q => exact ⟨t, q, by simp, by simp [Outcome.completion, ho]⟩

-- Whoever takes the lock on the schemas finds no listing that is being completed.
theorem unlocked (h : Completed points x txn b s) (hgo : locking.MayGo points t)
    (ht : points t = some (x, p)) (hheld : .schemas x ∉ p.held x) (ho : outcome.completion = none)
    (hnext : ∀ q, outcome.point = some q → ∀ k ∈ q.held x, k ∈ p.held x ∨ k ∈ p.wants x) :
    Completed (Function.update points t (outcome.point.map (x, ·))) x txn' (txn'.complete s) s where
  eq      := rfl
  holders := by
    intro t' q ht' hheld'
    by_cases he : t' = t
    case neg =>
      rw [Function.update_of_ne he] at ht'
      exact h.holders t' q ht' hheld'
    case pos =>
      subst he
      rw [Function.update_self] at ht'
      obtain ⟨q, hq, hxq⟩ := Option.map_eq_some_iff.mp ht'
      cases hxq
      have hq' : q.completion = none := by simpa [Outcome.completion, hq] using ho
      have hfree : locking.Free points (.schemas x) :=
        hgo (.schemas x) (by simpa [locking, ht] using (hnext q hq _ hheld').resolve_left hheld)
      by_contra hs
      obtain ⟨t'', p'', ht'', hp''⟩ := h.owner fun hn => hs (hq'.trans hn.symm)
      have hc : p''.completion ≠ none := fun hn => hs (hq'.trans (hn.symm.trans hp''))
      exact hfree t'' (by simpa [locking, ht''] using p''.held_of_completion hc x)
  owner   := by
    intro hs
    obtain ⟨t', q, ht', hq⟩ := h.owner hs
    have he : t' ≠ t := by
      intro he
      subst he
      cases ht.symm.trans ht'
      exact hheld <| p.held_of_completion (hq ▸ hs) x
    exact ⟨t', q, (Function.update_of_ne he ..).trans ht', hq⟩

theorem step {timestamp : Int} (h : Completed points x txn b s) (hx : locking.Exclusive points)
    (hgo : locking.MayGo points t) (ht : points t = some (x, p)) (hk : p.Knows txn) :
    let step := p.step txn defaultSchema catalog
    ∃ b' s', Simulates timestamp defaultSchema b (p.effects txn catalog) step.1 b' ∧
      Completed (Function.update points t (step.1.point.map (x, ·))) x step.2 b' s' := by
  intro step
  by_cases hheld : .schemas x ∈ p.held x
  case pos =>
    have hb : b = txn.complete p.completion := h.holders t p ht hheld ▸ h.eq
    exact ⟨_, _, hb ▸ p.simulates_locked hk hheld, .locked hx ht hheld⟩
  case neg =>
    have hs := @p.simulates_unlocked _ catalog defaultSchema timestamp x hk hheld s
    refine ⟨_, _, h.eq ▸ hs.left, h.unlocked hgo ht hheld hs.right ?_⟩
    intro q hq
    apply p.held_next
    cases hn : step.1
    case next    => rw [hn] at hq; cases hq; rfl
    case returns => rw [hn] at hq; cases hq

end Completed

-- The operations that take effect when a thread takes its turn.
def effects [Fintype τ] [DecidableEq τ]
    (c : Program.Threads (Nat → Transaction) (Option (Nat × Point)) τ) :
    τ × Input → List (Nat × Catalog × Op)
  | (t, .resume catalog) =>
    if locking.MayGo c.points t then
      (c.points t).elim [] fun (x, p) => (p.effects (c.shared x) catalog).map (x, ·)
    else
      []
  | _ => []

variable [DecidableEq τ] [Fintype τ] {timestamps : Nat → Int}
  {c : Program.Threads (Nat → Transaction) (Option (Nat × Point)) τ} {a : Nat → Transaction}

theorem effects_of_blocked {i : Input} (h : ¬locking.MayGo c.points t) : effects c (t, i) = [] := by
  cases i
  case invoke => rfl
  case resume => exact if_neg h

theorem effects_resume (h : locking.MayGo c.points t) (ht : c.points t = some (x, p)) :
    effects c (t, .resume catalog) = (p.effects (c.shared x) catalog).map (x, ·) := by
  simp [effects, h, ht]

structure Related (timestamps : Nat → Int) (defaultSchema : String)
    (c : Program.Threads (Nat → Transaction) (Option (Nat × Point)) τ) (a : Nat → Transaction) :
    Prop where
  reachable : (concurrent τ timestamps defaultSchema).Reachable c
  completed : ∀ x, ∃ s, Completed c.points x (c.shared x) (a x) s

theorem Call.held_point {call : Call} : call.point.held x = [] := by
  cases call <;> rfl

namespace Related

-- The thread's next point belongs to the operations that have taken effect by then.
theorem step (h : Related timestamps defaultSchema c a) (hgo : locking.MayGo c.points t)
    (ht : c.points t = some (x, p)) (catalog : Catalog) :
    let step := p.step (c.shared x) defaultSchema catalog
    ∃ b' s', Simulates (timestamps x) defaultSchema (a x) (p.effects (c.shared x) catalog) step.1 b' ∧
      Completed (Function.update c.points t (step.1.point.map (x, ·))) x step.2 b' s' := by
  obtain ⟨s, hs⟩ := h.completed x
  have hx : (program defaultSchema).Exclusive c.points := Program.exclusive rfl h.reachable
  have hk := outline.reachable rfl (fun _ _ hn => by cases hn) h.reachable t
  exact hs.step hx hgo ht (hk x p ht)

theorem advance (h : Related timestamps defaultSchema c a) (hgo : locking.MayGo c.points t)
    (i : Input) (y : Nat) :
    let c' := (program defaultSchema).advance c t i
    let a' := (Machine.product fun x => sequential (timestamps x) defaultSchema).run a
      (effects c (t, i))
    ∃ s, Completed c'.points y (c'.shared y) (a' y) s := by
  obtain ⟨s, hs⟩ := h.completed y
  rcases ht : c.points t with _ | ⟨x, p⟩ <;> cases i
  case none.invoke x call =>
    refine ⟨s, ?_⟩
    simp only [Program.advance, Program.effect, Program.point, program, ht]
    apply hs.other
    case hold => simp [ht]
    case hnew =>
      intro p hp
      cases hp
      simp [Call.held_point]
  case none.resume catalog =>
    refine ⟨s, ?_⟩
    simp only [Program.advance, Program.effect, Program.point, program, ht, effects]
    rw [← ht, Function.update_eq_self]
    simpa [ht] using hs
  case some.invoke =>
    refine ⟨s, ?_⟩
    simp only [Program.advance, Program.effect, Program.point, program, ht, effects]
    rw [← ht, Function.update_eq_self]
    exact hs
  case some.resume catalog =>
    simp only [Program.advance, Program.effect, Program.point, program, ht]
    rw [effects_resume hgo ht, Machine.run_product_map]
    by_cases hy : y = x
    case pos =>
      subst hy
      rw [Function.update_self, if_pos rfl]
      obtain ⟨b', s', hsim, hs'⟩ := h.step hgo ht catalog
      exact ⟨s', hsim.run ▸ hs'⟩
    case neg =>
      rw [Function.update_of_ne hy, if_neg hy]
      refine ⟨s, hs.other ?_ ?_⟩
      case refine_1 =>
        intro q hq
        cases ht.symm.trans hq
        exact absurd rfl hy
      case refine_2 =>
        intro q hq
        obtain ⟨_, _, heq⟩ := Option.map_eq_some_iff.mp hq
        cases heq
        exact absurd rfl hy

end Related

theorem refines : (concurrent τ timestamps defaultSchema).Refines
    (.product fun x => sequential (timestamps x) defaultSchema) (Related timestamps defaultSchema)
    effects where
  init :=
    { reachable := .init, completed := fun x => ⟨none, complete_none.symm, nofun, nofun⟩ }
  next := by
    rintro c a ⟨t, i⟩ h
    refine { reachable := h.reachable.next _, completed := ?_ }
    cases Program.next_cases (program defaultSchema) (fun x => start (timestamps x)) none c t i
    case inl hn =>
      rw [concurrent, hn.right.left]
      exact h.advance hn.left i
    case inr hn =>
      rw [concurrent, hn.right.left, effects_of_blocked hn.left]
      exact h.completed

-- The answers that are seen of a step of a thread.
def returned (out : Option (Option (Nat × Op × Except Exception (List Nat)))) :
    List (Nat × Op × Except Exception (List Nat)) :=
  out.join.elim [] fun (x, op, result) => (op.shown result).map (x, ·)

-- The answer that is seen of an operation that happens at once.
def answered : (Nat × Catalog × Op) × Except Exception (List Nat) →
    List (Nat × Op × Except Exception (List Nat))
  | ((x, _, op), result) => (op.shown result).map (x, ·)

theorem returned_eq_shown {outcome : Outcome} :
    returned (some (outcome.returned.map (x, ·))) = outcome.shown.map (x, ·) := by
  cases outcome <;> rfl

theorem Related.out (h : Related timestamps defaultSchema c a) (i : τ × Input) :
    returned ((concurrent τ timestamps defaultSchema).out c i) =
      ((Machine.product fun x => sequential (timestamps x) defaultSchema).history a
        (effects c i)).flatMap answered := by
  obtain ⟨t, i⟩ := i
  cases Program.next_cases (program defaultSchema) (fun x => start (timestamps x)) none c t i
  case inr hn =>
    rw [concurrent, hn.right.right, effects_of_blocked hn.left]
    rfl
  case inl hn =>
    rw [concurrent, hn.right.right]
    rcases ht : c.points t with _ | ⟨x, p⟩ <;> cases i
    case none.invoke   => rfl
    case none.resume   => simp [effects, ht, Program.shown, program, returned, Machine.history]
    case some.invoke   => rfl
    case some.resume catalog =>
      obtain ⟨b', s', hsim, _⟩ := h.step hn.left ht catalog
      rw [effects_resume hn.left ht, Machine.history_product_map]
      simp only [Program.shown, program]
      rw [returned_eq_shown, hsim.shown, List.map_flatMap, List.flatMap_map]
      rfl

end Transaction

open Transaction

-- In any interleaving, the operations take effect one after another, at the steps that `effects`
-- names: they give the answers that they give in this order, and where no listing is being completed,
-- each transaction is as the operations leave it. A scan whose namespace is not known to be missing at
-- its first check takes effect as `scanTables`, which is not a call: what is found out about the
-- namespace between the check and the lock on the tables does not matter to it.
theorem calls_take_effect_at_once (τ : Type) [DecidableEq τ] [Fintype τ] (timestamps : Nat → Int)
    (defaultSchema : String) (is : List (τ × Transaction.Input)) :
    let m := concurrent τ timestamps defaultSchema
    let c := m.run m.init is
    let spec := Machine.product fun x => sequential (timestamps x) defaultSchema
    let ops := m.trace effects m.init is
    (m.outs m.init is).flatMap returned = (spec.history spec.init ops).flatMap answered ∧
    ∀ x, (∀ t p, c.points t = some (x, p) → p.completion = none) →
      c.shared x = (machine (timestamps x) defaultSchema).run (start (timestamps x))
        (Machine.inputs x ops) := by
  intro m c spec ops
  have hr : m.Refines spec (Related timestamps defaultSchema) effects := refines
  constructor
  case left => exact hr.history (fun i h => h.out i) is
  case right =>
    intro x hp
    obtain ⟨s, hs⟩ := (hr.run is).completed x
    exact (hs.quiescent hp).symm.trans Machine.run_product

end ProtoIceberg
