import ProtoIceberg.Catalog.Theorems.Failure
import ProtoIceberg.Catalog.Theorems.Settled
import ProtoIceberg.Catalog.Theorems.Transparent

namespace ProtoIceberg

-- The tables that the catalog lists in an exchange.
def Exchange.children : Exchange → Option (List TableIdentifier)
  | .listTables _ (.ok children) => some children
  | _                            => none

def Answer.children {α : Type} (answer : Answer α) : Option (List TableIdentifier) :=
  answer.exchanges.findSome? Exchange.children

namespace SchemaEntry

abbrev History := List (Event × Answer (List Nat))

namespace History

-- Whether a lookup of the table has returned the entry, or that there is none.
def Looked (history : History) (name : String) (found : Option Nat) : Prop :=
  ∃ catalog answer, (.perform catalog (.lookupEntry .tableEntry name), answer) ∈ history ∧
    answer.result = .ok found.toList

def Lists (history : History) (children : List TableIdentifier) : Prop :=
  ∃ x ∈ history, x.2.children = some children

variable {history : History} {event : Event} {answer : Answer (List Nat)} {name : String}
  {found : Option Nat} {children : List TableIdentifier}

theorem looked_concat_iff : Looked (history ++ [(event, answer)]) name found ↔
    Looked history name found ∨ answer.result = .ok found.toList ∧
      ∃ catalog, event = .perform catalog (.lookupEntry .tableEntry name) := by
  simp only [Looked, List.mem_append, List.mem_singleton, Prod.mk.injEq]
  constructor
  case mp =>
    intro ⟨catalog, answer', hmem, hr⟩
    cases hmem
    case inl hmem => exact .inl ⟨catalog, answer', hmem, hr⟩
    case inr heq  => exact .inr ⟨heq.right ▸ hr, catalog, heq.left.symm⟩
  case mpr =>
    intro h
    cases h
    case inl h => have ⟨catalog, answer', hmem, hr⟩ := h; exact ⟨catalog, answer', .inl hmem, hr⟩
    case inr h => have ⟨hr, catalog, he⟩ := h; exact ⟨catalog, answer, .inr ⟨he.symm, rfl⟩, hr⟩

theorem lists_concat_iff : Lists (history ++ [(event, answer)]) children ↔
    Lists history children ∨ answer.children = some children := by
  simp [Lists, or_and_right, exists_or]

end History

-- What an event does to a schema entry, given the answer to it.
inductive Happens (e : SchemaEntry) : Event → Answer (List Nat) → SchemaEntry → Prop
  | other {event : Event} {answer : Answer (List Nat)} {e' : SchemaEntry}
      (hx : ∀ catalog name, event ≠ .perform catalog (.lookupEntry .tableEntry name))
      (hl : answer.children = none) (ht : e'.tables = e.tables) :
    Happens e event answer e'
  | listed {event : Event} {answer : Answer (List Nat)} {children : List TableIdentifier}
      (hx : ∀ catalog name, event ≠ .perform catalog (.lookupEntry .tableEntry name))
      (hl : ¬e.tables.listed) (hc : answer.children = some children) :
    Happens e event answer { e with tables := e.tables.list (children.map TableIdentifier.name) }
  | looked {catalog : Catalog} {txnStart : Int} {name : String} :
    Happens e (.perform catalog (.lookupEntry .tableEntry name))
      (e.perform catalog txnStart (.lookupEntry .tableEntry name)).1
      (e.perform catalog txnStart (.lookupEntry .tableEntry name)).2

variable {e e' : SchemaEntry} {catalog : Catalog} {txnStart : Int} {schemaName name : String}
  {history : History} {event : Event} {answer : Answer (List Nat)}

theorem scanTables_happens
    (hx : ∀ catalog name, event ≠ .perform catalog (.lookupEntry .tableEntry name)) :
    Happens e event (e.scanTables catalog).1 (e.scanTables catalog).2 := by
  have hlist := @scanTables_outcome e catalog
  generalize e.scanTables catalog = outcome at hlist ⊢
  cases hlist
  case cached           => exact .other hx rfl rfl
  case namespaceMissing => exact .other hx rfl rfl
  case failed           => exact .other hx rfl rfl
  case listed hl _      => exact .listed hx hl rfl

theorem machine_happens : let m := machine txnStart schemaName
    Happens e event (m.out e event) (m.next e event) := by
  cases event
  case markNamespaceMissing => exact .other nofun rfl rfl
  case perform catalog op =>
    cases op
    case scanTables => exact scanTables_happens nofun
    case scan type =>
      change Happens e _ (e.scan catalog type).1 (e.scan catalog type).2
      cases scan_cases e catalog type
      case inl hs => exact hs ▸ .other nofun rfl rfl
      case inr hs => exact hs.right ▸ scanTables_happens nofun
    case lookupEntry type name =>
      by_cases ht : type = .tableEntry
      case pos =>
        subst ht
        exact .looked
      case neg =>
        have hx (catalog' : Catalog) (name' : String) :
            Event.perform catalog (.lookupEntry type name) ≠
              .perform catalog' (.lookupEntry .tableEntry name') := by
          intro h
          cases h
          exact ht rfl
        simp only [Machine.out, Machine.next, machine, perform, lookupEntry, if_pos ht]
        exact .other hx rfl rfl

theorem loadTableEntry_tables :
    (e.loadTableEntry catalog txnStart name).2.tables.listed = e.tables.listed ∧
    ∀ n ≠ name, (e.loadTableEntry catalog txnStart name).2.tables.status n = e.tables.status n := by
  have hmissing (n : String) (hn : n ≠ name) :
      (e.tables.markMissing name).status n = e.tables.status n := by
    rw [TableRegistry.status_markMissing, Function.update_of_ne hn]
  have hload := @loadTableEntry_outcome e catalog txnStart name
  generalize e.loadTableEntry catalog txnStart name = outcome at hload ⊢
  cases hload
  case absentNamespace => exact ⟨rfl, hmissing⟩
  case absent          => exact ⟨rfl, hmissing⟩
  case failed          => exact ⟨rfl, fun _ _ => rfl⟩
  case unreadable      => exact ⟨rfl, fun _ _ => rfl⟩
  case loaded hl       =>
    refine ⟨rfl, fun n hn => ?_⟩
    rw [TableRegistry.status_store, hl.name, Function.update_of_ne hn]

theorem lookupEntry_tables :
    (e.lookupEntry catalog txnStart .tableEntry name).2.tables.listed = e.tables.listed ∧
    ∀ n ≠ name,
      (e.lookupEntry catalog txnStart .tableEntry name).2.tables.status n = e.tables.status n := by
  rw [lookupEntry_eq]
  cases e.tables.status name
  case absent      => exact ⟨rfl, fun _ _ => rfl⟩
  case loaded      => exact ⟨rfl, fun _ _ => rfl⟩
  case unknown     => exact loadTableEntry_tables
  case placeholder => exact loadTableEntry_tables

-- What is known of a table after a lookup is as before, or what the lookup found.
theorem lookupEntry_status_cases (e : SchemaEntry) (catalog : Catalog) (txnStart : Int)
    (name n : String) :
    (e.lookupEntry catalog txnStart .tableEntry name).2.tables.status n = e.tables.status n ∨
    ∃ found, (e.lookupEntry catalog txnStart .tableEntry name).2.tables.status n = .ofLookup found := by
  by_cases hn : n = name
  case neg => exact .inl (lookupEntry_tables.right n hn)
  case pos =>
    subst hn
    cases hr : (e.lookupEntry catalog txnStart .tableEntry n).1.result
    case error    => exact .inl (by rw [lookupEntry_error hr])
    case ok found => exact .inr ⟨found, lookupEntry_status hr⟩

theorem lookupEntry_children :
    (e.perform catalog txnStart (.lookupEntry .tableEntry name)).1.children = none := by
  change (e.lookupEntry catalog txnStart .tableEntry name).1.children = none
  rw [lookupEntry_eq, Answer.children]
  cases e.tables.status name
  case absent      => rfl
  case loaded      => rfl
  case unknown     => exact loadTableEntry_exchanges ▸ rfl
  case placeholder => exact loadTableEntry_exchanges ▸ rfl

theorem Happens.lists_once (h : Happens e event answer e') (hc : answer.children.isSome) :
    ¬e.tables.listed ∧ e'.tables.listed := by
  cases h
  case other hl _    => exact absurd hc (by simp [hl])
  case listed hl _ _ => exact ⟨hl, TableRegistry.listed_list⟩
  case looked        => exact absurd hc (by simp [lookupEntry_children])

-- How the history explains what is known of the tables.
structure Explains (history : History) (e : SchemaEntry) : Prop where
  looked   : ∀ n found, e.tables.status n = .ofLookup found ↔ history.Looked n found
  listed   : ∀ children, history.Lists children → e.tables.listed ∧ ∀ n,
    (n ∈ children.map TableIdentifier.name → e.tables.status n ≠ .unknown) ∧
    ∀ i, e.tables.status n = .placeholder i → n ∈ children.map TableIdentifier.name
  unlisted : ¬e.tables.listed → ∀ n i, e.tables.status n ≠ .placeholder i

namespace Explains

theorem create : Explains [] (.create schemaName) where
  looked   := by
    intro n found
    constructor
    case mp =>
      intro h
      rw [SchemaEntry.create, TableRegistry.status_empty] at h
      cases found <;> cases h
    case mpr =>
      rintro ⟨_, _, h, _⟩
      cases h
  listed   := by
    rintro _ ⟨_, h, _⟩
    cases h
  unlisted := by
    intro _ n i h
    rw [SchemaEntry.create, TableRegistry.status_empty] at h
    cases h

theorem other (h : Explains history e)
    (hx : ∀ catalog name, event ≠ .perform catalog (.lookupEntry .tableEntry name))
    (hl : answer.children = none) (ht : e'.tables = e.tables) :
    Explains (history ++ [(event, answer)]) e' where
  looked   := by
    intro n found
    rw [ht, h.looked, History.looked_concat_iff]
    exact ⟨.inl, fun h => h.elim id fun ⟨_, c, hc⟩ => absurd hc (hx c n)⟩
  listed   := by
    intro children hc
    rw [History.lists_concat_iff, hl] at hc
    exact ht ▸ h.listed children (hc.resolve_right nofun)
  unlisted := ht ▸ h.unlisted

theorem list {children : List TableIdentifier} (h : Explains history e)
    (hx : ∀ catalog name, event ≠ .perform catalog (.lookupEntry .tableEntry name))
    (hl : ¬e.tables.listed) (hc : answer.children = some children) :
    Explains (history ++ [(event, answer)])
      { e with tables := e.tables.list (children.map TableIdentifier.name) } where
  unlisted := fun h => absurd TableRegistry.listed_list h
  looked   := by
    intro n found
    rw [History.looked_concat_iff, ← h.looked,
      or_iff_left fun ⟨_, catalog, he⟩ => hx catalog n he]
    cases TableRegistry.status_list_cases e.tables (children.map TableIdentifier.name) n
    case inl hsame => exact hsame.left ▸ .rfl
    case inr hnew =>
      have ⟨hu, _, r, hr⟩ := hnew
      rw [hr, hu]
      exact iff_of_false TableStatus.ofLookup_ne_placeholder.symm TableStatus.ofLookup_ne_unknown.symm
  listed   := by
    intro children' hc'
    rw [History.lists_concat_iff, hc, Option.some.injEq] at hc'
    cases hc'
    case inl hold => exact absurd (h.listed children' hold).left hl
    case inr heq =>
      subst heq
      refine ⟨TableRegistry.listed_list, fun n => ?_⟩
      cases TableRegistry.status_list_cases e.tables (children.map TableIdentifier.name) n
      case inl hsame =>
        have ⟨hsame, hmem⟩ := hsame
        rw [hsame]
        exact ⟨fun hn hu => hmem hu hn, fun i hi => absurd hi (h.unlisted hl n i)⟩
      case inr hnew =>
        have ⟨_, hn, r, hr⟩ := hnew
        rw [hr]
        exact ⟨fun _ => nofun, fun _ _ => hn⟩

theorem lookup (h : Explains history e) (catalog : Catalog) (txnStart : Int) (name : String) :
    let op := Op.lookupEntry .tableEntry name
    Explains (history ++ [(.perform catalog op, (e.perform catalog txnStart op).1)])
      (e.perform catalog txnStart op).2 where
  looked   := by
    intro n found
    rw [History.looked_concat_iff, ← h.looked]
    by_cases hn : n = name
    case neg =>
      have hother : ∀ c, Event.perform catalog (.lookupEntry .tableEntry name) ≠
          .perform c (.lookupEntry .tableEntry n) := by
        intro c hc
        cases hc
        exact hn rfl
      rw [or_iff_left fun ⟨_, c, hc⟩ => hother c hc]
      exact (lookupEntry_tables.right n hn).congr_left
    case pos =>
      subst hn
      cases hr : (e.lookupEntry catalog txnStart .tableEntry n).1.result
      case error =>
        have hsame : (e.perform catalog txnStart (.lookupEntry .tableEntry n)).2 = e :=
          lookupEntry_error hr
        have hresult := congrArg (Option.toList <$> ·) hr
        rw [hsame]
        exact (or_iff_left fun ⟨hok, _⟩ => nomatch hresult.symm.trans hok).symm
      case ok found' =>
        have hstatus : (e.perform catalog txnStart (.lookupEntry .tableEntry n)).2.tables.status n =
            .ofLookup found' := lookupEntry_status hr
        have hresult := congrArg (Option.toList <$> ·) hr
        rw [hstatus, TableStatus.ofLookup_inj]
        constructor
        case mp => exact fun heq => .inr ⟨heq ▸ hresult, catalog, rfl⟩
        case mpr =>
          intro hfound
          cases hfound
          case inl hs =>
            rw [lookupEntry_of_settled hs] at hr
            exact (Except.ok.inj hr).symm
          case inr hok =>
            have htolist : found'.toList = found.toList :=
              Except.ok.inj (hresult.symm.trans hok.left)
            simpa using congrArg List.head? htolist
  listed   := by
    intro children hc
    rw [History.lists_concat_iff] at hc
    have ⟨hl, hnames⟩ := h.listed children (hc.resolve_right (lookupEntry_children ▸ nofun))
    refine ⟨lookupEntry_tables.left.trans hl, fun n => ?_⟩
    cases lookupEntry_status_cases e catalog txnStart name n
    case inl hsame => exact hsame ▸ hnames n
    case inr hfound =>
      have ⟨found, hfound⟩ := hfound
      refine ⟨fun _ hu => TableStatus.ofLookup_ne_unknown (hfound.symm.trans hu), ?_⟩
      exact fun i hi => absurd (hfound.symm.trans hi) TableStatus.ofLookup_ne_placeholder
  unlisted := by
    intro hl n i hi
    have hl : ¬e.tables.listed := fun hl' => hl (lookupEntry_tables.left.trans hl')
    cases lookupEntry_status_cases e catalog txnStart name n
    case inl hsame => exact h.unlisted hl n i (hsame.symm.trans hi)
    case inr hfound =>
      have ⟨found, hfound⟩ := hfound
      exact TableStatus.ofLookup_ne_placeholder (hfound.symm.trans hi)

theorem step (h : Explains history e) (hs : Happens e event answer e') :
    Explains (history ++ [(event, answer)]) e' := by
  cases hs
  case other hx hl ht  => exact h.other hx hl ht
  case listed hl hx hc => exact h.list hx hl hc
  case looked          => exact h.lookup _ _ _

theorem run {is : List Event} : let m := machine txnStart schemaName
    Explains (m.history m.init is) (m.run m.init is) :=
  Machine.run_trace_induction (P := fun e h => Explains h e) create
    fun _ _ _ h => h.step machine_happens

end Explains

-- The tables that a scan visits: what has been listed or loaded, other than what was found absent.
def History.visible (history : History) (children : List TableIdentifier) : Set String :=
  { n | (n ∈ children.map TableIdentifier.name ∨ ∃ i, history.Looked n (some i)) ∧
    ¬history.Looked n none }

-- A visited entry is the loaded one if the table has been loaded, and a placeholder otherwise.
def Presents (history : History) (registry : TableRegistry) (i : Nat) : Prop :=
  ∃ entry, registry.entries[i]? = some entry ∧
    (¬entry.needsLoad ↔ ∃ j, history.Looked entry.name (some j)) ∧
    ∀ j, history.Looked entry.name (some j) → j = i

namespace Explains

variable {children : List TableIdentifier}

theorem mem_visible_iff (h : Explains history e) (hl : history.Lists children) {n : String} :
    n ∈ history.visible children ↔ ∃ i, (e.tables.status n).visits i := by
  have ⟨_, hnames⟩ := h.listed children hl
  have ⟨hknown, hplaceholder⟩ := hnames n
  simp only [History.visible, Set.mem_ofPred_eq, ← h.looked]
  cases hs : e.tables.status n
  case unknown =>
    have hn : n ∉ children.map TableIdentifier.name := fun hn => hknown hn hs
    simp [TableStatus.ofLookup, TableStatus.visits, hn]
  case placeholder i =>
    simp [TableStatus.ofLookup, TableStatus.visits, hplaceholder i hs]
  case loaded i      => simp [TableStatus.ofLookup, TableStatus.visits]
  case absent        => simp [TableStatus.ofLookup, TableStatus.visits]

theorem shows (h : Explains history e) (hl : history.Lists children) :
    Shows e.tables.name? e.tables.visited (history.visible children) where
  ordered  := TableRegistry.visited_ordered
  sound    := by
    intro i hi
    have ⟨n, hv⟩ := TableRegistry.mem_visited_iff.mp hi
    exact ⟨n, (h.mem_visible_iff hl).mpr ⟨i, hv⟩, TableRegistry.name?_of_visits hv⟩
  complete := by
    intro n hn
    have ⟨i, hv⟩ := (h.mem_visible_iff hl).mp hn
    exact ⟨i, TableRegistry.mem_visited_iff.mpr ⟨n, hv⟩, TableRegistry.name?_of_visits hv⟩

theorem presents (h : Explains history e) {i : Nat} (hi : i ∈ e.tables.visited) :
    Presents history e.tables i := by
  have ⟨n, hv⟩ := TableRegistry.mem_visited_iff.mp hi
  have hlookup := TableRegistry.visits_status_iff.mp hv
  have ⟨entry, hentry, hname⟩ := e.tables.valid n i hlookup
  have hload : e.tables.needsLoad i = entry.needsLoad := by simp [TableRegistry.needsLoad, hentry]
  have hstatus : e.tables.status n = if entry.needsLoad then .placeholder i else .loaded i := by
    rw [TableRegistry.status, hlookup]
    simp only [hload]
  refine ⟨entry, hentry, ?_⟩
  simp only [hname, ← h.looked, hstatus, TableStatus.ofLookup]
  cases entry.needsLoad <;> simp

end Explains

-- A scan of a namespace that is listed, before it or by it, shows what is visible.
theorem scanTables_result (hl : (e.scanTables catalog).2.tables.listed) :
    (e.scanTables catalog).1.result = .ok (e.scanTables catalog).2.tables.visited := by
  have hlist := @scanTables_outcome e catalog
  generalize e.scanTables catalog = outcome at hlist hl ⊢
  cases hlist
  case cached                     => rfl
  case namespaceMissing hlisted _ => exact absurd hl hlisted
  case failed hlisted _ _         => exact absurd hl hlisted
  case listed                     => rfl

theorem scanTables_exact (h : Explains history e) {children : List TableIdentifier}
    (hx : ∀ catalog name, event ≠ .perform catalog (.lookupEntry .tableEntry name))
    (hl : History.Lists (history ++ [(event, (e.scanTables catalog).1)]) children) :
    ∃ refs, (e.scanTables catalog).1.result = .ok refs ∧
      Shows (e.scanTables catalog).2.tables.name? refs (history.visible children) ∧
      ∀ i ∈ refs, Presents history (e.scanTables catalog).2.tables i := by
  have hnext := h.step <| @scanTables_happens e catalog event hx
  have hlooked {n : String} {found : Option Nat} :
      History.Looked (history ++ [(event, (e.scanTables catalog).1)]) n found ↔
        history.Looked n found := by
    rw [History.looked_concat_iff]
    exact or_iff_left fun ⟨_, c, hc⟩ => hx c n hc
  refine ⟨(e.scanTables catalog).2.tables.visited, ?_, ?_, ?_⟩
  case refine_2 => simpa only [History.visible, hlooked] using hnext.shows hl
  case refine_3 =>
    intro i hi
    simpa only [Presents, hlooked] using hnext.presents hi
  case refine_1 => exact scanTables_result (hnext.listed children hl).left

end SchemaEntry

open SchemaEntry in
-- Once the tables have been listed, scans show what has been listed or loaded and is not absent.
theorem table_listing_is_exact (txnStart : Int) (schemaName : String) (is : List Event)
    (catalog : Catalog) (children : List TableIdentifier) :
    let m := machine txnStart schemaName
    let e := m.run m.init is
    let history : History := m.history m.init is
    let scan := Event.perform catalog (.scan .tableEntry)
    (m.outs m.init is).countP (·.children.isSome) ≤ 1 ∧
    (¬e.namespaceMissing → History.Lists (history ++ [(scan, m.out e scan)]) children →
      ∃ refs, (m.out e scan).result = .ok refs ∧
        Shows (m.next e scan).tables.name? refs (history.visible children) ∧
        ∀ i ∈ refs, Presents history (m.next e scan).tables i) := by
  intro m e history scan
  constructor
  case left =>
    apply Machine.countP_outs_le_one (P := fun e : SchemaEntry => e.tables.listed)
    case hp => exact fun _ _ hc => (machine_happens.lists_once hc).right
    case hn =>
      intro _ _ hl
      exact ⟨machine_evolves.listed hl, fun hc => (machine_happens.lists_once hc).left hl⟩
  case right =>
    intro hm hl
    have hscan : e.perform catalog txnStart (.scan .tableEntry) = e.scanTables catalog := by
      rw [perform, SchemaEntry.scan, if_neg (by simp), if_neg hm]
    have hout : m.out e scan = (e.scanTables catalog).1 := congrArg Prod.fst hscan
    have hnext : m.next e scan = (e.scanTables catalog).2 := congrArg Prod.snd hscan
    rw [hout] at hl ⊢
    rw [hnext]
    have hx (catalog' : Catalog) (name : String) : Event.perform catalog (.scan .tableEntry) ≠
        .perform catalog' (.lookupEntry .tableEntry name) := by simp
    exact scanTables_exact Explains.run hx hl

open SchemaEntry in
-- A listed table is still shown after it has been loaded, and another one is not once it is absent.
theorem table_listing_is_exact_shop :
    let attic : TableIdentifier := { ns := getNamespace "shop", name := "attic" }
    let orders : TableIdentifier := { ns := getNamespace "shop", name := "orders" }
    let shop : Catalog := { Shop.catalog ["shop"] with listTables := fun _ => .ok [orders, attic] }
    let m := machine 0 "shop"
    let is := [.perform shop (.scan .tableEntry), .perform shop (.lookupEntry .tableEntry "orders"),
      .perform shop (.lookupEntry .tableEntry "attic")]
    let e := m.run m.init is
    let history : History := m.history m.init is
    let scan := Event.perform shop (.scan .tableEntry)
    ∃ refs, (m.out e scan).result = .ok refs ∧
      Shows (m.next e scan).tables.name? refs (history.visible [orders, attic]) ∧
      ∀ i ∈ refs, Presents history (m.next e scan).tables i := by
  intro attic orders shop m is e history scan
  have h := table_listing_is_exact 0 "shop" is shop [orders, attic]
  exact h.right (by decide) ⟨_, .head _, rfl⟩

end ProtoIceberg
