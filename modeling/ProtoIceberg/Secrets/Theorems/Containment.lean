import ProtoIceberg.Catalog.Theorems.Attach
import ProtoIceberg.Catalog.Transaction
import ProtoIceberg.Secrets.Theorems.Selection

namespace ProtoIceberg

-- Whether a name is one that the extension gives to the secrets for vended credentials.
def ScopedName (name : String) : Prop :=
  ∃ catalogName transactionId index,
    secretKey name = secretKey (scopedSecretName catalogName transactionId index)

theorem ScopedName.of_key {name name' : String} (h : ScopedName name)
    (hkey : secretKey name' = secretKey name) : ScopedName name' := by
  obtain ⟨catalogName, transactionId, index, h⟩ := h
  exact ⟨catalogName, transactionId, index, hkey.trans h⟩

-- A secret that the extension creates for a table.
structure Table.Vends (table : Table) (secret : CreateSecretInput) : Prop where
  built : buildScopedS3Secret table = .ok { secret with name := "" }
  named : ScopedName secret.name

theorem TableEntry.CreatesSecret.vends {entry : TableEntry} {state : ScopedSecrets}
    {catalogName : String} {transactionId : Nat} {secret : CreateSecretInput}
    (h : entry.CreatesSecret state catalogName transactionId secret) :
    ∃ info ∈ entry.scanInfo, info.table.Vends secret := by
  obtain ⟨info, hinfo, hbuilt⟩ := h.built
  refine ⟨info, hinfo, { built := hbuilt, named := ?_ }⟩
  rw [h.name]
  exact ⟨catalogName, transactionId, state.names.length, rfl⟩

section

variable {secrets : SecretManager} {p : CreateSecretInput → Bool} {secret : CreateSecretInput}

-- Secrets of other names stay as they are.
theorem SecretManager.filter_createSecret (hp : ¬p secret)
    (h : ∀ s ∈ secrets.filter p, secretKey s.name ≠ secretKey secret.name) :
    (secrets.createSecret secret).filter p = secrets.filter p := by
  rw [createSecret, List.filter_cons_of_neg hp]
  exact List.filter_filter_of_forall fun s hs => decide_eq_true (h s hs)

theorem SecretManager.filter_dropSecretByNames {names : List String}
    (h : ∀ s ∈ secrets.filter p, ∀ name ∈ names, secretKey s.name ≠ secretKey name) :
    (names.foldl dropSecretByName secrets).filter p = secrets.filter p := by
  induction names generalizing secrets
  case nil => rfl
  case cons name names ih =>
    have hdrop : (secrets.dropSecretByName name).filter p = secrets.filter p :=
      List.filter_filter_of_forall fun s hs => decide_eq_true (h s hs name List.mem_cons_self)
    rw [List.foldl_cons, ih, hdrop]
    intro s hs name' hname'
    exact h s (hdrop ▸ hs) name' (List.mem_cons_of_mem _ hname')

theorem ScopedSecrets.filter_dropAll {state : ScopedSecrets} {outcome : DropOutcome}
    (h : ∀ s ∈ secrets.filter p, ∀ name ∈ state.names, secretKey s.name ≠ secretKey name) :
    (state.dropAll secrets outcome).2.filter p = secrets.filter p := by
  rw [dropAll.eq_def]
  split
  case isTrue  => rfl
  case isFalse =>
    cases outcome
    case succeeded      => exact SecretManager.filter_dropSecretByNames h
    case failed dropped =>
      refine SecretManager.filter_dropSecretByNames fun s hs name hname => ?_
      exact h s hs name (List.mem_filter.mp hname).left

end

structure Connection.Keeps (P : Table → Prop) (connection : Connection) : Prop where
  names  : ∀ name ∈ connection.state.names, ScopedName name
  tables : ∀ t ∈ connection.tables, ∀ info ∈ t.2.scanInfo, P info.table

theorem Connection.Keeps.idle {P : Table → Prop} : Connection.Keeps P .idle where
  names  := nofun
  tables := fun _ h => absurd h List.not_mem_nil

namespace DatabaseInstance

-- The tables that an event loads satisfy `P`.
def Event.Loads (P : Table → Prop) : Event → Prop
  | .load _ _ entry => ∀ info ∈ entry.val.scanInfo, P info.table
  | _               => True

-- What holds of the secrets if all tables satisfy `P`: those that no table's secret is like are the
-- ones that have been there all along.
structure Contained (P : Table → Prop) (initial : SecretManager) (db : DatabaseInstance) : Prop where
  connections : ∀ c, (db.connections c).Keeps P
  secrets     : ∀ p : CreateSecretInput → Bool,
    (∀ table secret, P table → table.Vends secret → ¬p secret) →
      db.secrets.filter p = initial.filter p

namespace Contained

variable {P : Table → Prop} {initial : SecretManager} {db : DatabaseInstance} {c : Nat}
  {connection : Connection}

theorem start : Contained P initial (start initial) where
  connections _ := .idle
  secrets _ _   := rfl

theorem setConnection (h : Contained P initial db) (hc : connection.Keeps P) :
    Contained P initial (db.setConnection c connection) where
  connections c' := by
    rw [connections_setConnection]
    split
    case isTrue  => exact hc
    case isFalse => exact h.connections c'
  secrets := h.secrets

theorem begin (h : Contained P initial db) {t : Nat} : Contained P initial (db.begin c t) := by
  rw [DatabaseInstance.begin]
  split
  case h_1 => exact h.setConnection { h.connections c with }
  case h_2 => exact h

theorem load (h : Contained P initial db) {catalogName : String} {entry : NewTableEntry}
    (he : ∀ info ∈ entry.val.scanInfo, P info.table) :
    Contained P initial (db.load c catalogName entry) := by
  rw [DatabaseInstance.load]
  split
  case h_1 => exact h
  case h_2 =>
    refine h.setConnection { h.connections c with tables := ?_ }
    exact List.forall_mem_concat (h.connections c).tables he

section

variable (hinitial : ∀ secret ∈ initial, ¬ScopedName secret.name)

include hinitial

-- What has been there has none of the extension's names.
theorem key_ne (h : Contained P initial db) {p : CreateSecretInput → Bool}
    (hp : ∀ table secret, P table → table.Vends secret → ¬p secret) {name : String}
    (hname : ScopedName name) : ∀ s ∈ db.secrets.filter p, secretKey s.name ≠ secretKey name := by
  intro s hs hkey
  rw [h.secrets p hp] at hs
  exact hinitial s (List.mem_filter.mp hs).left (hname.of_key hkey)

theorem scan (h : Contained P initial db) {table : Nat} {outcomes : ScanOutcomes} :
    Contained P initial (db.scan c table outcomes).2 := by
  have hstep : ScanStep db c table outcomes (db.scan c table outcomes) := scan_step
  generalize db.scan c table outcomes = scan at hstep ⊢
  cases hstep
  case unchanged => exact h
  case created transaction catalogName entry secret ht he hc =>
    obtain ⟨info, hinfo, hvends⟩ := hc.vends
    have htable := (h.connections c).tables _ (List.mem_of_getElem? he)
    have hkeeps : Connection.Keeps P { db.connections c with
        tables := (db.connections c).tables.set table (catalogName, { entry with hasSecret := true })
        state  := { names := (db.connections c).state.names ++ [secret.name] }
      } := by
      refine { names := List.forall_mem_concat (h.connections c).names hvends.named, tables := ?_ }
      intro t ht info hinfo
      cases List.mem_or_eq_of_mem_set ht
      case inl ht => exact (h.connections c).tables t ht info hinfo
      case inr ht =>
        subst ht
        exact htable info hinfo
    constructor
    case connections => exact (h.setConnection (c := c) hkeeps).connections
    case secrets =>
      intro p hp
      rw [← h.secrets p hp]
      exact SecretManager.filter_createSecret (hp _ _ (htable info hinfo) hvends)
        (h.key_ne hinitial hp hvends.named)

theorem finish (h : Contained P initial db) {outcome : DropOutcome} :
    Contained P initial (db.finish c ScopedSecrets.dropAll outcome) := by
  cases ht : (db.connections c).transaction
  case none =>
    rw [DatabaseInstance.finish, ht]
    exact h
  case some t =>
    rw [finish_eq ht]
    constructor
    case connections => exact (h.setConnection (c := c) .idle).connections
    case secrets =>
      intro p hp
      rw [← h.secrets p hp]
      exact ScopedSecrets.filter_dropAll fun s hs name hname =>
        h.key_ne hinitial hp ((h.connections c).names name hname) s hs

theorem run {is : List Event} (his : ∀ event ∈ is, event.Loads P) :
    let m := machine initial
    Contained P initial (m.run m.init is) := by
  intro m
  refine Machine.run_induction (P := Contained P initial) ?_ .start his
  intro db event hevent h
  cases event
  case begin    => exact h.begin
  case load     => exact h.load hevent
  case scan     => exact h.scan hinitial
  case commit   => exact h.finish hinitial
  case rollback => exact h.finish hinitial

end

end Contained

-- A transaction's end drops its secrets.
def Event.Drops : Event → Prop
  | .commit _ outcome | .rollback _ outcome => outcome = .succeeded
  | _                                       => True

-- If all drops succeed, a secret is there as long as the transaction that has created it.
structure Owned (initial : SecretManager) (db : DatabaseInstance) : Prop where
  idle  : ∀ c, (db.connections c).transaction = none → (db.connections c).state.names = []
  owned : ∀ secret ∈ db.secrets,
    secret ∈ initial ∨ ∃ c, secret.name ∈ (db.connections c).state.names

namespace Owned

variable {initial : SecretManager} {db : DatabaseInstance} {c : Nat} {connection : Connection}

theorem start : Owned initial (start initial) where
  idle _ _    := rfl
  owned _ h   := .inl h

theorem setConnection (h : Owned initial db)
    (hn : (db.connections c).state.names ⊆ connection.state.names)
    (hi : connection.transaction ≠ none) : Owned initial (db.setConnection c connection) where
  idle c' := by
    rw [connections_setConnection]
    split
    case isTrue  => exact fun ht => absurd ht hi
    case isFalse => exact h.idle c'
  owned secret hs := by
    refine (h.owned secret hs).imp_right ?_
    rintro ⟨c', hc'⟩
    refine ⟨c', ?_⟩
    rw [connections_setConnection]
    split
    case isTrue he => exact hn (he ▸ hc')
    case isFalse   => exact hc'

theorem begin (h : Owned initial db) {t : Nat} : Owned initial (db.begin c t) := by
  rw [DatabaseInstance.begin]
  split
  case h_1 => exact h.setConnection (fun _ => id) (Option.some_ne_none t)
  case h_2 => exact h

theorem load (h : Owned initial db) {catalogName : String} {entry : NewTableEntry} :
    Owned initial (db.load c catalogName entry) := by
  rw [DatabaseInstance.load]
  split
  case h_1    => exact h
  case h_2 ht => exact h.setConnection (fun _ => id) (ht ▸ Option.some_ne_none _)

theorem scan (h : Owned initial db) {table : Nat} {outcomes : ScanOutcomes} :
    Owned initial (db.scan c table outcomes).2 := by
  have hstep : ScanStep db c table outcomes (db.scan c table outcomes) := scan_step
  generalize db.scan c table outcomes = scan at hstep ⊢
  cases hstep
  case unchanged => exact h
  case created transaction catalogName entry secret ht he _ =>
    have hset : Owned initial <| db.setConnection c { db.connections c with
        tables := (db.connections c).tables.set table (catalogName, { entry with hasSecret := true })
        state  := { names := (db.connections c).state.names ++ [secret.name] }
      } :=
      h.setConnection (List.subset_append_left ..) (ht ▸ Option.some_ne_none _)
    constructor
    case idle  => exact hset.idle
    case owned =>
      intro secret' hs
      cases List.mem_cons.mp hs
      case inr hs => exact hset.owned secret' (List.mem_filter.mp hs).left
      case inl hs =>
        subst hs
        exact .inr ⟨c, by simp [recordSecret]⟩

theorem finish (h : Owned initial db) :
    Owned initial (db.finish c ScopedSecrets.dropAll .succeeded) := by
  cases ht : (db.connections c).transaction
  case none =>
    rw [DatabaseInstance.finish, ht]
    exact h
  case some t =>
    rw [finish_eq ht]
    constructor
    case idle =>
      intro c'
      dsimp only
      rw [connections_setConnection]
      split
      case isTrue  => exact fun _ => rfl
      case isFalse => exact h.idle c'
    case owned =>
      intro secret hs
      refine (h.owned secret (ScopedSecrets.mem_of_mem_dropAll hs)).imp_right ?_
      rintro ⟨c', hc'⟩
      refine ⟨c', ?_⟩
      dsimp only
      rw [connections_setConnection, if_neg]
      case hnc =>
        rintro rfl
        exact ScopedSecrets.ne_of_mem_dropAll_succeeded hs hc' rfl
      exact hc'

theorem run {is : List Event} (his : ∀ event ∈ is, event.Drops) :
    let m := machine initial
    Owned initial (m.run m.init is) := by
  intro m
  refine Machine.run_induction (P := Owned initial) ?_ .start his
  intro db event hevent h
  cases event
  case begin              => exact h.begin
  case load               => exact h.load
  case scan               => exact h.scan
  case commit c outcome   =>
    cases hevent
    exact h.finish
  case rollback c outcome =>
    cases hevent
    exact h.finish

end Owned

end DatabaseInstance

open DatabaseInstance

open Classical in
-- The extension does not touch the secrets of others, whatever drops fail. If none fails, nothing is left
-- of its own secrets once all transactions have ended.
theorem other_secrets_stay (initial : SecretManager)
    (hinitial : ∀ secret ∈ initial, ¬ScopedName secret.name) (is : List Event) :
    let m := machine initial
    let db := m.run m.init is
    db.secrets.filter (fun secret => ¬ScopedName secret.name) = initial ∧
    ((∀ event ∈ is, event.Drops) → (∀ c, (db.connections c).transaction = none) →
      db.secrets = initial) := by
  intro m db
  have hkept : db.secrets.filter (fun secret => ¬ScopedName secret.name) = initial := by
    have hcontained : Contained (fun _ => True) initial db :=
      .run hinitial (by intro event _; cases event <;> simp [Event.Loads])
    rw [hcontained.secrets _ fun table secret _ hvends => by simpa using hvends.named]
    exact List.filter_eq_self.mpr fun secret hs => decide_eq_true (hinitial secret hs)
  refine ⟨hkept, fun hdrops hidle => ?_⟩
  have howned : Owned initial db := .run hdrops
  rw [← hkept, eq_comm, List.filter_eq_self]
  intro secret hs
  rcases howned.owned secret hs with hs | ⟨c, hc⟩
  case inl => exact decide_eq_true (hinitial secret hs)
  case inr =>
    rw [howned.idle c (hidle c)] at hc
    exact nomatch hc

theorem ScopedName.head?_eq {name : String} (h : ScopedName name) :
    (secretKey name).toList.head? = some '_' := by
  obtain ⟨catalogName, transactionId, index, h⟩ := h
  rw [h, toList_secretKey, toList_secretKey_eq_map, String.toList_append]
  rfl

namespace Shop

theorem rootSecret_not_scoped : ∀ secret ∈ [rootSecret], ¬ScopedName secret.name := by
  intro secret hs h
  rw [List.mem_singleton.mp hs] at h
  have hhead := h.head?_eq
  rw [toList_secretKey_eq_map] at hhead
  exact absurd hhead (by decide)

end Shop

theorem other_secrets_stay_shop :
    let m := machine [Shop.rootSecret]
    (m.run m.init (Shop.nestedScans ++ [.commit 0 .succeeded])).secrets = [Shop.rootSecret] := by
  refine (other_secrets_stay [Shop.rootSecret] Shop.rootSecret_not_scoped _).right ?drops ?idle
  case drops => simp [Shop.nestedScans, Event.Drops]
  case idle  =>
    intro c
    cases c <;> rfl

-- DuckDB chooses among the secrets of the type that match the path, whatever others there are.
def SecretLookup.Local (lookup : SecretLookup) : Prop :=
  ∀ secrets path type, lookup.lookupSecret secrets path type =
    lookup.lookupSecret (secrets.filter fun secret =>
      secret.type = type ∧ (secret.matchScore path).isSome) path type

theorem SecretLookup.latest_local : latest.Local := by
  intro secrets path type
  simp [latest, List.filter_filter]

theorem DatabaseInstance.Contained.lookupSecret_eq {P : Table → Prop} {initial : SecretManager}
    {db : DatabaseInstance} (h : Contained P initial db) {lookup : SecretLookup} (hl : lookup.Local)
    {path type : String}
    (hp : ∀ table, P table → type = "s3" → ∀ d ∈ table.directories, ¬InDirectory d path) :
    lookup.lookupSecret db.secrets path type = lookup.lookupSecret initial path type := by
  rw [hl db.secrets, hl initial, h.secrets]
  intro table secret htable hvends hmatch
  obtain ⟨htype, hmatch⟩ := of_decide_eq_true hmatch
  obtain ⟨d, hd, hinside⟩ := (isSome_matchScore_iff_inDirectory hvends.built).mp hmatch
  have hs3 : secret.type = "s3" := (buildScopedS3Secret_ok hvends.built).left
  exact hp table htable (htype ▸ hs3) d hd hinside

-- Whatever tables are scanned in whatever transactions, reading a path outside of the tables'
-- directories uses the secret that it would use without them.
theorem other_paths_keep_their_secret (lookup : SecretLookup) (hl : lookup.Local)
    (initial : SecretManager) (hinitial : ∀ secret ∈ initial, ¬ScopedName secret.name)
    (is : List Event) (path type : String)
    (his : ∀ event ∈ is, event.Loads fun table => ∀ d ∈ table.directories, ¬InDirectory d path) :
    let m := machine initial
    let db := m.run m.init is
    lookup.lookupSecret db.secrets path type = lookup.lookupSecret initial path type :=
  (Contained.run hinitial his).lookupSecret_eq hl fun _ h _ => h

theorem Shop.nestedScans_outside {path : String}
    (h : ∀ d ∈ [orders.location, returns.location], ¬startsWith path (scopeWithSlash d)) :
    ∀ event ∈ nestedScans, event.Loads fun table => ∀ d ∈ table.directories, ¬InDirectory d path := by
  have horders : ¬InDirectory orders.location path :=
    (startsWith_scopeWithSlash_iff (by decide)).not.mp (h _ (by simp))
  have hreturns : ¬InDirectory returns.location path :=
    (startsWith_scopeWithSlash_iff (by decide)).not.mp (h _ (by simp))
  have hdirectories : orders.directories = [orders.location] ∧
      returns.directories = [returns.location] := ⟨rfl, rfl⟩
  simp [nestedScans, entry, Event.Loads, hdirectories, horders, hreturns]

theorem other_paths_keep_their_secret_shop :
    let m := machine [Shop.rootSecret]
    let db := m.run m.init Shop.nestedScans
    SecretLookup.latest.lookupSecret db.secrets "s3://archive/1.parquet" "s3" =
      SecretLookup.latest.lookupSecret [Shop.rootSecret] "s3://archive/1.parquet" "s3" :=
  other_paths_keep_their_secret .latest SecretLookup.latest_local [Shop.rootSecret]
    Shop.rootSecret_not_scoped Shop.nestedScans _ _ (Shop.nestedScans_outside (by decide))

-- The secrets as they are accessed when a catalog is attached.
def SecretManager.access (secrets : SecretManager) (lookup : SecretLookup) : SecretAccess :=
  let base (secret : CreateSecretInput) : BaseSecret :=
    { type := secret.type, secretMap := some secret.options }
  {
    getSecretByName name :=
      .ok <| (secrets.find? fun secret => secretKey secret.name = secretKey name).map base
    lookupSecret path type := (lookup.lookupSecret secrets path type).map base
  }

section

variable {casts : Casts} {secrets secrets' : SecretAccess} {make : Properties → Result Catalog}
  {name : String} {info : AttachInfo} {options : AttachOptions}

-- An attach only accesses the secrets for the catalog and the one for all of S3.
theorem attach_congr (hchosen : secrets.chosen name = secrets'.chosen name)
    (hs3 : secrets.lookupSecret s3RootPath Constants.s3SecretType =
      secrets'.lookupSecret s3RootPath Constants.s3SecretType) :
    attach casts secrets make name info options = attach casts secrets' make name info options := by
  have hread : readS3SecretAsIcebergProperties casts secrets =
      readS3SecretAsIcebergProperties casts secrets' := by
    rw [readS3SecretAsIcebergProperties, hs3, readS3SecretAsIcebergProperties]
  have hconfig : attachConfig casts secrets name info options =
      attachConfig casts secrets' name info options := by
    simp only [attachConfig, mergeIcebergSecretParams_eq, hchosen, CatalogParams.toConfig, hread]
  rw [attach, hconfig, attach]

end

namespace DatabaseInstance.Contained

variable {P : Table → Prop} {initial : SecretManager} {db : DatabaseInstance} {name : String}

-- A name of the extension's is that of an S3 secret, which is not one for a catalog.
theorem find?_eq (h : Contained P initial db)
    (hinitial : ∀ secret ∈ initial, ¬ScopedName secret.name) :
    (db.secrets.find? fun secret => secretKey secret.name = secretKey name).filter
        (·.type = Constants.icebergSecretType) =
      (initial.find? fun secret => secretKey secret.name = secretKey name).filter
        (·.type = Constants.icebergSecretType) := by
  by_cases hname : ScopedName name
  case neg =>
    rw [← List.head?_filter, ← List.head?_filter, h.secrets]
    intro table secret _ hvends hkey
    exact hname <| hvends.named.of_key (of_decide_eq_true hkey).symm
  case pos =>
    have hnone : (initial.find? fun secret => secretKey secret.name = secretKey name) = none := by
      rw [List.find?_eq_none]
      intro secret hs hkey
      exact hinitial secret hs (hname.of_key (of_decide_eq_true hkey))
    rw [hnone, Option.filter_none, Option.filter_eq_none_iff]
    intro secret hs htype
    have hkey := List.find?_some hs
    have hs : secret ∈ db.secrets.filter fun secret =>
        secretKey secret.name = secretKey name ∧ secret.type = Constants.icebergSecretType := by
      refine List.mem_filter.mpr ⟨List.mem_of_find?_eq_some hs, ?_⟩
      exact decide_eq_true ⟨of_decide_eq_true hkey, of_decide_eq_true htype⟩
    rw [h.secrets] at hs
    case a =>
      intro table secret _ hvends hp
      have hs3 : secret.type = "s3" := (buildScopedS3Secret_ok hvends.built).left
      exact absurd (hs3.symm.trans (of_decide_eq_true hp).right) (by decide)
    exact hinitial secret (List.mem_filter.mp hs).left (hname.of_key (of_decide_eq_true hkey))

theorem chosen_eq (h : Contained P initial db)
    (hinitial : ∀ secret ∈ initial, ¬ScopedName secret.name) {lookup : SecretLookup}
    (hl : lookup.Local) :
    (db.secrets.access lookup).chosen name = (initial.access lookup).chosen name := by
  have hlookup : lookup.lookupSecret db.secrets "" Constants.icebergSecretType =
      lookup.lookupSecret initial "" Constants.icebergSecretType :=
    h.lookupSecret_eq hl fun _ _ he => absurd he (by decide)
  have hfind := @find?_eq P initial db name h hinitial
  simp only [SecretAccess.chosen, SecretManager.access, Except.map, Option.filter_map,
    Function.comp_def, hfind, hlookup]

end DatabaseInstance.Contained

-- Attaching a catalog does not take up credentials that have been vended for tables, unless a table's
-- files are all over S3.
theorem attach_ignores_scoped_secrets (casts : Casts) (lookup : SecretLookup) (hl : lookup.Local)
    (initial : SecretManager) (hinitial : ∀ secret ∈ initial, ¬ScopedName secret.name)
    (is : List Event)
    (his : ∀ event ∈ is, event.Loads fun table =>
      ∀ d ∈ table.directories, ¬InDirectory d s3RootPath)
    (make : Properties → Result Catalog) (name : String) (info : AttachInfo)
    (options : AttachOptions) :
    let m := machine initial
    let db := m.run m.init is
    attach casts (db.secrets.access lookup) make name info options =
      attach casts (initial.access lookup) make name info options := by
  intro m db
  have h : Contained _ initial db := .run hinitial his
  refine attach_congr (h.chosen_eq hinitial hl) ?_
  exact congrArg (Option.map _) (h.lookupSecret_eq hl fun _ h _ => h)

theorem attach_ignores_scoped_secrets_shop :
    let m := machine [Shop.rootSecret]
    let db := m.run m.init Shop.nestedScans
    let options : AttachOptions := { options := [("endpoint", .varchar "http://localhost/")] }
    let make (_ : Properties) : Result Catalog := .ok (Shop.catalog ["shop"])
    attach .keepType (db.secrets.access .latest) make "lake" { path := "" } options =
      attach .keepType (SecretManager.access [Shop.rootSecret] .latest) make "lake" { path := "" }
        options :=
  attach_ignores_scoped_secrets .keepType .latest SecretLookup.latest_local [Shop.rootSecret]
    Shop.rootSecret_not_scoped Shop.nestedScans (Shop.nestedScans_outside (by decide)) _ "lake" _ _

end ProtoIceberg
