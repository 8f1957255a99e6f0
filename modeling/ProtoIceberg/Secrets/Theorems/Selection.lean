import ProtoIceberg.Secrets.SecretLookup
import ProtoIceberg.Secrets.Theorems.LifeCycle

namespace ProtoIceberg

-- The directories that a table's files are in.
def Table.directories (table : Table) : List String :=
  table.location :: [table.properties.get writeDataLocation].filter (· ≠ "")

-- Whether a path lies inside a directory, which may be given with a trailing slash.
def InDirectory (directory path : String) : Prop :=
  ∃ name, path = directory ++ "/" ++ name ∨
    (∃ parent, directory = parent ++ "/") ∧ path = directory ++ name

theorem getLast?_eq_slash_iff {directory : String} :
    directory.toList.getLast? = some '/' ↔ ∃ parent, directory = parent ++ "/" := by
  rw [List.getLast?_eq_some_iff]
  constructor
  case mp =>
    intro ⟨parent, h⟩
    exact ⟨.ofList parent, String.ext (by simp [h])⟩
  case mpr =>
    intro ⟨parent, h⟩
    exact ⟨parent.toList, by simp [h]⟩

theorem startsWith_scopeWithSlash_iff {directory path : String} (h : directory ≠ "") :
    startsWith path (scopeWithSlash directory) ↔ InDirectory directory path := by
  rw [startsWith_iff, scopeWithSlash, InDirectory]
  split
  case isTrue hslash =>
    have hslash := getLast?_eq_slash_iff.not.mp hslash.right
    simp [hslash]
  case isFalse hslash =>
    have hslash : directory.toList.getLast? = some '/' := by
      by_contra hne
      exact hslash ⟨h, hne⟩
    have hparent := getLast?_eq_slash_iff.mp hslash
    constructor
    case mp  => exact fun ⟨name, hname⟩ => ⟨name, .inr ⟨hparent, hname⟩⟩
    case mpr =>
      intro ⟨name, hname⟩
      cases hname
      case inl hname => exact ⟨"/" ++ name, by rw [hname, String.append_assoc]⟩
      case inr hname => exact ⟨name, hname.right⟩

theorem scopeWithSlash_eq_empty_iff {path : String} : scopeWithSlash path = "" ↔ path = "" := by
  rw [scopeWithSlash]
  split
  case isTrue h  => simp [h.left]
  case isFalse h => rfl

-- A table's secret is for the directories of its files.
theorem buildScopedS3Secret_ok {table : Table} {input : CreateSecretInput}
    (h : buildScopedS3Secret table = .ok input) :
    input.type = "s3" ∧ input.scope = table.directories.map scopeWithSlash ∧
      ∀ directory ∈ table.directories, directory ≠ "" := by
  rw [buildScopedS3Secret] at h
  split at h
  case h_1 => cases h
  case h_2 =>
    dsimp only at h
    split at h
    case isTrue => cases h
    case isFalse hl =>
      cases h
      have hl := scopeWithSlash_eq_empty_iff.not.mp hl
      by_cases hw : table.properties.get writeDataLocation = ""
      all_goals simp [Table.directories, makeBaseS3SecretInput, hw, hl]

section

variable {table : Table} {secret : CreateSecretInput} {path : String}

theorem isSome_matchScore_iff_inDirectory
    (h : buildScopedS3Secret table = .ok { secret with name := "" }) :
    (secret.matchScore path).isSome ↔ ∃ directory ∈ table.directories, InDirectory directory path := by
  have ⟨_, hscope, hne⟩ := buildScopedS3Secret_ok h
  rw [CreateSecretInput.isSome_matchScore_iff, show secret.scope = _ from hscope]
  simp only [List.mem_map, exists_exists_and_eq_and]
  refine exists_congr fun directory => and_congr_right fun hmem => ?_
  exact startsWith_scopeWithSlash_iff (hne directory hmem)

-- How far down a directory is along a path inside it.
def directoryLength (directory : String) : Nat :=
  (scopeWithSlash directory).length

theorem mem_matchScore_iff_directoryLength {n : Nat}
    (h : buildScopedS3Secret table = .ok { secret with name := "" }) :
    n ∈ secret.matchScore path ↔
      (∃ directory ∈ table.directories, InDirectory directory path ∧ directoryLength directory = n) ∧
      ∀ directory ∈ table.directories, InDirectory directory path → directoryLength directory ≤ n := by
  have ⟨_, hscope, hne⟩ := buildScopedS3Secret_ok h
  have hinside (directory) (hmem : directory ∈ table.directories) :
      startsWith path (scopeWithSlash directory) ↔ InDirectory directory path :=
    startsWith_scopeWithSlash_iff (hne directory hmem)
  rw [CreateSecretInput.mem_matchScore_iff, show secret.scope = _ from hscope]
  simp only [List.mem_map, exists_exists_and_eq_and, forall_exists_index, and_imp,
    forall_apply_eq_imp_iff₂]
  refine and_congr ?_ ?_
  · refine exists_congr fun directory => and_congr_right fun hmem => ?_
    rw [hinside directory hmem, directoryLength]
  · refine forall₂_congr fun directory hmem => ?_
    rw [hinside directory hmem, directoryLength]

end

namespace ScopedSecrets

variable {state : ScopedSecrets} {secrets : SecretManager} {outcome : DropOutcome}
  {secret : CreateSecretInput}

theorem mem_of_mem_dropAll (h : secret ∈ (state.dropAll secrets outcome).2) : secret ∈ secrets := by
  rw [dropAll.eq_def] at h
  split at h
  case isTrue => exact h
  case isFalse =>
    cases outcome
    case succeeded      => exact (SecretManager.mem_foldl_dropSecretByName_iff.mp h).left
    case failed dropped => exact (SecretManager.mem_foldl_dropSecretByName_iff.mp h).left

end ScopedSecrets

theorem SecretManager.createSecret_of_ne {secrets : SecretManager} {input : CreateSecretInput}
    (h : ∀ secret ∈ secrets, secretKey secret.name ≠ secretKey input.name) :
    secrets.createSecret input = input :: secrets := by
  rw [createSecret, List.filter_eq_self.mpr fun secret hs => decide_eq_true (h secret hs)]

namespace Connection

-- The connection has scanned the table, which has a secret therefore.
def Scanned (connection : Connection) (i : Nat) (table : Table) : Prop :=
  ∃ catalogName entry info, connection.tables[i]? = some (catalogName, entry) ∧ entry.hasSecret ∧
    entry.scanInfo = some info ∧ info.table = table

-- None of the scanned tables has a longer directory around the path.
def Innermost (connection : Connection) (path : String) (i : Nat) : Prop :=
  ∃ table, connection.Scanned i table ∧ ∃ directory ∈ table.directories, InDirectory directory path ∧
    ∀ j table', connection.Scanned j table' → ∀ directory' ∈ table'.directories,
      InDirectory directory' path → directoryLength directory' ≤ directoryLength directory

variable {connection : Connection} {created : List Creation} {secrets : SecretManager}
  {a : Creation} {i : Nat} {table : Table}

theorem Tidy.built (h : connection.Tidy created secrets) (ha : a ∈ created)
    (ht : a.transaction ∈ connection.transaction) :
    ∃ table, connection.Scanned a.table table ∧
      buildScopedS3Secret table = .ok { a.secret with name := "" } :=
  have ⟨⟨catalogName, entry, info, he, hs, hi, hbuilt⟩, _⟩ := h.owned a ha ht
  ⟨info.table, ⟨catalogName, entry, info, he, hs, hi, rfl⟩, hbuilt⟩

theorem Scanned.unique {table' : Table} (h : connection.Scanned i table)
    (h' : connection.Scanned i table') : table = table' := by
  have ⟨_, _, _, he, _, hi, ht⟩ := h
  have ⟨_, _, _, he', _, hi', ht'⟩ := h'
  cases he.symm.trans he'
  cases hi.symm.trans hi'
  exact ht.symm.trans ht'

theorem Tidy.exists_creation (h : connection.Tidy created secrets) (hs : connection.Scanned i table) :
    ∃ a ∈ created, a.table = i ∧ a.transaction ∈ connection.transaction := by
  have ⟨catalogName, entry, info, he, hs, _⟩ := hs
  cases ht : connection.transaction
  case none =>
    rw [h.idle ht] at he
    exact nomatch List.getElem?_nil.symm.trans he
  case some t =>
    have ⟨a, ha, hat, hi⟩ := h.secret t ht i catalogName entry he hs
    exact ⟨a, ha, hi, congrArg some hat.symm⟩

-- A scanned table has a directory that goes deeper along the path than the secret.
def Outreaches (connection : Connection) (path : String) (secret : CreateSecretInput) : Prop :=
  ∀ n ∈ secret.matchScore path, ∃ i table, connection.Scanned i table ∧
    ∃ d ∈ table.directories, InDirectory d path ∧ n < directoryLength d

-- The connection outreaches all S3 secrets that are not those of its transaction.
def Prevails (connection : Connection) (created : List Creation) (secrets : SecretManager)
    (path : String) : Prop :=
  ∀ secret ∈ secrets, secret.type = "s3" →
    (∃ a ∈ created, a.transaction ∈ connection.transaction ∧ a.secret = secret) ∨
      connection.Outreaches path secret

variable {lookup : SecretLookup} {path d : String} {secret : CreateSecretInput}

theorem Scanned.outreaches {n : Nat} (h : connection.Scanned i table) (hd : d ∈ table.directories)
    (hpath : InDirectory d path) (hn : secret.matchScore path = some n) (hlt : n < directoryLength d) :
    connection.Outreaches path secret := by
  intro n' hn'
  cases hn.symm.trans hn'
  exact ⟨i, table, h, d, hd, hpath, hlt⟩

-- The chosen secret goes as deep along the path as the directories of all scanned tables do.
theorem Tidy.directoryLength_le (h : connection.Tidy created secrets)
    (hlookup : lookup.lookupSecret secrets path "s3" = some secret)
    (hscanned : connection.Scanned i table) (hd : d ∈ table.directories)
    (hpath : InDirectory d path) : ∃ n ∈ secret.matchScore path, directoryLength d ≤ n := by
  obtain ⟨b, hb, hi, ht⟩ := h.exists_creation hscanned
  obtain ⟨_, hscannedb, hbuilt⟩ := h.built hb ht
  cases hscanned.unique (hi ▸ hscannedb)
  have hmatch := isSome_matchScore_iff_inDirectory hbuilt |>.mpr ⟨d, hd, hpath⟩
  obtain ⟨n', hn'⟩ := Option.isSome_iff_exists.mp hmatch
  obtain ⟨n, hn, hle⟩ := lookup.longest hlookup b.secret (h.owned b hb ht).right
    (buildScopedS3Secret_ok hbuilt).left n' hn'
  have hlongest := (mem_matchScore_iff_directoryLength hbuilt |>.mp hn').right d hd hpath
  exact ⟨n, hn, Nat.le_trans hlongest hle⟩

theorem Tidy.innermost (h : connection.Tidy created secrets) (ha : a ∈ created)
    (ht : a.transaction ∈ connection.transaction)
    (hlookup : lookup.lookupSecret secrets path "s3" = some a.secret) :
    connection.Innermost path a.table := by
  obtain ⟨table, hscanned, hbuilt⟩ := h.built ha ht
  obtain ⟨n, hn⟩ := Option.isSome_iff_exists.mp (lookup.matching hlookup).right.right
  obtain ⟨⟨d, hd, hdpath, hdn⟩, _⟩ := mem_matchScore_iff_directoryLength hbuilt |>.mp hn
  refine ⟨table, hscanned, d, hd, hdpath, ?_⟩
  intro j table' hscanned' d' hd' hdpath'
  obtain ⟨k, hk, hle⟩ := h.directoryLength_le hlookup hscanned' hd' hdpath'
  cases hn.symm.trans hk
  exact hdn ▸ hle

-- A secret that does not go as deep as a scanned table's is not chosen.
theorem Tidy.chosen (h : connection.Tidy created secrets)
    (hprevails : connection.Prevails created secrets path)
    (hlookup : lookup.lookupSecret secrets path "s3" = some secret) :
    ∃ a ∈ created, a.transaction ∈ connection.transaction ∧ a.secret = secret := by
  obtain ⟨hmem, htype, hmatch⟩ := lookup.matching hlookup
  refine (hprevails secret hmem htype).resolve_right ?_
  intro houtreaches
  obtain ⟨n, hn⟩ := Option.isSome_iff_exists.mp hmatch
  obtain ⟨i, table, hscanned, d, hd, hpath, hlt⟩ := houtreaches n hn
  obtain ⟨k, hk, hle⟩ := h.directoryLength_le hlookup hscanned hd hpath
  cases hn.symm.trans hk
  exact absurd hlt (Nat.not_lt_of_le hle)

end Connection

namespace DatabaseInstance

variable {db : DatabaseInstance} {secret : CreateSecretInput} {is : List Event}

-- Secrets only come to exist by scans.
theorem secrets_step {i : Event} (h : secret ∈ (db.step i).2.secrets) :
    secret ∈ db.secrets ∨ ∃ a ∈ (db.step i).1, a.secret = secret := by
  have finish {c : Nat} {outcome : DropOutcome}
      (h : secret ∈ (db.finish c ScopedSecrets.dropAll outcome).secrets) : secret ∈ db.secrets := by
    rw [DatabaseInstance.finish.eq_def] at h
    split at h
    case h_1 => exact h
    case h_2 => exact ScopedSecrets.mem_of_mem_dropAll h
  cases i
  case commit   => exact .inl (finish h)
  case rollback => exact .inl (finish h)
  case begin c t =>
    refine .inl ?_
    rw [step, begin.eq_def] at h
    split at h <;> exact h
  case load c catalogName entry =>
    refine .inl ?_
    rw [step, load.eq_def] at h
    split at h <;> exact h
  case scan c table outcomes =>
    have hstep : ScanStep db c table outcomes (db.scan c table outcomes) := scan_step
    rw [step] at h ⊢
    generalize db.scan c table outcomes = scan at hstep h ⊢
    cases hstep
    case unchanged => exact .inl h
    case created =>
      cases List.mem_cons.mp h
      case inl h => exact .inr ⟨_, rfl, h.symm⟩
      case inr h => exact .inl (List.mem_filter.mp h).left

theorem secrets_run {initial : SecretManager} : let m := machine initial
    secret ∈ (m.run m.init is).secrets →
      secret ∈ initial ∨ ∃ a ∈ (m.outs m.init is).filterMap id, a.secret = secret := by
  intro m
  apply Machine.run_outs_induction (P := fun (db : DatabaseInstance) (os : List (Option Creation)) =>
    secret ∈ db.secrets → secret ∈ initial ∨ ∃ a ∈ os.filterMap id, a.secret = secret)
  case hs => exact .inl
  case hstep =>
    intro db os i ih h
    rw [List.filterMap_concat]
    cases secrets_step h
    case inl h =>
      refine (ih h).imp_right ?_
      intro ⟨a, ha, hsecret⟩
      exact ⟨a, List.mem_append_left _ ha, hsecret⟩
    case inr h =>
      obtain ⟨a, ha, hsecret⟩ := h
      exact .inr ⟨a, List.mem_append_right _ (Option.mem_toList.mpr ha), hsecret⟩

end DatabaseInstance

open DatabaseInstance

-- A table's secret matches the paths inside the table's directories. For such a path, the secret that
-- is chosen is that of a table with an innermost directory, unless there are secrets from elsewhere
-- whose scopes are as long.
theorem path_reads_with_innermost_secret (lookup : SecretLookup) (initial : SecretManager)
    (is : List Event) (hids : (is.filterMap Event.begun).Nodup) (c : Nat) :
    let m := machine initial
    let db := m.run m.init is
    let created := (m.outs m.init is).filterMap id
    let connection := db.connections c
    ∀ i table, connection.Scanned i table →
      ∃ a ∈ created, a.table = i ∧ a.transaction ∈ connection.transaction ∧ ∀ path,
      ((a.secret.matchScore path).isSome ↔ ∃ d ∈ table.directories, InDirectory d path) ∧
      (connection.Prevails created db.secrets path →
        (∃ d ∈ table.directories, InDirectory d path) →
        ∃ b ∈ created, b.transaction ∈ connection.transaction ∧
          lookup.lookupSecret db.secrets path "s3" = some b.secret ∧
          connection.Innermost path b.table ∧
          ((∀ j, connection.Innermost path j → j = i) → b = a)) := by
  intro m db created connection i table hscanned
  have h : Tidy _ created db := Tidy.run hids
  have hc := h.connections c
  obtain ⟨a, ha, hai, hat⟩ := hc.exists_creation hscanned
  obtain ⟨table', hscanned', hbuilt⟩ := hc.built ha hat
  cases hscanned.unique (hai ▸ hscanned')
  refine ⟨a, ha, hai, hat, fun path => ⟨isSome_matchScore_iff_inDirectory hbuilt, ?_⟩⟩
  intro hprevails hinside
  have hmatch := isSome_matchScore_iff_inDirectory hbuilt |>.mpr hinside
  have htype : a.secret.type = "s3" := (buildScopedS3Secret_ok hbuilt).left
  have hfound := lookup.found (hc.owned a ha hat).right htype hmatch
  obtain ⟨secret, hlookup⟩ := Option.isSome_iff_exists.mp hfound
  obtain ⟨b, hb, hbt, hsecret⟩ := hc.chosen hprevails hlookup
  subst hsecret
  have hinner := hc.innermost hb hbt hlookup
  refine ⟨b, hb, hbt, hlookup, hinner, fun honly => ?_⟩
  by_contra hne
  have : Std.Symm fun a b : Creation => (a.transaction, a.table) ≠ (b.transaction, b.table) :=
    ⟨fun _ _ => Ne.symm⟩
  refine h.unique.once.forall hb ha hne ?_
  have ht : b.transaction = a.transaction := Option.some.inj <| hbt.symm.trans hat
  rw [ht, honly b.table hinner, hai]

namespace Shop

-- A table whose location is inside that of `orders`.
def returns : Table :=
  { orders with name := getTableIdentifier "shop" "returns", location := "s3://shop/orders/returns/" }

def entry (table : Table) : NewTableEntry where
  property := nofun
  val      := {
    name      := table.name.name
    columns   := []
    scanInfo  := some { table, mode := .currentRead, schema := { fields := [], nodup := List.nodup_nil } }
    hasSecret := false
  }

def nestedScans : List Event := [
  .begin 0 7, .load 0 "shop" (entry orders), .load 0 "shop" (entry returns), .scan 0 0 outcomes,
  .scan 0 1 outcomes
]

-- The drops at the end of the first transaction fail.
def leakingScans : List Event :=
  [.begin 0 6, .load 0 "shop" (entry orders), .scan 0 0 outcomes, .commit 0 (.failed fun _ => false)]

def nestedFile : String := "s3://shop/orders/returns/1.parquet"

-- A secret for all of S3.
def rootSecret : CreateSecretInput :=
  { makeBaseS3SecretInput with name := "root", scope := ["s3://"] }

end Shop

-- A secret for all of S3 and one that an earlier transaction has leaked are there, too.
theorem path_reads_with_innermost_secret_returns :
    let m := machine [Shop.rootSecret]
    let db := m.run m.init (Shop.leakingScans ++ Shop.nestedScans)
    let created := (m.outs m.init (Shop.leakingScans ++ Shop.nestedScans)).filterMap id
    ∃ a ∈ created, a.table = 1 ∧ a.transaction ∈ (db.connections 0).transaction ∧
      (a.secret.matchScore Shop.nestedFile).isSome ∧
      ∃ b ∈ created, b.transaction ∈ (db.connections 0).transaction ∧
        SecretLookup.latest.lookupSecret db.secrets Shop.nestedFile "s3" = some b.secret ∧
        (db.connections 0).Innermost Shop.nestedFile b.table ∧
        ((∀ j, (db.connections 0).Innermost Shop.nestedFile j → j = 1) → b = a) := by
  have hscanned : (((machine [Shop.rootSecret]).run (start [Shop.rootSecret])
      (Shop.leakingScans ++ Shop.nestedScans)).connections 0).Scanned 1 Shop.returns :=
    ⟨"shop", _, _, rfl, rfl, rfl, rfl⟩
  have hinside : InDirectory Shop.returns.location Shop.nestedFile :=
    ⟨"1.parquet", .inr ⟨⟨"s3://shop/orders/returns", rfl⟩, rfl⟩⟩
  have hcreated : ∀ b ∈ ((machine [Shop.rootSecret]).outs (start [Shop.rootSecret])
      (Shop.leakingScans ++ Shop.nestedScans)).filterMap id,
      b.transaction = 7 ∨ b.secret.matchScore Shop.nestedFile = some 17 := by
    decide +kernel
  obtain ⟨a, ha, hai, hat, hpath⟩ := path_reads_with_innermost_secret .latest [Shop.rootSecret]
    (Shop.leakingScans ++ Shop.nestedScans) (by decide) 0 1 Shop.returns hscanned
  obtain ⟨hmatch, hchosen⟩ := hpath Shop.nestedFile
  refine ⟨a, ha, hai, hat, hmatch.mpr ⟨_, .head _, hinside⟩, hchosen ?_ ⟨_, .head _, hinside⟩⟩
  intro secret hmem _
  rcases secrets_run hmem with hroot | ⟨b, hb, hsecret⟩
  case inl =>
    cases List.mem_singleton.mp hroot
    exact .inr <| hscanned.outreaches (.head _) hinside (n := 5) (by decide) (by decide)
  case inr =>
    subst hsecret
    rcases hcreated b hb with ht | hn
    case inl => exact .inl ⟨b, hb, congrArg some ht.symm, rfl⟩
    case inr => exact .inr <| hscanned.outreaches (.head _) hinside hn (by decide)

-- A file in a table's location may be read with the credentials of another table.
theorem nested_file_reads_with_other_secret :
    let m := machine []
    let db := m.run m.init Shop.nestedScans
    (db.connections 0).Scanned 0 Shop.orders ∧ Shop.orders.location ∈ Shop.orders.directories ∧
      InDirectory Shop.orders.location Shop.nestedFile ∧
    ((m.outs m.init Shop.nestedScans).filterMap id).map (fun a => (a.table, a.secret.name)) =
      [(0, "__proto_ic_shop_7_0"), (1, "__proto_ic_shop_7_1")] ∧
    (SecretLookup.latest.lookupSecret db.secrets Shop.nestedFile "s3").map CreateSecretInput.name =
      some "__proto_ic_shop_7_1" := by
  have hkey :
      secretKey (scopedSecretName "shop" 7 0) ≠ secretKey (scopedSecretName "shop" 7 1) := by
    intro h
    have ⟨_, h⟩ := secretKey_scopedSecretName h
    exact nomatch h
  have hsecrets : ((machine []).run (start []) Shop.nestedScans).secrets = [_, _] :=
    SecretManager.createSecret_of_ne <| List.forall_mem_singleton.mpr hkey
  refine ⟨⟨"shop", _, _, rfl, rfl, rfl, rfl⟩, .head _, ⟨"returns/1.parquet", .inl rfl⟩, rfl, ?_⟩
  exact congrArg (fun secrets => (SecretLookup.latest.lookupSecret secrets _ _).map _) hsecrets

end ProtoIceberg
