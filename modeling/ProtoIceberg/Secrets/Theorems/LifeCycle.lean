import Mathlib.Data.List.Pairwise
import ProtoIceberg.Catalog.Transaction
import ProtoIceberg.Extensions.List
import ProtoIceberg.Secrets.DatabaseInstance

namespace ProtoIceberg

theorem toLower_of_isDigit {c : Char} (h : c.isDigit) : c.toLower = c := by
  refine dif_neg ?_
  rintro ⟨hA, _⟩
  rw [Char.isDigit_iff_toNat] at h
  have : 'A'.toNat ≤ c.toNat := hA
  have : '9'.toNat < 'A'.toNat := by decide
  omega

theorem map_toLower_toDigits {n : Nat} :
    (Nat.toDigits 10 n).map Char.toLower = Nat.toDigits 10 n := by
  have hdigit : ∀ c ∈ Nat.toDigits 10 n, c.toLower = id c := by
    intro c hc
    exact toLower_of_isDigit <| Nat.isDigit_of_mem_toDigits (by decide) (by decide) hc
  rw [List.map_congr_left hdigit, List.map_id]

theorem toDigits_inj {n n' : Nat} (h : Nat.toDigits 10 n = Nat.toDigits 10 n') : n = n' := by
  rw [← Nat.ofDigitChars_ten_toDigits (n := n), h, Nat.ofDigitChars_ten_toDigits]

theorem toList_secretKey_eq_map (s : String) :
    (secretKey s).toList = s.toList.map Char.toLower :=
  String.toList_map

theorem toList_secretKey_join {s t u : String} :
    (secretKey (s ++ "_" ++ t ++ "_" ++ u)).toList =
      (secretKey s).toList ++ '_' :: ((secretKey t).toList ++ '_' :: (secretKey u).toList) := by
  simp [toList_secretKey_eq_map]

theorem toList_secretKey_toString {n : Nat} :
    (secretKey (toString n)).toList = Nat.toDigits 10 n := by
  rw [toList_secretKey_eq_map, ← map_toLower_toDigits]
  exact congrArg (List.map Char.toLower) Nat.toList_repr

theorem toList_secretKey {catalogName : String} {transactionId index : Nat} :
    (secretKey (scopedSecretName catalogName transactionId index)).toList =
      (secretKey ("__proto_ic_" ++ catalogName)).toList ++ '_' ::
        (Nat.toDigits 10 transactionId ++ '_' :: Nat.toDigits 10 index) := by
  rw [← toList_secretKey_toString, ← toList_secretKey_toString]
  exact toList_secretKey_join

-- A secret's name tells its transaction and index, whatever the catalog is called.
theorem secretKey_scopedSecretName {catalogName catalogName' : String}
    {transactionId transactionId' index index' : Nat}
    (h : secretKey (scopedSecretName catalogName transactionId index) =
      secretKey (scopedSecretName catalogName' transactionId' index')) :
    transactionId = transactionId' ∧ index = index' := by
  have hname := congrArg String.toList h
  simp only [toList_secretKey, ← List.cons_append, ← List.append_assoc] at hname
  have ⟨hname, hindex⟩ := List.append_cons_inj_of_not_mem Nat.underscore_not_in_toDigits
    Nat.underscore_not_in_toDigits hname
  have ⟨_, htransaction⟩ := List.append_cons_inj_of_not_mem Nat.underscore_not_in_toDigits
    Nat.underscore_not_in_toDigits hname
  exact ⟨toDigits_inj htransaction, toDigits_inj hindex⟩

theorem buildScopedS3Secret_name {table : Table} {input : CreateSecretInput}
    (h : buildScopedS3Secret table = .ok input) : input.name = "" := by
  rw [buildScopedS3Secret] at h
  split at h
  case h_1 => exact nomatch h
  case h_2 =>
    dsimp only at h
    split at h
    case isTrue => exact nomatch h
    case isFalse =>
      cases h
      rfl

namespace SecretManager

variable {secrets : SecretManager} {secret input : CreateSecretInput}

theorem mem_foldl_dropSecretByName_iff {names : List String} :
    secret ∈ names.foldl dropSecretByName secrets ↔
      secret ∈ secrets ∧ ∀ name ∈ names, secretKey secret.name ≠ secretKey name := by
  induction names generalizing secrets
  case nil => simp
  case cons name names ih =>
    rw [List.foldl_cons, ih, List.forall_mem_cons, ← and_assoc]
    simp [dropSecretByName]

theorem mem_createSecret_self : input ∈ secrets.createSecret input :=
  List.mem_cons_self ..

theorem mem_createSecret_of_ne (h : secret ∈ secrets)
    (hne : secretKey secret.name ≠ secretKey input.name) : secret ∈ secrets.createSecret input := by
  refine List.mem_cons_of_mem _ <| List.mem_filter.mpr ⟨h, ?_⟩
  simpa using hne

end SecretManager

namespace ScopedSecrets

variable {state : ScopedSecrets} {secrets : SecretManager} {outcome : DropOutcome}
  {secret : CreateSecretInput}

theorem state_dropAll : (state.dropAll secrets outcome).1 = .empty := by
  rw [dropAll.eq_def]
  cases state.names.isEmpty <;> cases outcome <;> rfl

-- Only the connection's own secrets are dropped.
theorem mem_dropAll_of_ne (h : secret ∈ secrets)
    (hne : ∀ name ∈ state.names, secretKey secret.name ≠ secretKey name) :
    secret ∈ (state.dropAll secrets outcome).2 := by
  rw [dropAll.eq_def]
  split
  case isTrue => exact h
  case isFalse =>
    cases outcome
    case succeeded => exact SecretManager.mem_foldl_dropSecretByName_iff.mpr ⟨h, hne⟩
    case failed dropped =>
      refine SecretManager.mem_foldl_dropSecretByName_iff.mpr ⟨h, fun name hname => ?_⟩
      exact hne name (List.mem_filter.mp hname).left

theorem ne_of_mem_dropAll_succeeded (h : secret ∈ (state.dropAll secrets .succeeded).2)
    {name : String} (hname : name ∈ state.names) : secretKey secret.name ≠ secretKey name := by
  rw [dropAll] at h
  split at h
  case isTrue he  => exact nomatch List.isEmpty_iff.mp he ▸ hname
  case isFalse    => exact (SecretManager.mem_foldl_dropSecretByName_iff.mp h).right name hname

variable {catalogName : String} {transactionId : Nat} {table : Table}
  {created : Except Exception Bool} {state' : ScopedSecrets}

theorem create_ok (h : state.create catalogName transactionId table created = .ok (secret, state')) :
    buildScopedS3Secret table = .ok { secret with name := "" } ∧
      secret.name = scopedSecretName catalogName transactionId state.names.length ∧
      state' = { names := state.names ++ [secret.name] } ∧ created = .ok true := by
  have ⟨input, hinput, h⟩ := Except.bind_eq_ok_iff.mp h
  have ⟨isCreated, hcreated, h⟩ := Except.bind_eq_ok_iff.mp h
  cases isCreated
  case false => exact nomatch h
  case true =>
    have ⟨hsecret, hstate⟩ := Prod.mk.inj <| Except.ok.inj h
    subst hsecret
    refine ⟨?_, rfl, hstate.symm, hcreated⟩
    rw [hinput, ← buildScopedS3Secret_name hinput]

end ScopedSecrets

-- A scan that creates the secret of a table entry.
structure TableEntry.CreatesSecret (entry : TableEntry) (state : ScopedSecrets)
    (catalogName : String) (transactionId : Nat) (secret : CreateSecretInput) : Prop where
  unscanned : ¬entry.hasSecret
  built     : ∃ info, entry.scanInfo = some info ∧
    buildScopedS3Secret info.table = .ok { secret with name := "" }
  name      : secret.name = scopedSecretName catalogName transactionId state.names.length

-- What a scan can do. A scan that fails to create a secret changes nothing.
inductive TableEntry.ScanStep (entry : TableEntry) (state : ScopedSecrets) (catalogName : String)
    (transactionId : Nat) (outcomes : ScanOutcomes) (scan : ScanResult) : Prop
  | unchanged (h : scan.created = none) (he : scan.entry = entry) (hs : scan.state = state)
      (hr : scan.result.isOk → entry.hasSecret)
  | created {secret : CreateSecretInput} (h : scan.created = some secret)
      (he : scan.entry = { entry with hasSecret := true })
      (hs : scan.state = { names := state.names ++ [secret.name] })
      (hc : entry.CreatesSecret state catalogName transactionId secret)
      (ho : outcomes.createSecret = .ok true)

theorem TableEntry.getScanFunction_step {entry : TableEntry} {state : ScopedSecrets}
    {catalogName : String} {transactionId : Nat} {outcomes : ScanOutcomes} :
    entry.ScanStep state catalogName transactionId outcomes
      (entry.getScanFunction state catalogName transactionId outcomes) := by
  rw [getScanFunction]
  split
  case h_1 => exact .unchanged rfl rfl rfl nofun
  case h_2 info hinfo =>
    split
    case h_1 => exact .unchanged rfl rfl rfl nofun
    case h_2 =>
      split
      case isTrue hsecret => exact .unchanged rfl rfl rfl fun _ => hsecret
      case isFalse hsecret =>
        split
        case h_1 => exact .unchanged rfl rfl rfl nofun
        case h_2 hcreate =>
          have ⟨hbuilt, hname, hstate, hcreated⟩ := ScopedSecrets.create_ok hcreate
          have hc : entry.CreatesSecret state catalogName transactionId _ := {
            unscanned := hsecret
            built     := ⟨info, hinfo, hbuilt⟩
            name      := hname
          }
          exact .created rfl rfl hstate hc hcreated

namespace DatabaseInstance

variable {db : DatabaseInstance} {c c' table transaction : Nat} {outcomes : ScanOutcomes}
  {connection : Connection} {catalogName : String} {entry : TableEntry} {secret : CreateSecretInput}

@[simp]
theorem connections_setConnection : (db.setConnection c connection).connections c' =
    if c' = c then connection else db.connections c' :=
  Function.update_apply ..

theorem setConnection_self : db.setConnection c (db.connections c) = db := by
  rw [setConnection, Function.update_eq_self]

-- The instance after a scan of a connection's table has created its secret.
def recordSecret (db : DatabaseInstance) (c table : Nat) (catalogName : String) (entry : TableEntry)
    (secret : CreateSecretInput) : DatabaseInstance :=
  let connection := db.connections c
  { db.setConnection c { connection with
      tables := connection.tables.set table (catalogName, { entry with hasSecret := true })
      state  := { names := connection.state.names ++ [secret.name] }
    } with
    secrets := db.secrets.createSecret secret
  }

inductive ScanStep (db : DatabaseInstance) (c table : Nat) (outcomes : ScanOutcomes) :
    (Bool × Option Creation) × DatabaseInstance → Prop
  | unchanged {bound : Bool}
      (hb : bound → ∃ transaction catalogName entry,
        (db.connections c).transaction = some transaction ∧
        (db.connections c).tables[table]? = some (catalogName, entry) ∧ entry.hasSecret) :
    ScanStep db c table outcomes ((bound, none), db)
  | created (ho : outcomes.createSecret = .ok true) {bound : Bool} {transaction : Nat}
      {catalogName : String} {entry : TableEntry} {secret : CreateSecretInput}
      (ht : (db.connections c).transaction = some transaction)
      (he : (db.connections c).tables[table]? = some (catalogName, entry))
      (hc : entry.CreatesSecret (db.connections c).state catalogName transaction secret) :
    ScanStep db c table outcomes
      ((bound, some { transaction, table, secret }), db.recordSecret c table catalogName entry secret)

theorem scan_step : ScanStep db c table outcomes (db.scan c table outcomes) := by
  rw [scan]
  split
  case h_2 => exact .unchanged nofun
  case h_1 transaction catalogName entry ht he =>
    have hstep : entry.ScanStep (db.connections c).state catalogName transaction outcomes
        (entry.getScanFunction (db.connections c).state catalogName transaction outcomes) :=
      TableEntry.getScanFunction_step
    generalize entry.getScanFunction _ catalogName transaction outcomes = scan at hstep ⊢
    have ⟨result, entry', state', created⟩ := scan
    cases hstep
    case unchanged hcreated hentry hstate hr =>
      dsimp only at hcreated hentry hstate hr
      subst hcreated hstate
      rw [hentry]
      have ⟨hlt, hget⟩ := List.getElem?_eq_some_iff.mp he
      have hset :
          (db.connections c).tables.set table (catalogName, entry) = (db.connections c).tables :=
        hget ▸ List.set_getElem_self hlt
      dsimp only
      rw [hset]
      change ScanStep db c table outcomes
        ((result.isOk, none), db.setConnection c (db.connections c))
      rw [setConnection_self]
      exact .unchanged fun hr' => ⟨transaction, catalogName, entry, ht, he, hr hr'⟩
    case created hcreated hentry hstate hc ho =>
      dsimp only at hcreated hentry hstate
      subst hcreated hentry hstate
      exact .created ho ht he hc

theorem scan_eq_of_not_created (h : (db.scan c table outcomes).1.2 = none) :
    (db.scan c table outcomes).2 = db := by
  have hstep : ScanStep db c table outcomes (db.scan c table outcomes) := scan_step
  generalize db.scan c table outcomes = scan at hstep h
  cases hstep
  case unchanged => rfl
  case created   => exact nomatch h

theorem not_created_of_failed (h : outcomes.createSecret ≠ .ok true) :
    (db.scan c table outcomes).1.2 = none := by
  have hstep : ScanStep db c table outcomes (db.scan c table outcomes) := scan_step
  generalize db.scan c table outcomes = scan at hstep
  cases hstep
  case unchanged => rfl
  case created   => contradiction

theorem hasSecret_of_bound (h : (db.scan c table outcomes).1.1) :
    let db' := (db.scan c table outcomes).2
    ∃ t ∈ (db'.connections c).transaction, ∃ catalogName entry,
      (db'.connections c).tables[table]? = some (catalogName, entry) ∧ entry.hasSecret := by
  have hstep : ScanStep db c table outcomes (db.scan c table outcomes) := scan_step
  generalize db.scan c table outcomes = scan at hstep h ⊢
  cases hstep
  case unchanged hb =>
    have ⟨t, catalogName, entry, ht, he, hs⟩ := hb h
    exact ⟨t, ht, catalogName, entry, he, hs⟩
  case created transaction catalogName entry secret ht he _ =>
    have hlt := (List.getElem?_eq_some_iff.mp he).1
    have hc : ((db.recordSecret c table catalogName entry secret).connections c).tables =
        (db.connections c).tables.set table (catalogName, { entry with hasSecret := true }) := by
      simp [recordSecret]
    refine ⟨transaction, by simpa [recordSecret] using ht, catalogName,
      { entry with hasSecret := true }, ?_, rfl⟩
    exact hc ▸ List.getElem?_set_self hlt

theorem finish_eq {outcome : DropOutcome} (ht : (db.connections c).transaction = some transaction) :
    db.finish c ScopedSecrets.dropAll outcome = { db.setConnection c .idle with
      secrets := ((db.connections c).state.dropAll db.secrets outcome).2
    } := by
  rw [finish, ht]
  dsimp only
  rw [ScopedSecrets.state_dropAll]
  rfl

end DatabaseInstance

-- The secrets that were created in a transaction.
def Creation.within (created : List Creation) (transaction : Nat) : List Creation :=
  created.filter (·.transaction = transaction)

theorem Creation.within_concat_of_ne {created : List Creation} {a : Creation} {t : Nat}
    (h : a.transaction ≠ t) : within (created ++ [a]) t = within created t := by
  simp [within, h]

theorem Creation.within_concat_self {created : List Creation} {a : Creation} :
    within (created ++ [a]) a.transaction = within created a.transaction ++ [a] := by
  simp [within]

-- What holds of the transactions begun and of the secrets created so far.
structure Creation.Unique (begun : List Nat) (created : List Creation) : Prop where
  past     : ∀ a ∈ created, a.transaction ∈ begun
  named    : ∀ a ∈ created, ∃ catalogName index,
    a.secret.name = scopedSecretName catalogName a.transaction index ∧
      index < (within created a.transaction).length
  distinct : created.Pairwise fun a b => secretKey a.secret.name ≠ secretKey b.secret.name
  once     : created.Pairwise fun a b => (a.transaction, a.table) ≠ (b.transaction, b.table)

namespace Connection

-- The connection has the table entry that the secret was created for.
def Owns (connection : Connection) (a : Creation) : Prop :=
  ∃ catalogName entry info, connection.tables[a.table]? = some (catalogName, entry) ∧
    entry.hasSecret ∧ entry.scanInfo = some info ∧
    buildScopedS3Secret info.table = .ok { a.secret with name := "" }

-- What holds of a connection, in view of the secrets created so far and those that there are.
structure Tidy (created : List Creation) (secrets : SecretManager) (connection : Connection) :
    Prop where
  idle   : connection.transaction = none → connection = .idle
  names  : ∀ t ∈ connection.transaction,
    connection.state.names = (Creation.within created t).map (·.secret.name)
  owned  : ∀ a ∈ created, a.transaction ∈ connection.transaction →
    connection.Owns a ∧ a.secret ∈ secrets
  secret : ∀ t ∈ connection.transaction, ∀ (i : Nat) (catalogName : String) (entry : TableEntry),
    connection.tables[i]? = some (catalogName, entry) → entry.hasSecret →
      ∃ a ∈ created, a.transaction = t ∧ a.table = i

namespace Tidy

variable {created : List Creation} {secrets secrets' : SecretManager} {connection : Connection}

theorem of_idle : Tidy created secrets .idle where
  idle   := fun _ => rfl
  names  := nofun
  owned  := nofun
  secret := nofun

theorem begin {t : Nat} (h : ∀ a ∈ created, a.transaction ≠ t) :
    Tidy created secrets { Connection.idle with transaction := some t } where
  idle   := nofun
  names  := by
    intro t' ht'
    cases ht'
    have hnone : Creation.within created t = [] := by
      rw [Creation.within, List.filter_eq_nil_iff]
      simpa using h
    rw [hnone]
    rfl
  owned  := by
    intro a ha ht
    cases ht
    exact absurd rfl (h a ha)
  secret := fun _ _ _ _ _ he => nomatch List.getElem?_nil.symm.trans he

theorem load (h : Tidy created secrets connection) (ht : connection.transaction ≠ none)
    (catalogName : String) (entry : NewTableEntry) : Tidy created secrets
      { connection with tables := connection.tables ++ [(catalogName, entry.val)] } where
  idle   := fun hn => absurd hn ht
  names  := h.names
  owned  := by
    intro a ha hat
    have ⟨⟨catalogName', entry', info, he, hbuilt⟩, hmem⟩ := h.owned a ha hat
    have hlt := (List.getElem?_eq_some_iff.mp he).1
    exact ⟨⟨catalogName', entry', info, (List.getElem?_append_left hlt).trans he, hbuilt⟩, hmem⟩
  secret := by
    intro t ht i catalogName' entry' he hs
    cases Nat.lt_or_ge i connection.tables.length
    case inl hlt =>
      exact h.secret t ht i catalogName' entry' ((List.getElem?_append_left hlt).symm.trans he) hs
    case inr hge =>
      have hnew := List.mem_of_getElem? <| (List.getElem?_append_right hge).symm.trans he
      cases List.mem_singleton.mp hnew
      exact absurd hs entry.property

-- The secrets of a connection's transaction stay if others are dropped.
theorem drop (h : Tidy created secrets connection)
    (hs : ∀ a ∈ created, a.transaction ∈ connection.transaction →
      a.secret ∈ secrets → a.secret ∈ secrets') :
    Tidy created secrets' connection where
  idle   := h.idle
  names  := h.names
  owned  := fun a ha ht => (h.owned a ha ht).imp_right (hs a ha ht)
  secret := h.secret

variable {a : Creation} {catalogName : String} {entry : TableEntry}

-- Creating a secret for a table of another connection.
theorem create_other (h : Tidy created secrets connection)
    (ht : a.transaction ∉ connection.transaction)
    (hne : ∀ b ∈ created, secretKey b.secret.name ≠ secretKey a.secret.name) :
    Tidy (created ++ [a]) (secrets.createSecret a.secret) connection where
  idle   := h.idle
  names  := by
    intro t ht'
    have hat : a.transaction ≠ t := fun he => ht (he ▸ ht')
    rw [Creation.within_concat_of_ne hat]
    exact h.names t ht'
  owned  := by
    refine List.forall_mem_concat (fun b hb hbt => ?_) fun hat => absurd hat ht
    have ⟨howns, hmem⟩ := h.owned b hb hbt
    exact ⟨howns, SecretManager.mem_createSecret_of_ne hmem (hne b hb)⟩
  secret := by
    intro t ht' i catalogName entry he hs
    have ⟨b, hb, hbt⟩ := h.secret t ht' i catalogName entry he hs
    exact ⟨b, List.mem_append_left _ hb, hbt⟩

-- No secret has been created yet for an entry that has none.
theorem unowned (h : Tidy created secrets connection)
    (ht : connection.transaction = some a.transaction)
    (he : connection.tables[a.table]? = some (catalogName, entry)) (hs : ¬entry.hasSecret) :
    ∀ b ∈ created, (b.transaction, b.table) ≠ (a.transaction, a.table) := by
  intro b hb heq
  have ⟨htransaction, htable⟩ := Prod.mk.inj heq
  have ⟨⟨_, _, _, he', hs', _⟩, _⟩ := h.owned b hb (htransaction ▸ ht)
  cases he.symm.trans (htable ▸ he')
  exact hs hs'

theorem create_own (h : Tidy created secrets connection)
    (ht : connection.transaction = some a.transaction)
    (he : connection.tables[a.table]? = some (catalogName, entry))
    (hc : entry.CreatesSecret connection.state catalogName a.transaction a.secret)
    (hne : ∀ b ∈ created, secretKey b.secret.name ≠ secretKey a.secret.name) :
    Tidy (created ++ [a]) (secrets.createSecret a.secret) { connection with
      tables := connection.tables.set a.table (catalogName, { entry with hasSecret := true })
      state  := { names := connection.state.names ++ [a.secret.name] }
    } where
  idle   := fun hn => nomatch ht.symm.trans hn
  names  := by
    intro t ht'
    cases ht.symm.trans ht'
    rw [Creation.within_concat_self, h.names _ ht, List.map_append]
    rfl
  owned  := by
    refine List.forall_mem_concat (fun b hb hbt => ?old) fun _ => ?new
    case new =>
      have hlt := (List.getElem?_eq_some_iff.mp he).1
      have ⟨info, hinfo, hbuilt⟩ := hc.built
      exact ⟨⟨_, _, info, List.getElem?_set_self hlt, rfl, hinfo, hbuilt⟩,
        SecretManager.mem_createSecret_self⟩
    case old =>
      have hbtable : a.table ≠ b.table := by
        intro htable
        have hbt : a.transaction = b.transaction := Option.some.inj <| ht.symm.trans hbt
        exact h.unowned ht he hc.unscanned b hb (by rw [hbt, htable])
      have ⟨⟨catalogName', entry', info, he', hbuilt⟩, hmem⟩ := h.owned b hb hbt
      exact ⟨⟨catalogName', entry', info, (List.getElem?_set_ne hbtable).trans he', hbuilt⟩,
        SecretManager.mem_createSecret_of_ne hmem (hne b hb)⟩
  secret := by
    intro t ht' i catalogName' entry' he' hs
    cases ht.symm.trans ht'
    by_cases hi : a.table = i
    case pos => exact ⟨a, List.mem_append_right _ (List.mem_singleton_self a), rfl, hi⟩
    case neg =>
      have ⟨b, hb, hbt⟩ := h.secret _ ht i catalogName' entry'
        ((List.getElem?_set_ne hi).symm.trans he') hs
      exact ⟨b, List.mem_append_left _ hb, hbt⟩

end Tidy

end Connection

namespace Creation.Unique

variable {begun : List Nat} {created : List Creation} {connection : Connection} {a : Creation}
  {secrets : SecretManager} {catalogName : String} {entry : TableEntry}

theorem start : Unique [] [] where
  past     := nofun
  named    := nofun
  distinct := .nil
  once     := .nil

theorem begin (h : Unique begun created) (t : Nat) : Unique (begun ++ [t]) created :=
  { h with past := fun a ha => List.mem_append_left _ (h.past a ha) }

-- The name of a new secret is new: its index is the number of the transaction's secrets so far.
theorem key_ne (h : Unique begun created) (hc : connection.Tidy created secrets)
    (ht : connection.transaction = some a.transaction)
    (hcreates : entry.CreatesSecret connection.state catalogName a.transaction a.secret) :
    ∀ b ∈ created, secretKey b.secret.name ≠ secretKey a.secret.name := by
  intro b hb hkey
  have ⟨_, index, hname, hindex⟩ := h.named b hb
  rw [hname, hcreates.name] at hkey
  have ⟨htransaction, hi⟩ := secretKey_scopedSecretName hkey
  rw [htransaction, hi, hc.names _ ht, List.length_map] at hindex
  exact Nat.lt_irrefl _ hindex

theorem create (h : Unique begun created) (hc : connection.Tidy created secrets)
    (ht : connection.transaction = some a.transaction) (hbegun : a.transaction ∈ begun)
    (he : connection.tables[a.table]? = some (catalogName, entry))
    (hcreates : entry.CreatesSecret connection.state catalogName a.transaction a.secret) :
    Unique begun (created ++ [a]) where
  past     := List.forall_mem_concat h.past hbegun
  named    := by
    refine List.forall_mem_concat (fun b hb => ?old) ?new
    case old =>
      have ⟨catalogName, index, hname, hindex⟩ := h.named b hb
      refine ⟨catalogName, index, hname, Nat.lt_of_lt_of_le hindex ?_⟩
      rw [within, within, List.filter_append, List.length_append]
      exact Nat.le_add_right _ _
    case new =>
      refine ⟨catalogName, _, hcreates.name, ?_⟩
      rw [within_concat_self, hc.names _ ht, List.length_map, List.length_append]
      exact Nat.lt_succ_self _
  distinct := h.distinct.concat <| h.key_ne hc ht hcreates
  once     := h.once.concat <| hc.unowned ht he hcreates.unscanned

end Creation.Unique

namespace DatabaseInstance

structure Tidy (begun : List Nat) (created : List Creation) (db : DatabaseInstance) : Prop where
  unique      : Creation.Unique begun created
  connections : ∀ c, (db.connections c).Tidy created db.secrets
  current     : ∀ c t, t ∈ (db.connections c).transaction → t ∈ begun
  unshared    : ∀ c c' t, t ∈ (db.connections c).transaction →
    t ∈ (db.connections c').transaction → c = c'

namespace Tidy

variable {begun : List Nat} {created : List Creation} {db : DatabaseInstance} {secrets : SecretManager}
  {c table t : Nat} {outcomes : ScanOutcomes}

theorem start : Tidy [] [] (start secrets) where
  unique      := .start
  connections := fun _ => .of_idle
  current     := nofun
  unshared    := nofun

theorem begin (h : Tidy begun created db) (ht : t ∉ begun) :
    Tidy (begun ++ [t]) created (db.begin c t) := by
  rw [DatabaseInstance.begin]
  cases hc : (db.connections c).transaction
  case some =>
    exact { h with
      unique  := h.unique.begin t
      current := fun c t hct => List.mem_append_left _ (h.current c t hct)
    }
  case none =>
    dsimp only
    rw [(h.connections c).idle hc]
    have hpast : ∀ a ∈ created, a.transaction ≠ t := fun a ha he => ht (he ▸ h.unique.past a ha)
    have hold {c' t' : Nat} (hct : t' ∈ (db.connections c').transaction) : t' ≠ t :=
      fun he => ht (he ▸ h.current c' t' hct)
    let started : Connection := { Connection.idle with transaction := some t }
    have transaction {c' t' : Nat}
        (hct : t' ∈ ((db.setConnection c started).connections c').transaction) :
        c' = c ∧ t' = t ∨ t' ∈ (db.connections c').transaction := by
      rw [connections_setConnection] at hct
      split at hct
      case isTrue he => exact .inl ⟨he, (Option.some.inj hct).symm⟩
      case isFalse   => exact .inr hct
    constructor
    case unique => exact h.unique.begin t
    case connections =>
      intro c'
      rw [connections_setConnection]
      split
      case isTrue  => exact .begin hpast
      case isFalse => exact h.connections c'
    case current =>
      intro c' t' hct
      cases transaction hct
      case inl hnew => exact List.mem_append_right _ (List.mem_singleton.mpr hnew.right)
      case inr hct  => exact List.mem_append_left _ (h.current c' t' hct)
    case unshared =>
      intro c₁ c₂ t' h₁ h₂
      cases transaction h₁ <;> cases transaction h₂
      case inl.inl e₁ e₂ => exact e₁.left.trans e₂.left.symm
      case inl.inr e₁ h₂ => exact absurd e₁.right (hold h₂)
      case inr.inl h₁ e₂ => exact absurd e₂.right (hold h₁)
      case inr.inr h₁ h₂ => exact h.unshared c₁ c₂ t' h₁ h₂

-- A connection may change while its transaction goes on.
theorem setConnection (h : Tidy begun created db) {connection : Connection} {db' : DatabaseInstance}
    {created' : List Creation} (hunique : Creation.Unique begun created')
    (hdb : db'.connections = (db.setConnection c connection).connections)
    (ht : ∀ t ∈ connection.transaction, t ∈ (db.connections c).transaction)
    (hc : connection.Tidy created' db'.secrets)
    (hne : ∀ c', c' ≠ c → (db.connections c').Tidy created' db'.secrets) :
    Tidy begun created' db' := by
  have transaction {c' t : Nat} (hct : t ∈ (db'.connections c').transaction) :
      t ∈ (db.connections c').transaction := by
    rw [hdb, connections_setConnection] at hct
    split at hct
    case isTrue he  => exact he ▸ ht t hct
    case isFalse    => exact hct
  constructor
  case unique      => exact hunique
  case current     => exact fun c' t hct => h.current c' t (transaction hct)
  case unshared    =>
    exact fun c₁ c₂ t h₁ h₂ => h.unshared c₁ c₂ t (transaction h₁) (transaction h₂)
  case connections =>
    intro c'
    rw [hdb, connections_setConnection]
    split
    case isTrue     => exact hc
    case isFalse he => exact hne c' he

theorem load (h : Tidy begun created db) {catalogName : String} {entry : NewTableEntry} :
    Tidy begun created (db.load c catalogName entry) := by
  rw [DatabaseInstance.load]
  split
  case h_1 => exact h
  case h_2 ht =>
    exact h.setConnection h.unique rfl (fun _ => id)
      ((h.connections c).load (ht ▸ nofun) catalogName entry) fun c' _ => h.connections c'

theorem scan (h : Tidy begun created db) : let scan := db.scan c table outcomes
    Tidy begun (created ++ scan.1.2.toList) scan.2 := by
  have hstep : ScanStep db c table outcomes (db.scan c table outcomes) := scan_step
  generalize db.scan c table outcomes = scan at hstep ⊢
  cases hstep
  case unchanged => simpa using h
  case created transaction catalogName entry secret ht he hc =>
    have htidy := h.connections c
    have hne := h.unique.key_ne (a := { transaction, table, secret }) htidy ht hc
    have hunique := h.unique.create (a := { transaction, table, secret }) htidy ht
      (h.current c transaction ht) he hc
    refine h.setConnection hunique rfl (fun _ => id) (htidy.create_own ht he hc hne) fun c' hc' => ?_
    refine (h.connections c').create_other (fun ht' => hc' ?_) hne
    exact h.unshared c' c transaction ht' ht

-- The end of a transaction leaves the secrets of the others.
theorem finish (h : Tidy begun created db) {outcome : DropOutcome} :
    Tidy begun created (db.finish c ScopedSecrets.dropAll outcome) := by
  cases ht : (db.connections c).transaction
  case none => rw [DatabaseInstance.finish, ht]; exact h
  case some t =>
    rw [finish_eq ht]
    refine h.setConnection h.unique rfl nofun .of_idle fun c' hc' => ?_
    refine (h.connections c').drop fun a ha hat hmem => ScopedSecrets.mem_dropAll_of_ne hmem ?_
    rw [(h.connections c).names t ht, List.forall_mem_map]
    intro b hb
    have ⟨hb, hbt⟩ := List.mem_filter.mp hb
    have hbt : b.transaction = t := of_decide_eq_true hbt
    have hne : a ≠ b := by
      intro he
      exact hc' <| h.unshared c' c t (hbt ▸ he ▸ hat) ht
    have : Std.Symm fun a b : Creation => secretKey a.secret.name ≠ secretKey b.secret.name :=
      ⟨fun _ _ => Ne.symm⟩
    exact h.unique.distinct.forall ha hb hne

-- The end of a transaction whose drops succeed leaves none of its secrets.
theorem finish_succeeded (h : Tidy begun created db) {a : Creation} (ha : a ∈ created)
    (ht : (db.connections c).transaction = some a.transaction) {secret : CreateSecretInput}
    (hs : secret ∈ (db.finish c ScopedSecrets.dropAll .succeeded).secrets) :
    secretKey secret.name ≠ secretKey a.secret.name := by
  rw [finish_eq ht] at hs
  refine ScopedSecrets.ne_of_mem_dropAll_succeeded hs ?_
  rw [(h.connections c).names _ ht]
  exact List.mem_map_of_mem <| List.mem_filter.mpr ⟨ha, decide_eq_true rfl⟩

theorem finish_idle (h : Tidy begun created db) {outcome : DropOutcome} :
    (db.finish c ScopedSecrets.dropAll outcome).connections c = .idle := by
  cases ht : (db.connections c).transaction
  case none   => rw [DatabaseInstance.finish, ht]; exact (h.connections c).idle ht
  case some t => rw [finish_eq ht, connections_setConnection, if_pos rfl]

theorem step (h : Tidy begun created db) (i : Event) (hi : ∀ t ∈ i.begun, t ∉ begun) :
    Tidy (begun ++ i.begun.toList) (created ++ (db.step i).1.toList) (db.step i).2 := by
  cases i
  case begin c t         => simpa [DatabaseInstance.step, Event.begun] using h.begin (hi t rfl)
  case load              => simpa [DatabaseInstance.step, Event.begun] using h.load
  case scan              => simpa [DatabaseInstance.step, Event.begun] using h.scan
  case commit c outcome  =>
    have : Tidy begun created (db.finish c ScopedSecrets.transactionCommit outcome) := h.finish
    simpa [DatabaseInstance.step, Event.begun] using this
  case rollback c outcome =>
    have : Tidy begun created (db.finish c ScopedSecrets.transactionRollback outcome) := h.finish
    simpa [DatabaseInstance.step, Event.begun] using this

end Tidy

-- Everything stays tidy if the IDs of transactions are unique.
theorem Tidy.run {secrets : SecretManager} {is : List Event}
    (hids : (is.filterMap Event.begun).Nodup) : let m := machine secrets
    Tidy (is.filterMap Event.begun) ((m.outs m.init is).filterMap id) (m.run m.init is) := by
  revert hids
  apply Machine.run_history_induction (P := fun (is : List Event) db (os : List (Option Creation)) =>
    (is.filterMap Event.begun).Nodup → Tidy (is.filterMap Event.begun) (os.filterMap id) db)
  case hs => exact fun _ => .start
  case hstep =>
    intro is db os i ih hids
    rw [List.filterMap_concat] at hids ⊢
    rw [List.filterMap_concat]
    refine (ih hids.of_append_left).step i fun t ht hmem => ?_
    exact (List.nodup_append.mp hids).right.right t hmem t (Option.mem_toList.mpr ht) rfl

end DatabaseInstance

open DatabaseInstance

-- Each bound scan has the secret of its table, whose name is unique, until its transaction ends.
theorem scoped_secrets_live_for_one_transaction (secrets : SecretManager) (is : List Event)
    (hids : (is.filterMap Event.begun).Nodup) :
    let m := machine secrets
    let db := m.run m.init is
    let created := (m.outs m.init is).filterMap id
    created.Pairwise (fun a b => secretKey a.secret.name ≠ secretKey b.secret.name) ∧
    created.Pairwise (fun a b => (a.transaction, a.table) ≠ (b.transaction, b.table)) ∧
    (∀ c table outcomes, let scan := db.scan c table outcomes
      (outcomes.createSecret ≠ .ok true → scan.1.2 = none ∧ scan.2 = db) ∧
      (scan.1.2 = none → scan.2 = db) ∧
      (scan.1.1 → ∃ a ∈ created ++ scan.1.2.toList, a.table = table ∧
        a.transaction ∈ (scan.2.connections c).transaction ∧
        (scan.2.connections c).Owns a ∧ a.secret ∈ scan.2.secrets)) ∧
    ∀ c outcome, ∀ event ∈ [Event.commit c outcome, .rollback c outcome],
      let db' := m.next db event
      db'.connections c = .idle ∧
      (outcome = .succeeded → ∀ a ∈ created, a.transaction ∈ (db.connections c).transaction →
        ∀ secret ∈ db'.secrets, secretKey secret.name ≠ secretKey a.secret.name) := by
  intro m db created
  have h : Tidy _ created db := Tidy.run hids
  refine ⟨h.unique.distinct, h.unique.once, ?scan, ?finish⟩
  case scan =>
    intro c table outcomes scan
    have hfailed (ho : outcomes.createSecret ≠ .ok true) : scan.1.2 = none :=
      not_created_of_failed ho
    refine ⟨fun ho => ⟨hfailed ho, scan_eq_of_not_created (hfailed ho)⟩, scan_eq_of_not_created, ?_⟩
    intro hbound
    have h' : Tidy _ (created ++ scan.1.2.toList) scan.2 := h.scan
    have ⟨t, ht, catalogName, entry, he, hs⟩ := hasSecret_of_bound hbound
    have ⟨a, ha, hat, htable⟩ := (h'.connections c).secret t ht table catalogName entry he hs
    have ⟨howns, hmem⟩ := (h'.connections c).owned a ha (hat ▸ ht)
    exact ⟨a, ha, htable, hat ▸ ht, howns, hmem⟩
  case finish =>
    intro c outcome event hevent
    have hnext : m.next db event = db.finish c ScopedSecrets.dropAll outcome := by
      simp only [List.mem_cons, List.not_mem_nil, or_false] at hevent
      cases hevent
      case inl he => exact he ▸ rfl
      case inr he => exact he ▸ rfl
    rw [hnext]
    refine ⟨h.finish_idle, fun hsucceeded a ha ht secret hmem => ?_⟩
    subst hsucceeded
    exact h.finish_succeeded ha ht hmem

namespace Shop

def outcomes : ScanOutcomes where
  loadHttpfs   := .ok ()
  createSecret := .ok true
  bind         := .ok ()

-- Two catalogs whose names are easily confused, each with a scanned table. A scan fails before it
-- succeeds, and there are two transactions at the same time.
def scans : List Event :=
  let schema : Schema := { fields := [], nodup := List.nodup_nil }
  let entry : TableEntry := {
    name      := "orders"
    columns   := []
    scanInfo  := some { table := orders, mode := .currentRead, schema }
    hasSecret := false
  }
  [.begin 0 7, .load 0 "shop_7" ⟨entry, nofun⟩, .load 0 "shop" ⟨entry, nofun⟩,
    .scan 0 0 { outcomes with createSecret := .ok false }, .scan 0 0 outcomes, .scan 0 1 outcomes,
    .scan 0 0 outcomes, .begin 1 8, .load 1 "shop" ⟨entry, nofun⟩, .load 1 "shop_7" ⟨entry, nofun⟩,
    .scan 1 0 outcomes]

end Shop

theorem scoped_secrets_live_for_one_transaction_shop :
    let m := machine []
    let db := m.run m.init Shop.scans
    let created := (m.outs m.init Shop.scans).filterMap id
    let failed := db.scan 1 1 { Shop.outcomes with createSecret := .ok false }
    let again := db.scan 1 0 Shop.outcomes
    let db' := m.next db (.commit 0 .succeeded)
    created.map (·.secret.name) =
      ["__proto_ic_shop_7_7_0", "__proto_ic_shop_7_1", "__proto_ic_shop_8_0"] ∧
    created.Pairwise (fun a b => secretKey a.secret.name ≠ secretKey b.secret.name) ∧
    created.Pairwise (fun a b => (a.transaction, a.table) ≠ (b.transaction, b.table)) ∧
    failed.1.2 = none ∧ failed.2 = db ∧
    (∃ a ∈ created ++ again.1.2.toList, a.table = 0 ∧
      a.transaction ∈ (again.2.connections 1).transaction ∧
      (again.2.connections 1).Owns a ∧ a.secret ∈ again.2.secrets) ∧
    db'.connections 0 = .idle ∧
    ∀ a ∈ created, a.transaction ∈ (db.connections 0).transaction →
      ∀ secret ∈ db'.secrets, secretKey secret.name ≠ secretKey a.secret.name := by
  obtain ⟨hnames, honce, hscan, hfinish⟩ :=
    scoped_secrets_live_for_one_transaction [] Shop.scans (by decide)
  have hfailed := (hscan 1 1 { Shop.outcomes with createSecret := .ok false }).left nofun
  have hagain := (hscan 1 0 Shop.outcomes).right.right (by decide +kernel)
  have hcommit := hfinish 0 .succeeded _ List.mem_cons_self
  exact ⟨by decide, hnames, honce, hfailed.left, hfailed.right, hagain, hcommit.left,
    hcommit.right rfl⟩

end ProtoIceberg
