import ProtoIceberg.Snapshot.Metadata

namespace ProtoIceberg

-- Whether a scan reads exactly the given snapshot, or asks for the transaction to be restarted.
def ReadsOrRestarts (snapshot : Option Int) : Except Exception ScanInfo → Prop
  | .ok info => info.snapshot = snapshot ∧ ∀ id ∈ snapshot, id ∈ info.table.snapshots
  | .error e => e.type = .transaction

namespace Metadata

variable {m m' : Metadata} {t : Int}

theorem exists_snapshot_of_current {id : Int} (h : m.current = some id) :
    id ∈ m.snapshots.map Snapshot.id := by
  have ⟨e, he, hid⟩ := Option.map_eq_some_iff.mp <| m.latest.trans h
  exact hid ▸ m.known e (List.mem_of_getLast? he)

theorem schemaFor_ok {base : Table} {id : Int} (h : id ∈ m.snapshots.map Snapshot.id) :
    ∃ schema, (m.table base).schemaFor id = .ok schema := by
  have ⟨s, hs, hid⟩ := List.mem_map.mp h
  simp only [table]
  split
  case h_1 s _ => exact ⟨s.schema, rfl⟩
  case h_2 hn  => exact absurd hid (by simpa using List.find?_eq_none.mp hn s hs)

theorem asOf_known {id : Int} (h : m.log.asOf t = some id) :
    id ∈ m.snapshots.map Snapshot.id := by
  have ⟨e, he, hid⟩ := Option.map_eq_some_iff.mp h
  exact hid ▸ m.known e (List.mem_of_mem_filter <| List.mem_of_getLast? he)

theorem asOf_eq_current (h : m.lastUpdatedMs ≤ t) : m.log.asOf t = m.current := by
  rw [Timeline.asOf_eq_latest fun e he => Int.le_trans (m.logged e he) h, m.latest]

theorem Commit.evolves (h : Commit m m') (ht : t < m'.lastUpdatedMs) :
    Timeline.Evolves t m.log m'.log := by
  cases h
  case append       => exact .concat (Int.not_le.mpr ht)
  case stage        => exact .refl
  case rollback     => exact .concat (Int.not_le.mpr ht)
  case expire       => exact .forget
  case evolveSchema => exact .refl

theorem Commit.current_isSome (h : Commit m m') (hc : m.current.isSome) : m'.current.isSome := by
  cases h
  case append       => rfl
  case stage        => exact hc
  case rollback     => rfl
  case expire       => exact hc
  case evolveSchema => exact hc

-- What a later version still knows about the version that was current at time `t`.
structure Remembers (t : Int) (m m' : Metadata) : Prop where
  log     : Timeline.Evolves t m.log m'.log
  current : m.current.isSome → m'.current.isSome

theorem Remembers.of_commits {history : History} {i j : Nat} (hij : i ≤ j)
    (hj : j < history.versions.length)
    (ht : ∀ k (hk : k < history.versions.length), i < k → t < history.versions[k].lastUpdatedMs) :
    Remembers t history.versions[i] history.versions[j] := by
  induction j, hij using Nat.le_induction
  case base => exact { log := .refl, current := id }
  case succ j hij ih =>
    have ih := ih (Nat.lt_of_succ_lt hj)
    have hc : Commit history.versions[j] history.versions[j + 1] :=
      List.isChain_iff_getElem.mp history.commits j hj
    exact {
      log     := ih.log.trans <| hc.evolves (ht (j + 1) hj (Nat.lt_succ_of_le hij))
      current := hc.current_isSome ∘ ih.current
    }

variable {base : Table} {namespaceName tableName : String}

theorem Remembers.current_eq_of_snapshots_nil (h : Remembers t m m') (hn : m'.snapshots = []) :
    m'.current = m.current := by
  have hc' : m'.current = none := by
    rw [Option.eq_none_iff_forall_ne_some]
    intro id hid
    exact absurd (exists_snapshot_of_current hid) (by simp [hn])
  have hc : ¬m.current.isSome := fun hc => nomatch hc' ▸ h.current hc
  rw [hc', Option.not_isSome_iff_eq_none.mp hc]

-- A version from after the transaction's start is read as of then, or not at all.
theorem Remembers.reads_changed (h : Remembers t m m') (hm : m.lastUpdatedMs ≤ t)
    (ht : t < m'.lastUpdatedMs) (hn : m'.snapshots ≠ []) :
    ReadsOrRestarts m.current (resolveScanInfo t (m'.table base) namespaceName tableName) := by
  have hc : (m'.table base).snapshots ≠ [] ∧ t < (m'.table base).lastUpdatedMs :=
    ⟨by simpa [table] using hn, ht⟩
  rw [resolveScanInfo, if_pos hc]
  cases hid : (m'.table base).optionalSnapshotIdAsOfTime t
  case none => rfl
  case some id =>
    have hk := asOf_known hid
    have ⟨schema, hs⟩ : ∃ schema, (m'.table base).schemaFor id = .ok schema := schemaFor_ok hk
    have hcur : m.current = some id := asOf_eq_current hm ▸ h.log.asOf_eq_of_some hid
    simp only [hs, unwrapOrThrow_ok]
    exact ⟨hcur.symm, fun _ hid => Option.some.inj (hcur.symm.trans hid) ▸ hk⟩

theorem reads_current (h : m.snapshots = [] ∨ m.lastUpdatedMs ≤ t) :
    ReadsOrRestarts m.current (resolveScanInfo t (m.table base) namespaceName tableName) := by
  rw [resolveScanInfo, if_neg]
  case hnc =>
    intro ⟨hn, ht⟩
    exact h.elim (by simpa [table] using hn) (Int.not_le.mpr ht)
  exact ⟨rfl, fun _ hid => exists_snapshot_of_current hid⟩

end Metadata

-- Whichever version of a table a transaction happens to load, it reads the snapshot that was current
-- when the transaction started.
theorem resolveScanInfo_isolated (history : Metadata.History) (base : Table) (txnStart : Int)
    (namespaceName tableName : String) (i j : Nat) (hij : i ≤ j)
    (hj : j < history.versions.length) (hi : history.versions[i].lastUpdatedMs ≤ txnStart)
    (hlast : ∀ k (hk : k < history.versions.length),
      i < k → txnStart < history.versions[k].lastUpdatedMs) :
    ReadsOrRestarts history.versions[i].current
      (resolveScanInfo txnStart (history.versions[j].table base) namespaceName tableName) := by
  have h := Metadata.Remembers.of_commits hij hj hlast
  cases Nat.eq_or_lt_of_le hij
  case inl he =>
    subst he
    exact Metadata.reads_current (.inr hi)
  case inr hlt =>
    by_cases hn : history.versions[j].snapshots = []
    case pos => exact h.current_eq_of_snapshots_nil hn ▸ Metadata.reads_current (.inl hn)
    case neg => exact h.reads_changed hi (hlast j hj hlt) hn

-- A snapshot appended at time 20 is not read by a transaction that started at time 15.
theorem resolveScanInfo_isolated_append :
    let schema : Schema := { fields := [], nodup := List.nodup_nil }
    let base : Table := {
      name := { ns := { levels := ["shop"] }, name := "orders" }, location := "s3://shop/orders",
      io := none, properties := [], lastUpdatedMs := 0, snapshots := [], currentSnapshot := none,
      schema := .ok schema, schemaFor := fun _ => .ok schema,
      optionalSnapshotIdAsOfTime := fun _ => none
    }
    let v₀ := Metadata.created 0 schema
    let v₁ := v₀.append 10 (by decide) { id := 1, schema }
    let v₂ := v₁.append 20 (by decide) { id := 2, schema }
    ReadsOrRestarts (some 1) (resolveScanInfo 15 (v₂.table base) "shop" "orders") := by
  intro schema base v₀ v₁ v₂
  let history : Metadata.History := {
    versions := [v₀, v₁, v₂]
    commits  := .cons_cons (.append _ _) <| .cons_cons (.append _ _) <| .singleton _
  }
  apply resolveScanInfo_isolated history base 15 "shop" "orders" 1 2
  case hij => decide
  case hj  => decide
  case hi  => exact (by decide : (10 : Int) ≤ 15)
  case hlast =>
    intro k hk hlt
    have h₂ : k = 2 := Nat.le_antisymm (Nat.le_of_lt_succ hk) hlt
    subst h₂
    exact (by decide : (15 : Int) < 20)

end ProtoIceberg
