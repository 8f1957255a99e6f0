import ProtoIceberg.Catalog.IcebergSecret
import ProtoIceberg.Catalog.Theorems.Attach
import ProtoIceberg.Catalog.Transaction
import ProtoIceberg.Extensions.List

namespace ProtoIceberg

namespace AttachOptions

variable {casts : Casts} {info : AttachInfo} {options options' : AttachOptions} {key : String}
  {value : Value}

-- The options with their names regardless of case.
def lowered (options : AttachOptions) : List (String × Value) :=
  options.options.map fun (key, value) => (lower key, value)

-- No two options have the same name.
def Distinct (options : AttachOptions) : Prop :=
  (options.lowered.map Prod.fst).Nodup

theorem Distinct.pairwise (h : options.Distinct) :
    options.options.Pairwise fun a b => ¬(ciEquals key a.1 ∧ ciEquals key b.1) := by
  rw [Distinct, lowered, List.map_map, List.Nodup, List.pairwise_map] at h
  refine h.imp fun hne ⟨ha, hb⟩ => hne ?_
  exact (ciEquals_iff.mp ha).symm.trans (ciEquals_iff.mp hb)

theorem valueOf_eq_some_iff (h : options.Distinct) :
    options.options.valueOf (ciEquals key) = some value ↔ (lower key, value) ∈ options.lowered := by
  rw [List.valueOf_eq_some_iff h.pairwise]
  simp only [ciEquals_iff, lowered, List.mem_map, Prod.mk.injEq, Prod.exists]
  constructor
  case mp  => exact fun ⟨key', hmem, he⟩ => ⟨key', value, hmem, he.symm, rfl⟩
  case mpr =>
    rintro ⟨key', value', hmem, he, rfl⟩
    exact ⟨key', hmem, he.symm⟩

theorem text_eq (h : options.Distinct) : options.text casts key =
    (options.options.valueOf (ciEquals key)).elim "" casts.toString := by
  rw [text, List.valueOf_reverse h.pairwise]

theorem text_eq_of_perm (h : options.Distinct) (hp : options.lowered.Perm options'.lowered) :
    options.text casts key = options'.text casts key := by
  have h' : options'.Distinct := (hp.map Prod.fst).nodup_iff.mp h
  have hvalue : options.options.valueOf (ciEquals key) = options'.options.valueOf (ciEquals key) := by
    ext value
    rw [valueOf_eq_some_iff h, valueOf_eq_some_iff h', hp.mem_iff]
  rw [text_eq h, text_eq h', hvalue]

theorem located_eq_of_perm (h : options.Distinct) (hp : options.lowered.Perm options'.lowered) :
    options.located casts info = options'.located casts info := by
  simp only [located, parsed, text_eq_of_perm h hp]

theorem recognized_iff : options.Recognized ↔ ∀ option ∈ options.lowered, option.1 ∈ attachKeys := by
  simp only [Recognized, exists_attachKey_iff, lowered, List.forall_mem_map]

end AttachOptions

section

variable {casts : Casts} {secrets : SecretAccess} {make : Properties → Result Catalog} {name : String}
  {info : AttachInfo} {options : AttachOptions}

theorem parseAttachOptions_eq (h : options.Recognized) :
    parseAttachOptions casts info options = .ok (options.located casts info) := by
  have hspec := @parseAttachOptions_spec casts info options
  cases hparse : parseAttachOptions casts info options <;> rw [hparse] at hspec
  case error => exact absurd h hspec
  case ok    => exact congrArg _ hspec.right

theorem attach_fails (h : ¬options.Recognized) :
    (attach casts secrets make name info options).contacted = none ∧
      ∃ e, (attach casts secrets make name info options).result = .error e := by
  obtain ⟨e, he⟩ := (@parseAttachOptions_spec casts info options).error_iff.mpr h
  have hconfig : attachConfig casts secrets name info options = .error e := by
    rw [attachConfig, he]
    rfl
  rw [attach, hconfig]
  exact ⟨rfl, e, rfl⟩

end

-- The order in which the options are iterated does not matter, nor does the case of their names. If any
-- is not recognized, all orders fail before the catalog is contacted.
theorem attach_ignores_option_order (casts : Casts) (secrets : SecretAccess)
    (make : Properties → Result Catalog) (name : String) (info : AttachInfo)
    (options options' : AttachOptions) (h : options.Distinct)
    (hp : options.lowered.Perm options'.lowered) :
    let outcome := attach casts secrets make name info
    outcome options = outcome options' ∨
      ¬options.Recognized ∧ ∀ options'' ∈ [options, options'],
        (outcome options'').contacted = none ∧ ∃ e, (outcome options'').result = .error e := by
  intro outcome
  have h' : options'.Distinct := (hp.map Prod.fst).nodup_iff.mp h
  have hrecognized : options.Recognized ↔ options'.Recognized := by
    simp only [AttachOptions.recognized_iff, hp.mem_iff]
  by_cases hr : options.Recognized
  case pos =>
    have hparse : parseAttachOptions casts info options = parseAttachOptions casts info options' := by
      rw [parseAttachOptions_eq hr, parseAttachOptions_eq (hrecognized.mp hr),
        AttachOptions.located_eq_of_perm h hp]
    refine .inl ?_
    dsimp only [outcome]
    rw [attach, attachConfig, hparse, attach, attachConfig]
  case neg =>
    refine .inr ⟨hr, List.forall_mem_cons.mpr ⟨attach_fails hr, ?_⟩⟩
    exact List.forall_mem_singleton.mpr <| attach_fails (hrecognized.not.mp hr)

theorem attach_ignores_option_order_shop :
    let options : AttachOptions :=
      { options := [("endpoint", .varchar "http://localhost"), ("TOKEN", .varchar "t")] }
    let options' : AttachOptions :=
      { options := [("token", .varchar "t"), ("Endpoint", .varchar "http://localhost")] }
    let outcome := attach .keepType .empty (fun _ => .ok (Shop.catalog ["shop"])) "lake" { path := "" }
    outcome options = outcome options' ∨
      ¬options.Recognized ∧ ∀ options'' ∈ [options, options'],
        (outcome options'').contacted = none ∧ ∃ e, (outcome options'').result = .error e := by
  intro options options'
  have hlower : lower "endpoint" = "endpoint" ∧ lower "Endpoint" = "endpoint" ∧
      lower "token" = "token" ∧ lower "TOKEN" = "token" := by decide
  refine attach_ignores_option_order .keepType .empty _ "lake" { path := "" } options options' ?_ ?_
  case refine_1 => simp [AttachOptions.Distinct, AttachOptions.lowered, options, hlower]
  case refine_2 =>
    simp only [AttachOptions.lowered, options, options', List.map_cons, List.map_nil, hlower]
    exact .swap _ _ _

namespace AttachOptions

variable {casts : Casts} {info : AttachInfo} {options given : AttachOptions} {key : String}
  {input : CreateSecretInput}

end AttachOptions

namespace Shop

end Shop

end ProtoIceberg
