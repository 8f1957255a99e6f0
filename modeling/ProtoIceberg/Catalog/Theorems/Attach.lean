import ProtoIceberg.Catalog.Attach
import ProtoIceberg.Conversion.Theorems.RoundTrip
import ProtoIceberg.Extensions.Except

namespace ProtoIceberg

-- The texts that options and secrets have for a key, which are empty if there are none.
section

variable (casts : Casts)

-- The last option of a name counts.
def AttachOptions.text (options : AttachOptions) (key : String) : String :=
  (options.options.reverse.valueOf (ciEquals key)).elim "" casts.toString

def BaseSecret.text (secret : BaseSecret) (key : String) : String :=
  (secret.secretMap.bind (·.tryGetValue key)).elim "" casts.toString

def AttachOptions.resolve (options : AttachOptions) (chosen : Option BaseSecret) (key : String) :
    String :=
  if options.text casts key = "" then
    chosen.elim "" (·.text casts key)
  else
    options.text casts key

end

def attachKeys : List String :=
  [Constants.endpoint, Constants.warehouse, Constants.token, Constants.defaultSchema]

def AttachOptions.Recognized (options : AttachOptions) : Prop :=
  ∀ option ∈ options.options, ∃ key ∈ attachKeys, ciEquals key option.1

-- The secret named like the alias if it is of the type, otherwise the one that only has the type.
def SecretAccess.chosen (secrets : SecretAccess) (name : String) :
    Except Exception (Option BaseSecret) :=
  secrets.getSecretByName name |>.map fun entry =>
    entry.filter (·.type = Constants.icebergSecretType) <|>
      secrets.lookupSecret "" Constants.icebergSecretType

-- The S3 secret's `use_ssl` is a boolean, if it is set.
def SecretAccess.S3Readable (casts : Casts) (secrets : SecretAccess) : Prop :=
  ∀ secret ∈ secrets.lookupSecret s3RootPath Constants.s3SecretType,
    ∀ secretMap ∈ secret.secretMap, ∀ value ∈ secretMap.get? "use_ssl",
      ∃ useSsl, casts.toBoolean value = .ok useSsl

def OnlySlashes (s : String) : Prop :=
  s ≠ "" ∧ ∀ c ∈ s.toList, c = '/'

-- A configuration that comes from the options, the path and a secret.
structure Configured (casts : Casts) (info : AttachInfo) (options : AttachOptions)
    (chosen : Option BaseSecret) (config : Properties) : Prop where
  uri           : ∃ s n, config.lookup ProtoIceberg.uri = some s ∧ s ≠ "" ∧
    s.toList.getLast? ≠ some '/' ∧
    (options.resolve casts chosen Constants.endpoint).toList = s.toList ++ List.replicate n '/'
  warehouse     : config.lookup Constants.warehouse =
    nonempty (if options.text casts Constants.warehouse = "" then
      info.path
    else
      options.text casts Constants.warehouse)
  authorization : config.lookup headerAuthorization =
    (nonempty (options.resolve casts chosen Constants.token)).map (Constants.bearerPrefix ++ ·)

-- An attach resolves its parameters, or throws without contacting the catalog.
structure AttachOutcome.Resolves (casts : Casts) (secrets : SecretAccess) (name : String)
    (info : AttachInfo) (options : AttachOptions) (outcome : AttachOutcome) : Prop where
  rejects    : ¬options.Recognized ∨ (∀ chosen, secrets.chosen name = .ok chosen →
      options.resolve casts chosen Constants.endpoint = "") →
    outcome.contacted = none ∧ ∃ exception, outcome.result = .error exception
  accepts    : options.Recognized → (∃ chosen, secrets.chosen name = .ok chosen ∧
      options.resolve casts chosen Constants.endpoint ≠ "") → secrets.S3Readable casts →
    outcome.contacted.isSome
  configures : ∀ config, outcome.contacted = some config →
    ∃ chosen, secrets.chosen name = .ok chosen ∧ Configured casts info options chosen config

section

variable {casts : Casts} {secrets : SecretAccess} {name : String} {info : AttachInfo}
  {options : AttachOptions} {chosen : Option BaseSecret} {params : CatalogParams}

theorem ciEquals_iff {key key' : String} : ciEquals key key' ↔ lower key = lower key' := by
  rw [ciEquals, decide_eq_true_iff, lower, lower, String.ofList_inj]

theorem AttachOptions.text_concat {xs : List (String × Value)} {option : String × Value}
    {key : String} : AttachOptions.text casts { options := xs ++ [option] } key =
      if ciEquals key option.1 then casts.toString option.2
      else AttachOptions.text casts { options := xs } key := by
  cases h : ciEquals key option.1 <;> simp [AttachOptions.text, List.valueOf, h]

-- The parameters that the options give.
def AttachOptions.parsed (casts : Casts) (options : AttachOptions) : CatalogParams where
  uri           := options.text casts Constants.endpoint
  warehouse     := options.text casts Constants.warehouse
  token         := options.text casts Constants.token
  defaultSchema := options.text casts Constants.defaultSchema

theorem ciEquals_attachKey_iff {key name : String} (h : key ∈ attachKeys) :
    ciEquals key name ↔ lower name = key := by
  have hlower : ∀ key ∈ attachKeys, lower key = key := by decide
  rw [ciEquals_iff, hlower key h, eq_comm]

theorem exists_attachKey_iff {name : String} :
    (∃ key ∈ attachKeys, ciEquals key name) ↔ lower name ∈ attachKeys := by
  constructor
  case mp  => exact fun ⟨key, hkey, h⟩ => (ciEquals_attachKey_iff hkey).mp h ▸ hkey
  case mpr => exact fun h => ⟨_, h, (ciEquals_attachKey_iff h).mpr rfl⟩

theorem AttachOptions.text_concat_attachKey {xs : List (String × Value)} {option : String × Value}
    {key : String} (h : key ∈ attachKeys) :
    AttachOptions.text casts { options := xs ++ [option] } key =
      if lower option.1 = key then casts.toString option.2
      else AttachOptions.text casts { options := xs } key := by
  simp only [text_concat, ciEquals_attachKey_iff h]

theorem AttachOptions.parsed_concat {xs : List (String × Value)} {option : String × Value} :
    parsed casts { options := xs ++ [option] } =
      let text (key : String) :=
        if lower option.1 = key then casts.toString option.2 else text casts { options := xs } key
      {
        uri           := text Constants.endpoint
        warehouse     := text Constants.warehouse
        token         := text Constants.token
        defaultSchema := text Constants.defaultSchema
      } := by
  rw [parsed, text_concat_attachKey, text_concat_attachKey, text_concat_attachKey,
    text_concat_attachKey]
  all_goals decide

theorem CatalogParams.parseOption_spec {xs : List (String × Value)} {option : String × Value} :
    (parseOption casts (AttachOptions.parsed casts { options := xs }) option).FailsIff
      (¬∃ key ∈ attachKeys, ciEquals key option.1)
      (· = AttachOptions.parsed casts { options := xs ++ [option] }) := by
  rw [exists_attachKey_iff, AttachOptions.parsed_concat]
  by_cases h : lower option.1 ∈ attachKeys
  case neg =>
    have hne := h
    simp only [attachKeys, List.mem_cons, List.not_mem_nil, not_or] at hne
    simp only [parseOption, hne, if_false]
    exact h
  case pos =>
    have hkey := h
    simp only [attachKeys, List.mem_cons, List.not_mem_nil, or_false] at hkey
    rw [eq_false (not_not_intro h)]
    rcases hkey with hkey | hkey | hkey | hkey
    all_goals simp [hkey, parseOption, AttachOptions.parsed, Except.FailsIff, Constants.endpoint,
      Constants.warehouse, Constants.token, Constants.defaultSchema]

-- The parameters that the options and the path give.
def AttachOptions.located (casts : Casts) (info : AttachInfo) (options : AttachOptions) :
    CatalogParams :=
  { options.parsed casts with
    warehouse := if options.text casts Constants.warehouse = "" then
        info.path
      else
        options.text casts Constants.warehouse
  }

theorem parseAttachOptions_spec : (parseAttachOptions casts info options).FailsIff
    (¬options.Recognized) (· = options.located casts info) := by
  have ⟨xs⟩ := options
  have hloop : (xs.foldlM (CatalogParams.parseOption casts) .empty).FailsIff
      (∃ option ∈ xs, ¬∃ key ∈ attachKeys, ciEquals key option.1)
      (· = AttachOptions.parsed casts { options := xs }) :=
    .foldlM (fun xs => (· = AttachOptions.parsed casts { options := xs })) rfl
      fun _ _ _ h => h ▸ CatalogParams.parseOption_spec
  refine (hloop.bind_ok fun params h => ?_).imp ?_ fun _ _ => id
  case refine_1 =>
    subst h
    by_cases hpath : info.path = "" <;>
      by_cases htext : AttachOptions.text casts { options := xs } Constants.warehouse = "" <;>
      simp [AttachOptions.located, AttachOptions.parsed, hpath, htext, pure, Except.pure]
  case refine_2 => simp [AttachOptions.Recognized]

-- Takes what is not set from a secret.
def CatalogParams.fill (casts : Casts) (params : CatalogParams) (chosen : Option BaseSecret) :
    CatalogParams :=
  let orElse (param key : String) :=
    if param = "" then chosen.elim "" (·.text casts key) else param
  { params with
    uri   := orElse params.uri Constants.endpoint
    token := orElse params.token Constants.token
  }

theorem ite_eq_empty {s : String} : (if s = "" then "" else s) = s :=
  ite_eq_right_iff.mpr Eq.symm

theorem CatalogParams.fill_none : params.fill casts none = params := by
  simp only [fill, Option.elim_none, ite_eq_empty]

theorem CatalogParams.fill_some {secret : BaseSecret} :
    params.fill casts (some secret) = secret.secretMap.elim params (params.apply casts) := by
  have ⟨type, secretMap⟩ := secret
  cases secretMap
  case none           => exact @fill_none casts params
  case some secretMap =>
    have helim (param key : String) : (if param = "" then
        ((secretMap.tryGetValue key).elim "" casts.toString) else param) =
        if param = "" then (secretMap.tryGetValue key).elim param casts.toString else param := by
      split
      case isTrue h  => rw [h]
      case isFalse   => rfl
    simp only [fill, apply, BaseSecret.text, Option.elim_some, Option.bind_some, helim]

theorem mergeIcebergSecretParams_eq : mergeIcebergSecretParams casts secrets params name =
    (secrets.chosen name).map (params.fill casts) := by
  rw [mergeIcebergSecretParams, SecretAccess.chosen]
  cases secrets.getSecretByName name
  case error    => rfl
  case ok entry =>
    simp only [bind, Except.bind, Except.map]
    cases entry.filter (·.type = Constants.icebergSecretType)
    case some secret => exact congrArg _ CatalogParams.fill_some.symm
    case none        =>
      cases secrets.lookupSecret "" Constants.icebergSecretType
      case some secret => exact congrArg _ CatalogParams.fill_some.symm
      case none        => exact congrArg _ CatalogParams.fill_none.symm

-- The properties that come from the parameters.
def configKeys : List String :=
  [uri, Constants.warehouse, headerAuthorization]

theorem convertS3SecretToIcebergProperties_spec {secret : SecretOptions} :
    (convertS3SecretToIcebergProperties casts secret).FailsIff
      (¬∀ value ∈ secret.get? "use_ssl", ∃ useSsl, casts.toBoolean value = .ok useSsl)
      (fun properties => ∀ key ∈ configKeys, properties.lookup key = none) := by
  have habsent (useSsl : Option Bool) : ∀ key ∈ configKeys,
      (icebergProperties casts secret useSsl).present.lookup key = none := by
    intro key hkey
    have hkeys : ∀ key ∈ configKeys, ∀ key' ∈ [S3Properties.accessKeyId,
      S3Properties.secretAccessKey, S3Properties.sessionToken, S3Properties.region,
      S3Properties.pathStyleAccess, S3Properties.endpoint, S3Properties.sslEnabled],
      key != key' := by decide
    rw [List.lookup_eq_none_iff]
    intro p hp
    refine hkeys key hkey p.1 ?_
    exact List.map_fst_present_sublist.subset <| List.mem_map_of_mem hp
  rw [convertS3SecretToIcebergProperties_eq]
  cases secret.get? "use_ssl"
  case none       => exact ⟨by simp, habsent none⟩
  case some value =>
    have hmapM : (some value).mapM casts.toBoolean = some <$> casts.toBoolean value := by simp
    rw [hmapM]
    cases h : casts.toBoolean value
    case error     => exact fun h' => nomatch (h' value rfl).choose_spec.symm.trans h
    case ok useSsl => exact ⟨by simp [h], habsent (some useSsl)⟩

theorem readS3SecretAsIcebergProperties_spec :
    (readS3SecretAsIcebergProperties casts secrets).FailsIff (¬secrets.S3Readable casts)
      (fun properties => ∀ key ∈ configKeys, properties.lookup key = none) := by
  rw [readS3SecretAsIcebergProperties, SecretAccess.S3Readable]
  cases secrets.lookupSecret s3RootPath Constants.s3SecretType
  case none             => exact ⟨by simp, fun _ _ => rfl⟩
  case some secretMatch =>
    have ⟨type, secretMap⟩ := secretMatch
    cases secretMap
    case none           => exact ⟨by simp, fun _ _ => rfl⟩
    case some secretMap =>
      refine convertS3SecretToIcebergProperties_spec.imp ?_ fun _ _ => id
      simp

theorem Properties.lookup_set {properties : Properties} {key key' value : String} :
    (properties.set key value).lookup key' =
      if key' = key then some value else properties.lookup key' := by
  by_cases h : key' = key
  case pos => simp [Properties.set, h]
  case neg =>
    rw [Properties.set, List.lookup_cons, beq_false_of_ne h, if_neg h]
    exact @List.lookup_filter_fst _ _ _ _ (decide <| · ≠ key) properties key' (decide_eq_true h)

section

variable {properties : Properties}

theorem lookup_configure_uri : (params.configure properties).lookup uri = some params.uri := by
  have hne : uri ≠ Constants.warehouse ∧ uri ≠ headerAuthorization := by decide
  rw [CatalogParams.configure]
  split_ifs <;> simp [Properties.lookup_set, hne]

theorem lookup_configure_warehouse (h : properties.lookup Constants.warehouse = none) :
    (params.configure properties).lookup Constants.warehouse = nonempty params.warehouse := by
  have hne : Constants.warehouse ≠ uri ∧ Constants.warehouse ≠ headerAuthorization := by decide
  rw [CatalogParams.configure, nonempty]
  split_ifs <;> simp [Properties.lookup_set, hne, h]

theorem lookup_configure_authorization (h : properties.lookup headerAuthorization = none) :
    (params.configure properties).lookup headerAuthorization =
      (nonempty params.token).map (Constants.bearerPrefix ++ ·) := by
  have hne : headerAuthorization ≠ uri ∧ headerAuthorization ≠ Constants.warehouse := by decide
  rw [CatalogParams.configure, nonempty]
  split_ifs <;> simp [Properties.lookup_set, hne, h]

end

theorem rtrim_eq_empty_iff {s : String} {c : Char} : rtrim s c = "" ↔ ∀ d ∈ s.toList, d = c := by
  rw [rtrim, String.ofList_eq_empty_iff, List.rdropWhile_eq_nil_iff]
  simp

theorem attachConfig_error (h : ∀ chosen, secrets.chosen name ≠ .ok chosen) :
    ∃ exception, attachConfig casts secrets name info options = .error exception := by
  rw [attachConfig]
  cases parseAttachOptions casts info options
  case error exception => exact ⟨exception, rfl⟩
  case ok params       =>
    simp only [mergeIcebergSecretParams_eq]
    cases hchosen : secrets.chosen name
    case error exception => exact ⟨exception, rfl⟩
    case ok chosen       => exact absurd hchosen (h chosen)

-- A configuration that has the parameters.
structure CatalogParams.Configures (params : CatalogParams) (config : Properties) : Prop where
  uri           : config.lookup ProtoIceberg.uri = some (rtrim params.uri '/')
  warehouse     : config.lookup Constants.warehouse = nonempty params.warehouse
  authorization : config.lookup headerAuthorization =
    (nonempty params.token).map (Constants.bearerPrefix ++ ·)

theorem CatalogParams.toConfig_spec : (params.toConfig casts secrets).FailsIff
    (params.uri = "" ∨ ¬secrets.S3Readable casts) (params.Configures ·.2) := by
  rw [toConfig]
  by_cases huri : params.uri = ""
  case pos =>
    rw [if_pos huri]
    exact Or.inl huri
  case neg =>
    rw [if_neg huri]
    refine (readS3SecretAsIcebergProperties_spec.bind_ok fun _ h => ?_).imp ?_ fun _ _ => id
    case refine_1 =>
      exact ⟨_, rfl, {
        uri           := lookup_configure_uri
        warehouse     := lookup_configure_warehouse <| h _ (by decide)
        authorization := lookup_configure_authorization <| h _ (by decide)
      }⟩
    case refine_2 => exact (or_iff_right huri).symm

theorem attachConfig_spec (h : secrets.chosen name = .ok chosen) :
    (attachConfig casts secrets name info options).FailsIff
      (¬options.Recognized ∨ options.resolve casts chosen Constants.endpoint = "" ∨
        ¬secrets.S3Readable casts)
      (((options.located casts info).fill casts chosen).Configures ·.2) := by
  rw [attachConfig]
  refine parseAttachOptions_spec.bind fun params hparams => ?_
  rw [mergeIcebergSecretParams_eq, h, hparams]
  exact CatalogParams.toConfig_spec

theorem onlySlashes_iff {s : String} (h : s ≠ "") : OnlySlashes s ↔ rtrim s '/' = "" := by
  rw [OnlySlashes, rtrim_eq_empty_iff, and_iff_right h]

theorem CatalogParams.Configures.configured {config : Properties}
    (h : ((options.located casts info).fill casts chosen).Configures config)
    (hne : rtrim (options.resolve casts chosen Constants.endpoint) '/' ≠ "") :
    Configured casts info options chosen config where
  warehouse     := h.warehouse
  authorization := h.authorization
  uri           := by
    have ⟨n, hn⟩ :=
      rdropWhile_append_slashes (options.resolve casts chosen Constants.endpoint).toList
    refine ⟨_, n, h.uri, hne, ?_, ?_⟩
    case refine_1 =>
      rw [rtrim, String.toList_ofList]
      exact getLast?_rdropWhile_slash _
    case refine_2 =>
      rw [rtrim, String.toList_ofList]
      exact hn.symm

-- A configuration is only built once a secret is chosen.
theorem attachConfig_ok {result : CatalogParams × Properties}
    (h : attachConfig casts secrets name info options = .ok result) :
    ∃ chosen, secrets.chosen name = .ok chosen := by
  by_contra hnone
  have ⟨_, herror⟩ := @attachConfig_error casts secrets name info options (not_exists.mp hnone)
  exact nomatch h.symm.trans herror

theorem resolves_of_error {make : Properties → Result Catalog} {exception : Exception}
    (h : attachConfig casts secrets name info options = .error exception) :
    (attach casts secrets make name info options).Resolves casts secrets name info options := by
  rw [attach, h]
  refine { rejects := fun _ => ⟨rfl, _, rfl⟩, accepts := ?_, configures := nofun }
  intro hrecognized ⟨chosen, hchosen, hendpoint⟩ hs3
  rcases (attachConfig_spec hchosen).error_iff.mp ⟨_, h⟩ with h | h | h
  case inl     => exact absurd hrecognized h
  case inr.inl => exact absurd h hendpoint
  case inr.inr => exact absurd hs3 h

end

-- The endpoint is checked before its slashes are trimmed.
theorem attach_resolves_iff (casts : Casts) (secrets : SecretAccess)
    (make : Properties → Result Catalog) (name : String) (info : AttachInfo)
    (options : AttachOptions) :
    (attach casts secrets make name info options).Resolves casts secrets name info options ↔
      ¬(options.Recognized ∧ secrets.S3Readable casts ∧ ∃ chosen, secrets.chosen name = .ok chosen ∧
        OnlySlashes (options.resolve casts chosen Constants.endpoint)) := by
  cases h : attachConfig casts secrets name info options
  case error exception =>
    refine iff_of_true (resolves_of_error h) ?_
    intro ⟨hrecognized, hs3, chosen, hchosen, hslashes⟩
    rcases (attachConfig_spec hchosen).error_iff.mp ⟨_, h⟩ with h | h | h
    case inl     => exact h hrecognized
    case inr.inl => exact hslashes.left h
    case inr.inr => exact h hs3
  case ok result =>
    have ⟨params, config⟩ := result
    have ⟨chosen, hchosen⟩ := attachConfig_ok h
    have hspec := @attachConfig_spec casts secrets name info options chosen hchosen
    have hconfigures := hspec.of_ok h
    have ⟨hrecognized, hendpoint, hs3⟩ : options.Recognized ∧
        options.resolve casts chosen Constants.endpoint ≠ "" ∧ secrets.S3Readable casts := by
      simpa only [not_or, not_not] using hspec.not_of_ok h
    have hslashes := onlySlashes_iff hendpoint
    rw [attach, h]
    constructor
    case mp =>
      intro hresolves ⟨_, _, chosen', hchosen', honly⟩
      cases hchosen.symm.trans hchosen'
      have ⟨_, _, hconfigured⟩ := hresolves.configures config rfl
      have ⟨s, _, hs, hne, _⟩ := hconfigured.uri
      have hs : rtrim _ '/' = s := Option.some.inj <| hconfigures.uri.symm.trans hs
      exact hne <| hs ▸ hslashes.mp honly
    case mpr =>
      intro hnot
      have hne : rtrim (options.resolve casts chosen Constants.endpoint) '/' ≠ "" :=
        fun he => hnot ⟨hrecognized, hs3, chosen, hchosen, hslashes.mpr he⟩
      refine { rejects := ?_, accepts := fun _ _ _ => rfl, configures := ?_ }
      case refine_1 =>
        intro hbad
        cases hbad
        case inl hbad => exact absurd hrecognized hbad
        case inr hbad => exact absurd (hbad chosen hchosen) hendpoint
      case refine_2 =>
        intro config' hconfig
        cases hconfig
        exact ⟨chosen, hchosen, hconfigures.configured hne⟩

def SecretAccess.empty : SecretAccess where
  getSecretByName _ := .ok none
  lookupSecret _ _  := none

-- All of the endpoint is trimmed.
theorem attach_trims_endpoint_to_nothing :
    ¬(attach .keepType .empty (fun _ => .error { kind := .other 0, message := "Missing uri" }) "lake"
      { path := "" } { options := [("endpoint", .varchar "/")] }).Resolves .keepType .empty "lake"
      { path := "" } { options := [("endpoint", .varchar "/")] } := by
  intro h
  have ⟨_, _, hconfigured⟩ := h.configures [(uri, "")] rfl
  have ⟨s, _, hs, hne, _⟩ := hconfigured.uri
  exact hne <| Option.some.inj <| hs.symm.trans List.lookup_cons_self

end ProtoIceberg
