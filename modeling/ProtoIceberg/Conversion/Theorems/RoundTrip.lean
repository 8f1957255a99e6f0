import ProtoIceberg.Conversion.Theorems.S3

namespace ProtoIceberg

-- The scheme that tells whether SSL is used.
def scheme : Option Bool → String
  | none       => ""
  | some true  => httpsScheme
  | some false => httpScheme

-- How an endpoint is made up of a scheme, a host and trailing slashes.
structure EndpointParts (endpoint host : String) (ssl : Option Bool) : Prop where
  whole      : ∃ n, endpoint.toList = (scheme ssl).toList ++ host.toList ++ List.replicate n '/'
  untrailed  : host.toList.getLast? ≠ some '/'
  schemeless : ssl = none → ∀ b, ¬startsWith endpoint (scheme (some b))

section

variable {endpoint : String} {b : Bool}

theorem schemeUsesSsl_eq_some_iff :
    schemeUsesSsl endpoint = some b ↔ startsWith endpoint (scheme (some b)) := by
  have exclusive (h : startsWith endpoint httpsScheme) : ¬startsWith endpoint httpScheme := by
    intro h'
    have ⟨rest, hrest⟩ := startsWith_iff.mp h
    have ⟨rest', hrest'⟩ := startsWith_iff.mp h'
    have := congrArg String.toList (hrest.symm.trans hrest')
    simp [httpsScheme, httpScheme] at this
  rw [schemeUsesSsl]
  cases b <;> cases h : startsWith endpoint httpsScheme <;>
    cases h' : startsWith endpoint httpScheme <;> simp [scheme, h, h']
  all_goals exact exclusive h h'

theorem schemeUsesSsl_eq_none_iff :
    schemeUsesSsl endpoint = none ↔ ∀ b, ¬startsWith endpoint (scheme (some b)) := by
  simp only [← schemeUsesSsl_eq_some_iff, Option.eq_none_iff_forall_ne_some]

theorem toList_toDuckDBEndpoint : (toDuckDBEndpoint endpoint).toList =
    (removePrefix endpoint (scheme (schemeUsesSsl endpoint))).toList.rdropWhile (· = '/') := by
  rw [toDuckDBEndpoint, schemeUsesSsl]
  cases startsWith endpoint httpsScheme
  case true  => simp [scheme]
  case false => cases startsWith endpoint httpScheme <;> simp [scheme, removePrefix]

theorem toList_eq_scheme_append {ssl : Option Bool} (h : schemeUsesSsl endpoint = ssl) :
    endpoint.toList = (scheme ssl).toList ++ (removePrefix endpoint (scheme ssl)).toList := by
  cases ssl
  case none   => simp [scheme, removePrefix]
  case some b =>
    have ⟨rest, hrest⟩ := startsWith_iff.mp (schemeUsesSsl_eq_some_iff.mp h)
    simp [removePrefix, hrest]

theorem rdropWhile_append_slashes (cs : List Char) :
    ∃ n, cs.rdropWhile (· = '/') ++ List.replicate n '/' = cs := by
  have hslashes : ∀ c ∈ cs.rtakeWhile (· = '/'), c = '/' := by
    intro c hc
    simpa using List.mem_rtakeWhile_imp hc
  refine ⟨(cs.rtakeWhile (· = '/')).length, ?_⟩
  rw [← List.eq_replicate_of_mem hslashes]
  exact List.rdropWhile_append_rtakeWhile

theorem getLast?_rdropWhile_slash (cs : List Char) :
    (cs.rdropWhile (· = '/')).getLast? ≠ some '/' := by
  intro h
  have hne := List.ne_nil_of_mem (List.mem_of_getLast? h)
  have hlast := List.rdropWhile_last_not _ _ hne
  rw [List.getLast?_eq_some_getLast hne, Option.some.injEq] at h
  exact hlast (decide_eq_true h)

theorem endpointParts (endpoint : String) :
    EndpointParts endpoint (toDuckDBEndpoint endpoint) (schemeUsesSsl endpoint) where
  schemeless := schemeUsesSsl_eq_none_iff.mp
  whole      := by
    have ⟨n, hn⟩ := rdropWhile_append_slashes
      (removePrefix endpoint (scheme (schemeUsesSsl endpoint))).toList
    refine ⟨n, ?_⟩
    rw [toList_toDuckDBEndpoint, List.append_assoc, hn]
    exact toList_eq_scheme_append rfl
  untrailed  := by
    rw [toList_toDuckDBEndpoint]
    exact getLast?_rdropWhile_slash _

end

namespace SecretOptions

-- The text of an option.
def string? (options : SecretOptions) (key : String) : Option String :=
  match options.get? key with
  | some (.varchar s) => some s
  | _                 => none

-- The options that both conversions know.
def plainKeys : List String :=
  plainPropertyMappings.map Prod.fst

def s3Keys : List String :=
  plainKeys ++ ["url_style", "endpoint", "use_ssl"]

-- The options of S3 secrets are texts, besides `use_ssl`.
structure IsS3 (options : SecretOptions) : Prop where
  text : ∀ key ∈ plainKeys ++ ["url_style", "endpoint"], ∀ value,
    options.get? key = some value → ∃ s, value = .varchar s
  flag : ∀ value, options.get? "use_ssl" = some value → ∃ b, value = .boolean b

-- What is left of a secret after both conversions.
structure Survives (secret options : SecretOptions) : Prop where
  plain    : ∀ key ∈ plainKeys,
    options.get? key = ((secret.string? key).filter (· ≠ "")).map .varchar
  urlStyle : options.get? "url_style" =
    ((secret.string? "url_style").filter fun s => s = "path" ∨ s = "vhost").map .varchar
  endpoint : ∃ host ssl, EndpointParts ((secret.string? "endpoint").getD "") host ssl ∧
    options.get? "endpoint" = (nonempty host).map .varchar ∧
    options.get? "use_ssl" = (ssl.map .boolean <|> secret.get? "use_ssl")
  nothing  : (options.map Prod.fst).Sublist s3Keys

section

variable {casts : Casts} {secret : SecretOptions}

theorem IsS3.getString_eq (h : secret.IsS3) {key : String}
    (hkey : key ∈ plainKeys ++ ["url_style", "endpoint"]) :
    secret.getString casts key = (secret.string? key).getD "" := by
  rw [getString, string?]
  cases hvalue : secret.get? key
  case none => rfl
  case some value =>
    have ⟨s, hs⟩ := h.text key hkey value hvalue
    cases hs
    exact casts.toString_varchar s

theorem mapM_toBoolean_boolean (b : Bool) :
    (some (Value.boolean b)).mapM casts.toBoolean = .ok (some b) :=
  congrArg (some <$> ·) (casts.toBoolean_boolean b)

theorem IsS3.flag_eq (h : secret.IsS3) : ∃ useSsl : Option Bool,
    secret.get? "use_ssl" = useSsl.map .boolean ∧
    (secret.get? "use_ssl").mapM casts.toBoolean = .ok useSsl := by
  cases hvalue : secret.get? "use_ssl"
  case none => exact ⟨none, rfl, rfl⟩
  case some value =>
    have ⟨b, hb⟩ := h.flag value hvalue
    cases hb
    exact ⟨some b, rfl, mapM_toBoolean_boolean b⟩

theorem get?_s3Keys {xs : List (String × Option Value)} (h : xs.map Prod.fst = s3Keys) (i : Nat)
    {key : String} {value : Option Value} (hi : xs[i]? = some (key, value)) :
    get? xs.present key = value.filter (!·.isNull) := by
  refine get?_present ?_ (List.mem_of_getElem? hi)
  rw [h]
  decide

theorem filter_map_varchar {s : Option String} :
    (s.map Value.varchar).filter (!·.isNull) = s.map .varchar := by
  cases s <;> rfl

theorem filter_map_boolean {b : Option Bool} :
    (b.map Value.boolean).filter (!·.isNull) = b.map .boolean := by
  cases b <;> rfl

theorem nonempty_getD {s : Option String} : nonempty (s.getD "") = s.filter (· ≠ "") := by
  cases s
  case none   => rfl
  case some s => by_cases h : s = "" <;> simp [nonempty, Option.filter, h]

theorem styleProperty_getD {s : Option String} :
    (styleProperty (s.getD "")).map (.varchar ∘ urlStyle) =
      (s.filter fun s => s = "path" ∨ s = "vhost").map Value.varchar := by
  cases s
  case none   => rfl
  case some s =>
    by_cases hpath : s = "path"
    case pos => simp [styleProperty, ProtoIceberg.urlStyle, hpath]
    case neg =>
      by_cases hvhost : s = "vhost" <;> simp [styleProperty, ProtoIceberg.urlStyle, hpath, hvhost]

theorem IsS3.survives (h : secret.IsS3) {useSsl : Option Bool}
    (hssl : secret.get? "use_ssl" = useSsl.map .boolean) :
    Survives secret (roundTrip casts secret useSsl).present where
  plain := by
    have hplain (i : Nat) (key : String) (hkey : key ∈ plainKeys ++ ["url_style", "endpoint"])
        (hi : (roundTrip casts secret useSsl)[i]? =
          some (key, (nonempty (secret.getString casts key)).map .varchar)) :
        get? (roundTrip casts secret useSsl).present key =
          ((secret.string? key).filter (· ≠ "")).map .varchar := by
      rw [get?_s3Keys rfl i hi, filter_map_varchar, h.getString_eq hkey, nonempty_getD]
    intro key hkey
    have hkeys : key = "key_id" ∨ key = "secret" ∨ key = "session_token" ∨ key = "region" := by
      simpa [plainKeys, plainPropertyMappings] using hkey
    rcases hkeys with rfl | rfl | rfl | rfl
    case inl             => exact hplain 0 _ (by decide) rfl
    case inr.inl         => exact hplain 1 _ (by decide) rfl
    case inr.inr.inl     => exact hplain 2 _ (by decide) rfl
    case inr.inr.inr     => exact hplain 3 _ (by decide) rfl
  urlStyle := by
    rw [get?_s3Keys rfl 4 rfl, h.getString_eq (by decide), ← styleProperty_getD]
    cases styleProperty ((secret.string? "url_style").getD "") <;> rfl
  endpoint := by
    refine ⟨_, _, endpointParts _, ?_, ?_⟩
    case refine_1 =>
      rw [get?_s3Keys rfl 5 rfl, filter_map_varchar, h.getString_eq (by decide)]
    case refine_2 =>
      rw [get?_s3Keys rfl 6 rfl, filter_map_boolean, h.getString_eq (by decide), hssl]
      cases schemeUsesSsl ((secret.string? "endpoint").getD "") <;> rfl
  nothing := List.map_fst_present_sublist

end

end SecretOptions

theorem secret_survives_properties (casts : Casts) (secret : SecretOptions) (h : secret.IsS3) :
    ∃ properties, convertS3SecretToIcebergProperties casts secret = .ok properties ∧
      secret.Survives (convertIcebergPropertiesToS3Secret properties) := by
  have ⟨useSsl, hvalue, hssl⟩ := @h.flag_eq casts
  refine ⟨(icebergProperties casts secret useSsl).present, ?_, ?_⟩
  case refine_1 =>
    rw [convertS3SecretToIcebergProperties_eq, hssl]
    rfl
  case refine_2 =>
    rw [convertIcebergPropertiesToS3Secret_eq, secretOptions_icebergProperties]
    exact h.survives hvalue

-- Casts of values that keep their type.
def Casts.keepType : Casts where
  toString
    | .varchar s => s
    | _          => ""
  toBoolean
    | .boolean b => .ok b
    | _          => .error { type := .invalidInput, message := "Could not convert to BOOL" }
  toString_varchar _  := rfl
  toBoolean_boolean _ := rfl

def minioSecret : SecretOptions := [
  ("KEY_ID", .varchar "AKIA"),
  ("region", .null .varchar),
  ("url_style", .varchar "path"),
  ("Endpoint", .varchar "https://minio:9000/"),
  ("use_ssl", .boolean false),
  ("kms_key_id", .varchar "kms")
]

theorem minioSecret_isS3 : minioSecret.IsS3 where
  text := by
    intro key hkey value h
    have hkeys : key = "key_id" ∨ key = "secret" ∨ key = "session_token" ∨ key = "region" ∨
        key = "url_style" ∨ key = "endpoint" := by
      simpa [SecretOptions.plainKeys, plainPropertyMappings] using hkey
    rcases hkeys with rfl | rfl | rfl | rfl | rfl | rfl
    all_goals first
      | exact ⟨_, (Option.some.inj h).symm⟩
      | exact absurd (show none = some value from h) (by simp)
  flag value h := ⟨false, (Option.some.inj h).symm⟩

theorem secret_survives_properties_minio :
    ∃ properties, convertS3SecretToIcebergProperties .keepType minioSecret = .ok properties ∧
      minioSecret.Survives (convertIcebergPropertiesToS3Secret properties) :=
  secret_survives_properties .keepType minioSecret minioSecret_isS3

-- An endpoint that has another scheme once one is removed.
def Reschemed (endpoint : String) : Prop :=
  ∃ b b' rest, endpoint = scheme (some b) ++ scheme (some b') ++ rest ∧ ∃ c ∈ rest.toList, c ≠ '/'

section

variable {endpoint : String}

theorem getLast?_scheme (b : Bool) : (scheme (some b)).toList.getLast? = some '/' := by
  cases b <;> rfl

theorem rdropWhile_append_of_mem {cs rest : List Char} (h : ∃ c ∈ rest, c ≠ '/') :
    (cs ++ rest).rdropWhile (· = '/') = cs ++ rest.rdropWhile (· = '/') := by
  have hne : rest.rdropWhile (· = '/') ≠ [] := by
    have ⟨c, hc, hslash⟩ := h
    intro hnil
    exact hslash (by simpa using List.rdropWhile_eq_nil_iff.mp hnil c hc)
  have hdrop : rest.reverse.dropWhile (· = '/') ≠ [] :=
    fun hnil => hne (by rw [List.rdropWhile, hnil, List.reverse_nil])
  rw [List.rdropWhile, List.rdropWhile, List.reverse_append, List.dropWhile_append]
  simp [List.isEmpty_iff, hdrop]

theorem schemeUsesSsl_toDuckDBEndpoint_iff :
    (∃ b, schemeUsesSsl (toDuckDBEndpoint endpoint) = some b) ↔ Reschemed endpoint := by
  have hparts := endpointParts endpoint
  constructor
  case mp =>
    intro ⟨b', hb'⟩
    have ⟨rest, hrest⟩ := startsWith_iff.mp (schemeUsesSsl_eq_some_iff.mp hb')
    have ⟨n, hn⟩ := hparts.whole
    rw [hrest, String.toList_append] at hn
    cases hssl : schemeUsesSsl endpoint
    case none =>
      refine absurd (startsWith_iff.mpr ?_) (hparts.schemeless hssl b')
      refine ⟨.ofList (rest.toList ++ List.replicate n '/'), String.ext ?_⟩
      simpa [hssl, scheme] using hn
    case some b =>
      refine ⟨b, b', .ofList (rest.toList ++ List.replicate n '/'), String.ext ?_, ?_⟩
      case refine_1 => simpa [hssl] using hn
      case refine_2 =>
        have hlast := hparts.untrailed
        rw [hrest, String.toList_append] at hlast
        cases hrest : rest.toList.getLast?
        case none =>
          rw [List.getLast?_eq_none_iff.mp hrest, List.append_nil, getLast?_scheme] at hlast
          exact absurd rfl hlast
        case some c =>
          refine ⟨c, by simp [List.mem_of_getLast? hrest], ?_⟩
          intro hc
          rw [List.getLast?_append, hrest, hc] at hlast
          exact hlast rfl
  case mpr =>
    intro ⟨b, b', rest, hendpoint, hslash⟩
    have hssl : schemeUsesSsl endpoint = some b :=
      schemeUsesSsl_eq_some_iff.mpr (startsWith_iff.mpr ⟨_, hendpoint ▸ String.append_assoc⟩)
    refine ⟨b', schemeUsesSsl_eq_some_iff.mpr (startsWith_iff.mpr ?_)⟩
    refine ⟨.ofList (rest.toList.rdropWhile (· = '/')), String.ext ?_⟩
    rw [toList_toDuckDBEndpoint, hssl, String.toList_append, String.toList_ofList,
      ← rdropWhile_append_of_mem hslash, hendpoint]
    simp [removePrefix]

theorem toDuckDBEndpoint_twice (h : schemeUsesSsl (toDuckDBEndpoint endpoint) = none) :
    toDuckDBEndpoint (toDuckDBEndpoint endpoint) = toDuckDBEndpoint endpoint := by
  apply String.ext
  rw [toList_toDuckDBEndpoint, h]
  simp only [scheme, removePrefix, String.toList_ofList, toList_toDuckDBEndpoint]
  exact List.rdropWhile_idempotent ..

theorem schemeUsesSsl_eq_none_of_fixed (h : toDuckDBEndpoint endpoint = endpoint) :
    schemeUsesSsl endpoint = none := by
  have ⟨n, hn⟩ := (endpointParts endpoint).whole
  rw [h] at hn
  have hlength := congrArg List.length hn
  cases hssl : schemeUsesSsl endpoint
  case none   => rfl
  case some b => cases b <;> simp [hssl, scheme, httpScheme, httpsScheme] at hlength <;> omega

end

namespace SecretOptions

-- Options that are kept when they are converted to properties and back.
structure Settled (casts : Casts) (options : SecretOptions) : Prop where
  back     : ∃ properties, convertS3SecretToIcebergProperties casts options = .ok properties ∧
    ∀ key, get? (convertIcebergPropertiesToS3Secret properties) key = options.get? key
  endpoint : ∀ value, options.get? "endpoint" = some value →
    ∃ host, value = .varchar host ∧ host ≠ "" ∧ EndpointParts host host none
  useSsl   : ∀ properties, convertS3SecretToIcebergProperties casts options = .ok properties →
    get? (convertIcebergPropertiesToS3Secret properties) "use_ssl" = options.get? "use_ssl"

section

variable {casts : Casts} {properties : Properties}

theorem getString_present {xs : List (String × Option Value)} (h : xs.map Prod.fst = s3Keys) (i : Nat)
    {key : String} {s : Option String} (hi : xs[i]? = some (key, s.map .varchar)) :
    getString casts xs.present key = s.getD "" := by
  rw [getString, get?_s3Keys h i hi, filter_map_varchar]
  cases s
  case none   => rfl
  case some s => exact casts.toString_varchar s

theorem styleProperty_urlStyle {pathStyle : Option Bool} :
    styleProperty ((pathStyle.map ProtoIceberg.urlStyle).getD "") = pathStyle := by
  cases pathStyle
  case none   => rfl
  case some b => cases b <;> rfl

theorem roundTrip_secretOptions {useSsl : Option Bool} :
    roundTrip casts (secretOptions properties).present useSsl =
      ((secretOptions properties).set 5 ("endpoint", (nonempty (toDuckDBEndpoint
          (toDuckDBEndpoint (properties.get S3Properties.endpoint)))).map .varchar)).set 6
        ("use_ssl", (schemeUsesSsl (toDuckDBEndpoint (properties.get S3Properties.endpoint)) <|>
          useSsl).map .boolean) := by
  have hplain (i : Nat) {key s : String}
      (hi : (secretOptions properties)[i]? = some (key, (nonempty s).map .varchar)) :
      getString casts (secretOptions properties).present key = s :=
    (getString_present rfl i hi).trans getD_nonempty
  have hstyle : getString casts (secretOptions properties).present "url_style" =
      ((parseBool (properties.get S3Properties.pathStyleAccess)).map ProtoIceberg.urlStyle).getD "" := by
    refine getString_present rfl 4 ?_
    rw [Option.map_map]
    rfl
  rw [roundTrip, hplain 0 rfl, hplain 1 rfl, hplain 2 rfl, hplain 3 rfl, hplain 5 rfl, hstyle,
    styleProperty_urlStyle]
  rfl

theorem back_secretOptions :
    ∃ properties', convertS3SecretToIcebergProperties casts (secretOptions properties).present =
        .ok properties' ∧
      convertIcebergPropertiesToS3Secret properties' =
        (roundTrip casts (secretOptions properties).present
          (schemeUsesSsl (properties.get S3Properties.endpoint) <|>
            parseBool (properties.get S3Properties.sslEnabled))).present := by
  refine ⟨_, ?_, convertIcebergPropertiesToS3Secret_eq.trans <|
    congrArg List.present secretOptions_icebergProperties⟩
  rw [convertS3SecretToIcebergProperties_eq, get?_s3Keys rfl 6 rfl, filter_map_boolean]
  cases schemeUsesSsl (properties.get S3Properties.endpoint) <|>
    parseBool (properties.get S3Properties.sslEnabled)
  case none   => rfl
  case some b => exact congrArg (· >>= _) (mapM_toBoolean_boolean b)

theorem settled_iff :
    Settled casts (secretOptions properties).present ↔
      schemeUsesSsl (toDuckDBEndpoint (properties.get S3Properties.endpoint)) = none := by
  obtain ⟨properties', hok, hback⟩ := @back_secretOptions casts properties
  rw [roundTrip_secretOptions] at hback
  constructor
  case mp =>
    intro h
    obtain ⟨properties'', hok', hback'⟩ := h.back
    cases hok.symm.trans hok'
    have hendpoint := hback' "endpoint"
    rw [hback, get?_s3Keys rfl 5 rfl, get?_s3Keys rfl 5 rfl, filter_map_varchar, filter_map_varchar]
      at hendpoint
    apply schemeUsesSsl_eq_none_of_fixed
    have hhost := Option.map_injective (fun _ _ h => Value.varchar.inj h) hendpoint
    simpa using congrArg (·.getD "") hhost
  case mpr =>
    intro h
    have hsame : convertIcebergPropertiesToS3Secret properties' =
        (secretOptions properties).present := by
      rw [hback, h, toDuckDBEndpoint_twice h]
      rfl
    refine ⟨⟨properties', hok, fun key => by rw [hsame]⟩, ?_, ?_⟩
    case refine_1 =>
      intro value hvalue
      rw [get?_s3Keys rfl 5 rfl, filter_map_varchar] at hvalue
      obtain ⟨host, hhost, hvalue⟩ := Option.map_eq_some_iff.mp hvalue
      have hname : host ≠ "" ∧ host = toDuckDBEndpoint (properties.get S3Properties.endpoint) := by
        rw [nonempty] at hhost
        split at hhost
        case isTrue      => cases hhost
        case isFalse hne => exact Option.some.inj hhost ▸ ⟨hne, rfl⟩
      refine ⟨host, hvalue.symm, hname.left, ?_⟩
      have hparts := endpointParts host
      rw [hname.right, toDuckDBEndpoint_twice h, h] at hparts
      exact hname.right ▸ hparts
    case refine_2 =>
      intro properties'' hok'
      cases hok.symm.trans hok'
      rw [hsame]

end

end SecretOptions

theorem vended_properties_settle_iff (casts : Casts) (properties : Properties) :
    (convertIcebergPropertiesToS3Secret properties).Settled casts ↔
      ¬Reschemed (properties.get S3Properties.endpoint) := by
  rw [convertIcebergPropertiesToS3Secret_eq, SecretOptions.settled_iff,
    ← schemeUsesSsl_toDuckDBEndpoint_iff, ← Option.ne_none_iff_exists', not_not]

-- A second scheme is stripped as well and reverses `use_ssl`.
theorem vended_endpoint_keeps_second_scheme :
    ¬(convertIcebergPropertiesToS3Secret
      [(S3Properties.endpoint, "https://http://host")]).Settled .keepType := by
  intro h
  have ⟨host, hhost, _, hparts⟩ := h.endpoint (.varchar "http://host") rfl
  cases hhost
  exact hparts.schemeless rfl false rfl

end ProtoIceberg
