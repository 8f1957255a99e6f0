import ProtoIceberg.Conversion.S3

namespace ProtoIceberg

def nonempty (s : String) : Option String :=
  if s = "" then none else some s

@[simp]
theorem getD_nonempty {s : String} : (nonempty s).getD "" = s := by
  by_cases h : s = "" <;> simp [nonempty, h]

theorem map_nonempty {α : Type} {s : String} {f : String → α} :
    (nonempty s).map f = if s = "" then none else some (f s) := by
  by_cases h : s = "" <;> simp [nonempty, h]

-- iceberg-cpp's form of a boolean.
def boolProperty (b : Bool) : String :=
  if b then "true" else "false"

@[simp]
theorem parseBool_boolProperty {b : Option Bool} :
    parseBool ((b.map boolProperty).getD "") = b := by
  cases b
  case none   => rfl
  case some b => cases b <;> rfl

def styleProperty (urlStyle : String) : Option Bool :=
  if urlStyle = "path" then some true else if urlStyle = "vhost" then some false else none

def urlStyle (pathStyle : Bool) : String :=
  if pathStyle then "path" else "vhost"

section

variable {properties : Properties} {secret : SecretOptions} {casts : Casts}

theorem get_eq_valueOf {key : String} :
    properties.get key = (properties.valueOf (key == ·)).getD "" := by
  rw [Properties.get]
  congr 1
  induction properties
  case nil => rfl
  case cons p properties ih =>
    rw [List.lookup_cons, List.valueOf, List.find?_cons]
    cases key == p.1
    case true  => rfl
    case false => exact ih

-- The properties that a secret is converted to, as far as they have a value.
def icebergProperties (casts : Casts) (secret : SecretOptions) (useSsl : Option Bool) :
    List (String × Option String) := [
  (S3Properties.accessKeyId, nonempty (secret.getString casts "key_id")),
  (S3Properties.secretAccessKey, nonempty (secret.getString casts "secret")),
  (S3Properties.sessionToken, nonempty (secret.getString casts "session_token")),
  (S3Properties.region, nonempty (secret.getString casts "region")),
  (S3Properties.pathStyleAccess, (styleProperty (secret.getString casts "url_style")).map boolProperty),
  (S3Properties.endpoint, nonempty (secret.getString casts "endpoint")),
  (S3Properties.sslEnabled, useSsl.map boolProperty)
]

theorem convertS3SecretToIcebergProperties_eq :
    convertS3SecretToIcebergProperties casts secret = do
      let useSsl ← (secret.get? "use_ssl").mapM casts.toBoolean
      return (icebergProperties casts secret useSsl).present := by
  rw [convertS3SecretToIcebergProperties]
  congr 1
  funext useSsl
  have hstyle (style : String) : (if style = "path" then some (S3Properties.pathStyleAccess, "true")
      else if style = "vhost" then some (S3Properties.pathStyleAccess, "false") else none) =
      ((styleProperty style).map boolProperty).map (S3Properties.pathStyleAccess, ·) := by
    rw [styleProperty]
    split
    case isTrue  => rfl
    case isFalse => split <;> rfl
  simp only [plainPropertyMappings, icebergProperties, List.filterMap_cons_append, List.filterMap_nil,
    List.present_cons, List.present_nil, map_nonempty, hstyle, List.append_assoc, List.append_nil,
    Option.map_map]
  rfl

-- The options that properties are converted to, as far as they have a value.
def secretOptions (properties : Properties) : List (String × Option Value) :=
  let endpoint := properties.get S3Properties.endpoint
  let useSsl := schemeUsesSsl endpoint <|> parseBool (properties.get S3Properties.sslEnabled)
  [
    ("key_id", (nonempty (properties.get S3Properties.accessKeyId)).map .varchar),
    ("secret", (nonempty (properties.get S3Properties.secretAccessKey)).map .varchar),
    ("session_token", (nonempty (properties.get S3Properties.sessionToken)).map .varchar),
    ("region", (nonempty (properties.get S3Properties.region)).map .varchar),
    ("url_style", (parseBool (properties.get S3Properties.pathStyleAccess)).map (.varchar ∘ urlStyle)),
    ("endpoint", (nonempty (toDuckDBEndpoint endpoint)).map .varchar),
    ("use_ssl", useSsl.map .boolean)
  ]

theorem convertIcebergPropertiesToS3Secret_eq :
    convertIcebergPropertiesToS3Secret properties = (secretOptions properties).present := by
  simp only [convertIcebergPropertiesToS3Secret, plainPropertyMappings, secretOptions,
    List.filterMap_cons_append, List.filterMap_nil, List.present_cons, List.present_nil,
    Option.map_map, map_nonempty, List.append_assoc, List.append_nil, apply_ite (Option.map _),
    Option.map_none, Option.map_some]
  rfl

theorem get_present {xs : List (String × Option String)} (h : (xs.map Prod.fst).Nodup)
    {key : String} {value : Option String} (hmem : (key, value) ∈ xs) :
    Properties.get xs.present key = value.getD "" := by
  rw [get_eq_valueOf, List.valueOf_present_of_mem _ hmem (beq_self_eq_true key)]
  refine List.Pairwise.imp ?_ h
  intro a b hne ⟨ha, hb⟩
  exact hne <| (beq_iff_eq.mp ha).symm.trans (beq_iff_eq.mp hb)

theorem get?_present {xs : List (String × Option Value)}
    (h : (xs.map Prod.fst).Pairwise fun a b => ¬ciEquals a b) {key : String} {value : Option Value}
    (hmem : (key, value) ∈ xs) : SecretOptions.get? xs.present key = value.filter (!·.isNull) := by
  rw [SecretOptions.get?, List.valueOf_present_of_mem _ hmem (decide_eq_true rfl)]
  refine h.imp ?_
  intro a b hne ⟨ha, hb⟩
  refine hne <| decide_eq_true ?_
  exact (of_decide_eq_true ha).symm.trans (of_decide_eq_true hb)

-- What remains of a secret after both conversions.
def roundTrip (casts : Casts) (secret : SecretOptions) (useSsl : Option Bool) :
    List (String × Option Value) :=
  let endpoint := secret.getString casts "endpoint"
  [
    ("key_id", (nonempty (secret.getString casts "key_id")).map .varchar),
    ("secret", (nonempty (secret.getString casts "secret")).map .varchar),
    ("session_token", (nonempty (secret.getString casts "session_token")).map .varchar),
    ("region", (nonempty (secret.getString casts "region")).map .varchar),
    ("url_style", (styleProperty (secret.getString casts "url_style")).map (.varchar ∘ urlStyle)),
    ("endpoint", (nonempty (toDuckDBEndpoint endpoint)).map .varchar),
    ("use_ssl", (schemeUsesSsl endpoint <|> useSsl).map .boolean)
  ]

theorem secretOptions_icebergProperties {useSsl : Option Bool} :
    secretOptions (icebergProperties casts secret useSsl).present = roundTrip casts secret useSsl := by
  have hget (i : Nat) {key : String} {value : Option String}
      (hi : (icebergProperties casts secret useSsl)[i]? = some (key, value)) :
      Properties.get (icebergProperties casts secret useSsl).present key = value.getD "" := by
    refine get_present ?_ (List.mem_of_getElem? hi)
    change List.Nodup [S3Properties.accessKeyId, S3Properties.secretAccessKey,
      S3Properties.sessionToken, S3Properties.region, S3Properties.pathStyleAccess,
      S3Properties.endpoint, S3Properties.sslEnabled]
    decide
  rw [secretOptions, hget 0 rfl, hget 1 rfl, hget 2 rfl, hget 3 rfl, hget 4 rfl, hget 5 rfl, hget 6 rfl]
  simp only [getD_nonempty, parseBool_boolProperty, roundTrip]

end

end ProtoIceberg
