import Mathlib.Data.List.DropRight
import ProtoIceberg.Extensions.List
import ProtoIceberg.Objects.Table
import ProtoIceberg.Objects.Value

namespace ProtoIceberg

-- iceberg-cpp's names of its S3 properties.
namespace S3Properties

def accessKeyId : String := "s3.access-key-id"

def secretAccessKey : String := "s3.secret-access-key"

def sessionToken : String := "s3.session-token"

def region : String := "s3.region"

def endpoint : String := "s3.endpoint"

def pathStyleAccess : String := "s3.path-style-access"

def sslEnabled : String := "s3.ssl.enabled"

end S3Properties

-- A missing property reads like an empty one.
def Properties.get (properties : Properties) (key : String) : String :=
  (properties.lookup key).getD ""

-- DuckDB's secret options. Names of options are case-insensitive.
abbrev SecretOptions := List (String × Value)

def Value.isNull : Value → Bool
  | .null _ => true
  | _       => false

def ciEquals (name name' : String) : Bool :=
  name.toList.map Char.toLower = name'.toList.map Char.toLower

-- The value of an option, unless it is NULL.
def SecretOptions.get? (options : SecretOptions) (key : String) : Option Value :=
  (options.valueOf (ciEquals key)).filter (!·.isNull)

-- DuckDB's casts of values, of which only those that keep the type are known.
structure Casts where
  toString          : Value → String
  toBoolean         : Value → Except Exception Bool
  toString_varchar  : ∀ s, toString (.varchar s) = s
  toBoolean_boolean : ∀ b, toBoolean (.boolean b) = .ok b

def SecretOptions.getString (casts : Casts) (options : SecretOptions) (key : String) : String :=
  (options.get? key).elim "" casts.toString

-- DuckDB's secret options and iceberg-cpp's properties whose values mean the same in both.
def plainPropertyMappings : List (String × String) := [
  ("key_id", S3Properties.accessKeyId),
  ("secret", S3Properties.secretAccessKey),
  ("session_token", S3Properties.sessionToken),
  ("region", S3Properties.region)
]

-- A boolean property of iceberg-cpp is exactly "true" or "false".
def parseBool (value : String) : Option Bool :=
  if value = "true" then
    some true
  else if value = "false" then
    some false
  else
    none

def httpScheme : String := "http://"

def httpsScheme : String := "https://"

def startsWith (s p : String) : Bool :=
  p.toList.isPrefixOf s.toList

theorem startsWith_iff {s p : String} : startsWith s p ↔ ∃ rest, s = p ++ rest := by
  rw [startsWith, List.isPrefixOf_iff_prefix]
  constructor
  case mp =>
    intro ⟨rest, h⟩
    exact ⟨.ofList rest, String.ext (by simp [h])⟩
  case mpr =>
    intro ⟨rest, h⟩
    exact ⟨rest.toList, by simp [h]⟩

def removePrefix (s p : String) : String :=
  .ofList (s.toList.drop p.toList.length)

-- Whether an endpoint's scheme implies SSL, if it has one.
def schemeUsesSsl (endpoint : String) : Option Bool :=
  if startsWith endpoint httpsScheme then
    some true
  else if startsWith endpoint httpScheme then
    some false
  else
    none

-- DuckDB's form of an endpoint has no scheme and no trailing slash.
def toDuckDBEndpoint (endpoint : String) : String :=
  let endpoint :=
    if startsWith endpoint httpsScheme then
      removePrefix endpoint httpsScheme
    else if startsWith endpoint httpScheme then
      removePrefix endpoint httpScheme
    else
      endpoint
  .ofList (endpoint.toList.rdropWhile (· = '/'))

def convertS3SecretToIcebergProperties (casts : Casts) (secret : SecretOptions) :
    Except Exception Properties := do
  let plain := plainPropertyMappings.filterMap fun (duckdbKey, icebergKey) =>
    let value := secret.getString casts duckdbKey
    if value = "" then none else some (icebergKey, value)
  let urlStyle := secret.getString casts "url_style"
  let pathStyle :=
    if urlStyle = "path" then
      some (S3Properties.pathStyleAccess, "true")
    else if urlStyle = "vhost" then
      some (S3Properties.pathStyleAccess, "false")
    else
      none
  let endpoint := secret.getString casts "endpoint"
  let endpointProperty := if endpoint = "" then none else some (S3Properties.endpoint, endpoint)
  let useSsl ← (secret.get? "use_ssl").mapM casts.toBoolean
  let sslEnabled := useSsl.map fun useSsl =>
    (S3Properties.sslEnabled, if useSsl then "true" else "false")
  return plain ++ pathStyle.toList ++ endpointProperty.toList ++ sslEnabled.toList

def convertIcebergPropertiesToS3Secret (properties : Properties) : SecretOptions :=
  let plain := plainPropertyMappings.filterMap fun (duckdbKey, icebergKey) =>
    let value := properties.get icebergKey
    if value = "" then none else some (duckdbKey, .varchar value)
  let urlStyle := parseBool (properties.get S3Properties.pathStyleAccess) |>.map fun pathStyle =>
    ("url_style", .varchar (if pathStyle then "path" else "vhost"))
  let endpoint := properties.get S3Properties.endpoint
  let duckdbEndpoint := toDuckDBEndpoint endpoint
  let endpointOption :=
    if duckdbEndpoint = "" then none else some ("endpoint", .varchar duckdbEndpoint)
  -- An endpoint's scheme overrides the property.
  let useSsl := schemeUsesSsl endpoint <|> parseBool (properties.get S3Properties.sslEnabled)
  plain ++ urlStyle.toList ++ endpointOption.toList ++
    (useSsl.map fun useSsl => ("use_ssl", .boolean useSsl)).toList

end ProtoIceberg
