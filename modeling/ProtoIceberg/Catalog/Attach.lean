import ProtoIceberg.Catalog.SchemaEntry
import ProtoIceberg.Conversion.S3

namespace ProtoIceberg

-- The keys of ATTACH options, which are also those of an Iceberg secret.
namespace Constants

def endpoint : String := "endpoint"

def warehouse : String := "warehouse"

def token : String := "token"

def defaultSchema : String := "default_schema"

def defaultNamespace : String := "default"

def icebergSecretType : String := "iceberg"

def s3SecretType : String := "s3"

def bearerPrefix : String := "Bearer "

end Constants

def uri : String := "uri"

def headerAuthorization : String := "header.Authorization"

-- Matches only S3 secrets that are scoped to all of S3.
def s3RootPath : String := "s3://"

def lower (s : String) : String :=
  .ofList (s.toList.map Char.toLower)

def rtrim (s : String) (c : Char) : String :=
  .ofList (s.toList.rdropWhile (· = c))

def Properties.set (properties : Properties) (key value : String) : Properties :=
  (key, value) :: properties.filter (·.1 ≠ key)

-- A secret of DuckDB, of which only a key-value secret has a map.
structure BaseSecret where
  type      : String
  secretMap : Option SecretOptions

-- What the secret manager answers. It throws for a name that several storages know.
structure SecretAccess where
  getSecretByName : String → Except Exception (Option BaseSecret)
  lookupSecret    : (path type : String) → Option BaseSecret

-- Unlike `get?`, this also finds NULL.
def SecretOptions.tryGetValue (options : SecretOptions) (key : String) : Option Value :=
  options.valueOf (ciEquals key)

structure AttachInfo where
  path : String

-- The options in the order that they are iterated in.
structure AttachOptions where
  options : List (String × Value)

structure CatalogParams where
  uri           : String
  warehouse     : String
  token         : String
  defaultSchema : String
  deriving DecidableEq

-- The attached catalog.
structure IcebergCatalog where
  catalogUri    : String
  defaultSchema : String
  catalog       : Catalog

-- What becomes of an attach. The catalog is contacted with a configuration, if at all.
structure AttachOutcome where
  contacted : Option Properties
  result    : Except Exception IcebergCatalog

section

variable (casts : Casts) (secrets : SecretAccess)

def readS3SecretAsIcebergProperties : Except Exception Properties :=
  match secrets.lookupSecret s3RootPath Constants.s3SecretType with
  | none             => .ok []
  | some secretMatch =>
    match secretMatch.secretMap with
    | none           => .ok []
    | some secretMap => convertS3SecretToIcebergProperties casts secretMap

namespace CatalogParams

def empty : CatalogParams where
  uri           := ""
  warehouse     := ""
  token         := ""
  defaultSchema := ""

def parseOption (params : CatalogParams) (option : String × Value) :
    Except Exception CatalogParams :=
  let (key, value) := option
  let lowerKey := lower key
  if lowerKey = Constants.endpoint then
    .ok { params with uri := casts.toString value }
  else if lowerKey = Constants.warehouse then
    .ok { params with warehouse := casts.toString value }
  else if lowerKey = Constants.token then
    .ok { params with token := casts.toString value }
  else if lowerKey = Constants.defaultSchema then
    .ok { params with defaultSchema := casts.toString value }
  else
    .error { type := .binder, message := s!"Unrecognized ATTACH option: '{key}'" }

-- Fills in what ATTACH didn't set.
def apply (params : CatalogParams) (secret : SecretOptions) : CatalogParams :=
  let orElse (param key : String) :=
    if param = "" then (secret.tryGetValue key).elim param casts.toString else param
  { params with
    uri   := orElse params.uri Constants.endpoint
    token := orElse params.token Constants.token
  }

end CatalogParams

def parseAttachOptions (info : AttachInfo) (options : AttachOptions) :
    Except Exception CatalogParams := do
  let params ← options.options.foldlM (CatalogParams.parseOption casts) .empty
  -- The path is the warehouse, not the catalog's URI.
  if params.warehouse = "" ∧ info.path ≠ "" then
    return { params with warehouse := info.path }
  else
    return params

-- A secret named like the alias is preferred to one that only has the type.
def mergeIcebergSecretParams (params : CatalogParams) (name : String) :
    Except Exception CatalogParams := do
  let entry ← secrets.getSecretByName name
  match entry.filter (·.type = Constants.icebergSecretType) with
  | some secret => return secret.secretMap.elim params (params.apply casts)
  | none        =>
    match secrets.lookupSecret "" Constants.icebergSecretType with
    | some secret => return secret.secretMap.elim params (params.apply casts)
    | none        => return params

-- Adds the parameters to the properties of the S3 secret.
def CatalogParams.configure (params : CatalogParams) (catalogProps : Properties) : Properties :=
  let catalogProps := catalogProps.set ProtoIceberg.uri params.uri
  let catalogProps := if params.warehouse = "" then
      catalogProps
    else
      catalogProps.set Constants.warehouse params.warehouse
  if params.token = "" then
    catalogProps
  else
    catalogProps.set headerAuthorization (Constants.bearerPrefix ++ params.token)

-- The parameters and the configuration that the catalog is made with.
def CatalogParams.toConfig (params : CatalogParams) :
    Except Exception (CatalogParams × Properties) :=
  let params := { params with
    defaultSchema :=
      if params.defaultSchema = "" then Constants.defaultNamespace else params.defaultSchema
  }
  if params.uri = "" then
    .error {
      type    := .invalidConfiguration
      message := "Missing 'endpoint' option for Iceberg attach"
    }
  else do
    let params := { params with uri := rtrim params.uri '/' }
    let catalogProps ← readS3SecretAsIcebergProperties casts secrets
    return (params, params.configure catalogProps)

def attachConfig (name : String) (info : AttachInfo) (options : AttachOptions) :
    Except Exception (CatalogParams × Properties) := do
  let params ← parseAttachOptions casts info options
  let params ← mergeIcebergSecretParams casts secrets params name
  params.toConfig casts secrets

def attach (make : Properties → Result Catalog) (name : String) (info : AttachInfo)
    (options : AttachOptions) : AttachOutcome :=
  match attachConfig casts secrets name info options with
  | .error exception   => { contacted := none, result := .error exception }
  | .ok (params, config) => {
    contacted := some config
    result    := do
      let catalog ← unwrapOrThrow (make config)
        s!"Failed to create Iceberg REST catalog at {params.uri}"
      return { catalogUri := params.uri, defaultSchema := params.defaultSchema, catalog }
  }

end

end ProtoIceberg
