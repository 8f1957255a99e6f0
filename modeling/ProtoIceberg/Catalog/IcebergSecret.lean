import ProtoIceberg.Catalog.Attach
import ProtoIceberg.Secrets.ScopedSecrets

namespace ProtoIceberg

-- A secret whose options are known by name, some of which DuckDB does not show.
structure KeyValueSecret where
  scope      : List String
  type       : String
  provider   : String
  name       : String
  secretMap  : SecretOptions
  redactKeys : List String

def KeyValueSecret.base (secret : KeyValueSecret) : BaseSecret where
  type      := secret.type
  secretMap := some secret.secretMap

end ProtoIceberg
