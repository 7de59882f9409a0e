import RegistryBundle.FieldGroup.Form
import RegistryBundle.Schema.Record

/-!
# Field groups

The keys of the registry's configuration that each backing service owns. A group is read
from a document in which a field goes by its key or by its own name, the key being
preferred, and written back by key.

* `FieldGroup.form` is what is written of a group;
* each group has a check, `ScannerGroup.ofValue` and so on, that reads it.
-/

namespace RegistryBundle

/-- The settings of the security scanner. -/
structure ScannerGroup where
  enabled : Bool := false
  endpoint : Option String := none
  namespaces : List String := []
  interval : Int := 30
  notifications : Bool := false
deriving DecidableEq, Repr

/-- Where a key store listens. -/
structure RedisEndpoint where
  host : String
  port : Int := 6379
  password : Option String := none
deriving DecidableEq, Repr

/-- The key stores of build logs and user events. -/
structure RedisGroup where
  buildLogs : Option RedisEndpoint := none
  userEvents : Option RedisEndpoint := none
deriving DecidableEq, Repr

/-- The connection to the registry's database. -/
structure DatabaseGroup where
  uri : Option String := none
  connectionArgs : Option (Table Value) := none

/-- How a storage driver reaches its storage. -/
structure StorageArgs where
  hostname : String := ""
  secure : Bool := true
  port : Int := 443
  path : String := "/datastorage/registry"
  bucket : String := ""
  accessKey : String := ""
  secretKey : String := ""
deriving DecidableEq, Repr

/-- A storage driver with its arguments, written as a list of the two. -/
structure StorageDefinition where
  driver : String
  args : StorageArgs := {}
deriving DecidableEq, Repr

/-- Object storage by location. -/
structure StorageGroup where
  proxy : Bool := false
  preference : List String := []
  defaultLocations : List String := []
  locations : Table StorageDefinition := []
deriving DecidableEq, Repr

/-- The hostname and the scheme that the outside sees. -/
structure HostGroup where
  hostname : String := ""
  externalTermination : Bool := false
  scheme : String := "http"
deriving DecidableEq, Repr

/-- The group of a service. -/
inductive FieldGroup where
  | scanner (g : ScannerGroup)
  | redis (g : RedisGroup)
  | database (g : DatabaseGroup)
  | storage (g : StorageGroup)
  | host (g : HostGroup)

namespace FieldName

/-- A field in lower case whose key is the same in upper case. -/
def upper (s : String) : FieldName :=
  ⟨s, String.ofList (s.toList.map Char.toUpper)⟩

/-- The names under which a field is found, the preferred one first. -/
def names (n : FieldName) : List String := [n.key, n.name]

end FieldName

/-- A text that may be absent. -/
def Form.optionalText : Option String → Form
  | none => .absent
  | some s => .value (.str s)

/-- A list of texts. -/
def Form.texts (ss : List String) : Form :=
  .value (.list (ss.map .str))

/-- A group that may be absent. -/
def Form.optional (form : α → Form) : Option α → Form
  | none => .absent
  | some a => form a

namespace ScannerGroup

/-- Whether images are scanned. -/
def enabledName : FieldName := .upper "feature_security_scanner"

/-- The address of the scanner. -/
def endpointName : FieldName := .upper "security_scanner_v4_endpoint"

/-- The namespaces whose images are scanned first. -/
def namespacesName : FieldName := .upper "security_scanner_v4_namespace_whitelist"

/-- The seconds between two runs of the indexer. -/
def intervalName : FieldName := .upper "security_scanner_indexing_interval"

/-- Whether findings are reported. -/
def notificationsName : FieldName := .upper "security_scanner_notifications"

/-- The group that a mapping holds. -/
def ofValue : Value → Checked ScannerGroup :=
  Schema.record fun es =>
    ScannerGroup.mk <$> Schema.field Schema.truth false enabledName.names es
      <*> Schema.field (Schema.optional Schema.text) none endpointName.names es
      <*> Schema.field (Schema.listOf Schema.text) [] namespacesName.names es
      <*> Schema.field Schema.whole 30 intervalName.names es
      <*> Schema.field Schema.truth false notificationsName.names es

/-- What is written of the group. -/
def form (g : ScannerGroup) : Form :=
  .record [(enabledName, .value (.bool g.enabled)), (endpointName, .optionalText g.endpoint),
    (namespacesName, .texts g.namespaces), (intervalName, .value (.int g.interval)),
    (notificationsName, .value (.bool g.notifications))]

end ScannerGroup

namespace RedisEndpoint

/-- The key store that a mapping holds. -/
def ofValue : Value → Checked RedisEndpoint :=
  Schema.record fun es =>
    RedisEndpoint.mk <$> Schema.required Schema.text "host" es
      <*> Schema.field Schema.whole 6379 ["port"] es
      <*> Schema.field (Schema.optional Schema.text) none ["password"] es

/-- What is written of the key store. -/
def form (r : RedisEndpoint) : Form :=
  .record [(.same "host", .value (.str r.host)), (.same "port", .value (.int r.port)),
    (.same "password", .optionalText r.password)]

end RedisEndpoint

namespace RedisGroup

/-- The key store of build logs. -/
def buildLogsName : FieldName := .upper "buildlogs_redis"

/-- The key store of user events. -/
def userEventsName : FieldName := .upper "user_events_redis"

/-- The group that a mapping holds. -/
def ofValue : Value → Checked RedisGroup :=
  Schema.record fun es =>
    RedisGroup.mk <$> Schema.field (Schema.optional RedisEndpoint.ofValue) none buildLogsName.names
      es
      <*> Schema.field (Schema.optional RedisEndpoint.ofValue) none userEventsName.names es

/-- What is written of the group. -/
def form (g : RedisGroup) : Form :=
  .record [(buildLogsName, .optional RedisEndpoint.form g.buildLogs),
    (userEventsName, .optional RedisEndpoint.form g.userEvents)]

end RedisGroup

namespace DatabaseGroup

/-- The address of the database, with its login. -/
def uriName : FieldName := .upper "db_uri"

/-- Further arguments of the connection. -/
def connectionArgsName : FieldName := .upper "db_connection_args"

/-- The group that a mapping holds. -/
def ofValue : Value → Checked DatabaseGroup :=
  Schema.record fun es =>
    DatabaseGroup.mk <$> Schema.field (Schema.optional Schema.text) none uriName.names es
      <*> Schema.field (Schema.optional (Schema.mappingOf Checked.fits)) none
        connectionArgsName.names es

/-- What is written of the group. -/
def form (g : DatabaseGroup) : Form :=
  .record [(uriName, .optionalText g.uri),
    (connectionArgsName, .optional (fun args => .value (Value.record args)) g.connectionArgs)]

end DatabaseGroup

namespace StorageArgs

/-- The arguments that a mapping holds. -/
def ofValue : Value → Checked StorageArgs :=
  Schema.record fun es =>
    StorageArgs.mk <$> Schema.field Schema.text "" ["hostname"] es
      <*> Schema.field Schema.truth true ["is_secure"] es
      <*> Schema.field Schema.whole 443 ["port"] es
      <*> Schema.field Schema.text "/datastorage/registry" ["storage_path"] es
      <*> Schema.field Schema.text "" ["bucket_name"] es
      <*> Schema.field Schema.text "" ["access_key"] es
      <*> Schema.field Schema.text "" ["secret_key"] es

/-- What is written of the arguments. -/
def form (a : StorageArgs) : Form :=
  .record [(.same "hostname", .value (.str a.hostname)),
    (.same "is_secure", .value (.bool a.secure)), (.same "port", .value (.int a.port)),
    (.same "storage_path", .value (.str a.path)), (.same "bucket_name", .value (.str a.bucket)),
    (.same "access_key", .value (.str a.accessKey)),
    (.same "secret_key", .value (.str a.secretKey))]

end StorageArgs

namespace StorageDefinition

/-- The definition that a mapping holds, or a list or a pair of the driver and its arguments. -/
def ofValue (v : Value) : Checked StorageDefinition :=
  let v := match v.bare with
    | .list [driver, args] | .pair driver args => Value.record [("name", driver), ("args", args)]
    | v => v
  Schema.record (fun es =>
    StorageDefinition.mk <$> Schema.required Schema.text "name" es
      <*> Schema.field StorageArgs.ofValue {} ["args"] es) v

/-- What is written of the definition. -/
def form (d : StorageDefinition) : Form :=
  .items [.value (.str d.driver), d.args.form]

end StorageDefinition

namespace StorageGroup

/-- Whether the registry hands the storage's data through. -/
def proxyName : FieldName := .upper "feature_proxy_storage"

/-- The locations, the preferred one first. -/
def preferenceName : FieldName := .upper "distributed_storage_preference"

/-- The locations to which everything is copied. -/
def defaultLocationsName : FieldName := .upper "distributed_storage_default_locations"

/-- The storage at each location. -/
def locationsName : FieldName := .upper "distributed_storage_config"

/-- The group that a mapping holds. -/
def ofValue : Value → Checked StorageGroup :=
  Schema.record fun es =>
    StorageGroup.mk <$> Schema.field Schema.truth false proxyName.names es
      <*> Schema.field (Schema.listOf Schema.text) [] preferenceName.names es
      <*> Schema.field (Schema.listOf Schema.text) [] defaultLocationsName.names es
      <*> Schema.field (Schema.mappingOf StorageDefinition.ofValue) [] locationsName.names es

/-- What is written of the group. -/
def form (g : StorageGroup) : Form :=
  .record [(proxyName, .value (.bool g.proxy)), (preferenceName, .texts g.preference),
    (defaultLocationsName, .texts g.defaultLocations),
    (locationsName, .table (g.locations.map fun l => (l.1, l.2.form)))]

end StorageGroup

namespace HostGroup

/-- The hostname of the registry. -/
def hostnameName : FieldName := .upper "server_hostname"

/-- Whether encryption ends in front of the registry. -/
def externalTerminationName : FieldName := .upper "external_tls_termination"

/-- The scheme of the registry's addresses. -/
def schemeName : FieldName := .upper "preferred_url_scheme"

/-- The group that a mapping holds. -/
def ofValue : Value → Checked HostGroup :=
  Schema.record fun es =>
    HostGroup.mk <$> Schema.field Schema.text "" hostnameName.names es
      <*> Schema.field Schema.truth false externalTerminationName.names es
      <*> Schema.field Schema.text "http" schemeName.names es

/-- What is written of the group. -/
def form (g : HostGroup) : Form :=
  .record [(hostnameName, .value (.str g.hostname)),
    (externalTerminationName, .value (.bool g.externalTermination)),
    (schemeName, .value (.str g.scheme))]

end HostGroup

namespace FieldGroup

/-- What is written of a group. -/
def form : FieldGroup → Form
  | scanner g => g.form
  | redis g => g.form
  | database g => g.form
  | storage g => g.form
  | host g => g.form

/-- The page of a group. -/
def encode (g : FieldGroup) : Except Failure String :=
  g.form.encode

end FieldGroup

end RegistryBundle
