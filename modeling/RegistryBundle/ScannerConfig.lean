import RegistryBundle.Component
import RegistryBundle.Descriptor
import RegistryBundle.Document
import RegistryBundle.Run.Action
import RegistryBundle.Settings.Basic

/-!
# The scanner's own configuration

The security scanner is a service with a configuration of its own: a fixed document with the
connection to its database and the addresses of its notifications.

* `ScannerConfig.page` is that document; `Credentials.connection` the connection in it;
* `ScannerConfig.build` gives the file of a component that has one.
-/

namespace RegistryBundle

/-- The connection to the scanner's database. -/
def Credentials.connection (c : Credentials) (d : Descriptor) : String :=
  s!"host={d.name}-clair-postgres port=" ++ String.ofList (intText c.port) ++
    s!" dbname={c.database} user={c.user} password={c.password} sslmode=disable"

namespace ScannerConfig

/-- The document for a connection. -/
def document (d : Descriptor) (logLevel connection : String) : Value :=
  .record [("http_listen_addr", .str ":8080"),
    ("log_level", .str logLevel),
    ("indexer", .record [("connstring", .str connection), ("scanlock_retry", .int 10),
      ("layer_scan_concurrency", .int 5), ("migrations", .bool true)]),
    ("matcher", .record [("connstring", .str connection), ("max_conn_pool", .int 100),
      ("migrations", .bool true)]),
    ("notifier", .record [("connstring", .str connection), ("migrations", .bool true),
      ("delivery_interval", .str "1m"), ("poll_interval", .str "5m"),
      ("webhook", .record [("target", .str s!"http://{d.name}-quay-app/secscan/notification"),
        ("callback", .str s!"http://{d.name}-clair/notifier/api/v1/notifications")])]),
    ("metrics", .record [("name", .str "prometheus")])]

/-- The page of the document for a registry, if the port in it can be written. -/
def page (d : Descriptor) (settings : Settings) : Except Failure String :=
  if settings.scanner.writable then
    Document.encode (document d settings.scannerLogLevel (settings.scanner.connection d))
  else .error (.breach .range)

/-- The name of the file that holds the page. -/
def fileName : String := "config.yaml"

/-- The file of a component that has a configuration of its own. -/
def build (settings : Settings) (d : Descriptor) (c : Component) :
    Action (Option (String × String)) :=
  match c with
  | .clair => do
    Action.report .info .services s!"Rendering Clair config for {d.name}"
    let content ← Action.ofExcept (page d settings)
    return some (fileName, content)
  | _ => return none

end ScannerConfig

end RegistryBundle
