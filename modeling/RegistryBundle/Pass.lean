import RegistryBundle.BaseConfig
import RegistryBundle.Certificate
import RegistryBundle.Keys.Provision
import RegistryBundle.Overlay
import RegistryBundle.ScannerConfig

/-!
# A synthesis pass

One pass over a registry: find or make the secret keys, write the base document, render the overlay
of every component and the configuration of its service, and issue a certificate for the route.

* `Pass.run` is a pass; it knows the components before it takes an octet or reports;
* `Pass.document` is the base document: the user's entries over those of every
  bundle, and the keys over both.
-/

namespace RegistryBundle

/-- What a pass makes. -/
structure Artifacts where
  secretKey : String
  databaseKey : String
  /-- The snapshot to keep, and whether it is a new one. -/
  snapshot : Option Snapshot
  generated : Bool
  configFiles : Table String
  serviceFiles : List (Component × Table String) := []
  certificate : Option Certificate := none

namespace Pass

/-- The file of the base document. -/
def baseFile : String := "config.yaml"

/-- What a pass is asked to do. -/
structure Request where
  descriptor : Descriptor
  config : Entries := []
  snapshot : Option Snapshot := none
  /-- The components, by their names. -/
  components : List Value := Component.all.map fun c => .str c.name
  issueCertificate : Bool := true

/-- The base document. -/
def document (config : Entries) (secretKey databaseKey : String) : Entries :=
  let merged := config.foldl (fun acc e => Value.put acc e.1 e.2) baseConfig
  Value.put (Value.put merged (.str ManagedKey.secret.name) (.str secretKey))
    (.str ManagedKey.database.name) (.str databaseKey)

/-- The service files with those of a component, in the place of earlier ones. -/
def putService (c : Component) (files : Table String) :
    List (Component × Table String) → List (Component × Table String)
  | [] => [(c, files)]
  | e :: rest => if e.1 = c then (c, files) :: rest else e :: putService c files rest

/-- What was made so far, with the files of one more component. -/
def addComponent (settings : Settings) (r : Request) (made : Artifacts) (c : Component) :
    Action Artifacts := do
  let overlay ← Overlay.render settings r.descriptor r.config c
  let service ← ScannerConfig.build settings r.descriptor c
  return { made with
    configFiles := Table.update made.configFiles overlay
    serviceFiles := match service with
      | some file => putService c [file] made.serviceFiles
      | none => made.serviceFiles }

/-- The number of the next certificate. -/
def nextSerial : Action Nat := do
  let s ← get
  set { s with issued := s.issued + 1 }
  return s.issued + 1

/-- The certificate of the route. -/
def certify (settings : Settings) (r : Request) (now : Moment) : Action Certificate := do
  let host ← Overlay.routeHostname settings r.descriptor r.config
  Action.ofExcept (Certificate.issue (← nextSerial) host now)

/-- The names of components, as a report gives them. -/
def listing (kinds : List Component) : String :=
  if kinds.isEmpty then "no components" else ", ".intercalate (kinds.map Component.name)

/-- A pass at a moment. -/
def run (settings : Settings) (now : Moment) (r : Request) : Action Artifacts := do
  let kinds ← Action.ofExcept (r.components.mapM Component.parse)
  let keys ← SecretKey.resolvePair r.descriptor SecretKey.usualLength r.config r.snapshot
  let base ← Action.ofExcept (Document.encode (.map (document r.config keys.secret keys.database)))
  let start : Artifacts :=
    { secretKey := keys.secret, databaseKey := keys.database, snapshot := keys.snapshot,
      generated := keys.generated, configFiles := [(baseFile, base)] }
  let made ← kinds.foldlM (addComponent settings r) start
  let certificate ←
    if r.issueCertificate && kinds.contains .route then some <$> certify settings r now
      else pure none
  Action.report .info .pass
    s!"Synthesized {made.configFiles.length} config files for {r.descriptor.name} ({listing kinds})"
  return { made with certificate := certificate }

/-- The certificate that the route of a registry would have, for use apart from a pass. -/
def customCertificate (settings : Settings) (d : Descriptor) (config : Entries) (now : Moment) :
    Action Certificate := do
  let host ← Overlay.routeHostname settings d config
  Action.report .info .certificates s!"Issuing self-signed certificate for {host}"
  Action.ofExcept (Certificate.issue (← nextSerial) host now)

end Pass

end RegistryBundle
