import RegistryBundle.Component
import RegistryBundle.Descriptor
import RegistryBundle.FieldGroup.Basic
import RegistryBundle.Settings.Basic

/-!
# The field group of a component

Hostnames and ports of the services follow from the name of the registry.

* `FieldGroup.ofComponent` gives the group of a component, which the pod autoscaler lacks;
* `FieldGroup.synthesize` refuses a port without a text, and nothing else:
  `FieldGroup.synthesize_of_writable`.
-/

namespace RegistryBundle

/-- The scanner of a registry. -/
def ScannerGroup.ofDescriptor (d : Descriptor) : ScannerGroup :=
  { enabled := true, endpoint := some s!"http://{d.name}-clair:80", namespaces := ["admin"] }

/-- The key stores of a registry: one host for both. -/
def RedisGroup.ofDescriptor (d : Descriptor) : RedisGroup :=
  let endpoint : RedisEndpoint := { host := d.name ++ "-quay-redis" }
  { buildLogs := some endpoint, userEvents := some endpoint }

/-- The address of a registry's database with its login. -/
def Credentials.uri (c : Credentials) (d : Descriptor) : String :=
  s!"postgresql://{c.user}:{c.password}@{d.name}-quay-postgres:" ++
    String.ofList (intText c.port) ++ "/" ++ c.database

/-- The database of a registry. -/
def DatabaseGroup.ofDescriptor (c : Credentials) (d : Descriptor) : DatabaseGroup :=
  { uri := some (c.uri d) }

/-- The location of the storage. -/
def storageLocation : String := "local_us"

/-- The driver of the storage. -/
def storageDriver : String := "RadosGWStorage"

/-- The storage of a registry, by its annotations. -/
def StorageGroup.ofDescriptor (d : Descriptor) : StorageGroup :=
  let args : StorageArgs :=
    { hostname := d.storageHost, bucket := d.storageBucket, accessKey := d.storageAccessKey,
      secretKey := d.storageSecretKey }
  { proxy := true, preference := [storageLocation], defaultLocations := [storageLocation],
    locations := [(storageLocation, { driver := storageDriver, args := args })] }

/-- The hostname that a registry has unless the user chooses one. -/
def Descriptor.routeHost (d : Descriptor) : String :=
  s!"{d.name}-quay-{d.space}.{d.clusterHost}"

/-- The hostname of a registry. -/
def HostGroup.ofDescriptor (d : Descriptor) : HostGroup :=
  { hostname := d.routeHost, scheme := "https" }

/-- The group of a component. -/
def FieldGroup.ofComponent (settings : Settings) (d : Descriptor) : Component → Option FieldGroup
  | .clair => some (.scanner (.ofDescriptor d))
  | .redis => some (.redis (.ofDescriptor d))
  | .postgres => some (.database (.ofDescriptor settings.registry d))
  | .objectStorage => some (.storage (.ofDescriptor d))
  | .route => some (.host (.ofDescriptor d))
  | .podAutoscaler => none

/-- The group of a component, if the numbers in it can be written. -/
def FieldGroup.synthesize (settings : Settings) (d : Descriptor) (c : Component) :
    Except Failure (Option FieldGroup) :=
  if c = .postgres ∧ ¬ settings.registry.writable then .error (.breach .range)
  else .ok (FieldGroup.ofComponent settings d c)

/-- With a port that can be written, every component has the group that it should have. -/
theorem FieldGroup.synthesize_of_writable {settings : Settings} (h : settings.registry.writable)
    (d : Descriptor) (c : Component) :
    FieldGroup.synthesize settings d c = .ok (FieldGroup.ofComponent settings d c) := by
  simp [FieldGroup.synthesize, h]

end RegistryBundle
