import RegistryBundle.Schema.Record

/-!
# Registry descriptors

What the control plane says about a registry: its name, its namespace, and annotations that tell
where its storage and its cluster are.

* `Descriptor.ofValue` reads one from a document;
* `Descriptor.annotation` looks an annotation up, an absent one being empty.
-/

namespace RegistryBundle

/-- The namespace of a registry that names none. -/
def defaultSpace : String := "default"

/-- A registry and its surroundings. -/
structure Descriptor where
  name : String
  /-- The namespace of the registry. -/
  space : String := defaultSpace
  annotations : Table String := []
deriving DecidableEq, Repr

namespace Descriptor

/-- The descriptor that a mapping holds. -/
def ofValue : Value → Checked Descriptor :=
  Schema.record fun es =>
    Descriptor.mk <$> Schema.required Schema.text "name" es
      <*> Schema.field Schema.text defaultSpace ["namespace"] es
      <*> Schema.field (Schema.mappingOf Schema.text) [] ["annotations"] es

/-- The text of an annotation; an absent one is empty. -/
def annotation (d : Descriptor) (key : String) : String :=
  (d.annotations.lookup key).getD ""

/-- Where the object storage is. -/
def storageHost (d : Descriptor) : String :=
  d.annotation "quay-storage-hostname"

/-- The bucket in the object storage. -/
def storageBucket (d : Descriptor) : String :=
  d.annotation "quay-storage-bucket"

/-- The access key of the object storage. -/
def storageAccessKey (d : Descriptor) : String :=
  d.annotation "quay-storage-access-key"

/-- The secret key of the object storage. -/
def storageSecretKey (d : Descriptor) : String :=
  d.annotation "quay-storage-secret-key"

/-- The hostname of the cluster. -/
def clusterHost (d : Descriptor) : String :=
  d.annotation "quay-cluster-hostname"

/-- The name under which the secret keys of a registry are kept. -/
def secretKeysName (d : Descriptor) : String :=
  d.name ++ "-quay-registry-managed-secret-keys"

end Descriptor

end RegistryBundle
