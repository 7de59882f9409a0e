import RegistryBundle.Document
import RegistryBundle.Files.Text
import RegistryBundle.Files.Tree
import RegistryBundle.Keys.Snapshot

/-!
# Loading of the input files

The descriptor of a registry, the user's configuration and the kept secret
keys, each from a document.

* `Loading.documentOver` reads any document; a file that cannot be read or is not in the format is a
  fault of the configuration;
* `Loading.descriptor`, `Loading.userConfig`, `Loading.secretKeys` read the three files, which are
  documents over the characters;
* `Loading.secretKeysOver` reads the secret keys as texts of any kind.
-/

namespace RegistryBundle.Loading

section Texts

variable {A : Alphabet}

/-- The value of the document in a file. -/
def documentOver (A : Alphabet) (t : Tree) (p : FilePath) : Except Failure (Value A) :=
  match t.read p with
  | .error trouble => .error (.config (.unreadable p.text (.trouble trouble)))
  | .ok bytes =>
    match FileText.ofBytes? bytes with
    | none => .error (.breach .encoding)
    | some s =>
      match Yaml.readOver A .older s with
      | .ok v => .ok v
      | .error (.malformed _) => .error (.config (.unreadable p.text .malformed))
      | .error f => .error (.breach (.ofFault f))

/-- The entries of a value, which must be a mapping. -/
def mapping (p : FilePath) (v : Value A) : Except Failure (Entries A) :=
  match v.bare with
  | .map es => .ok es
  | _ => .error (.config (.notMapping p.text))

variable {τ : Type} [TextOver A τ] [DecidableEq τ]

/-- The snapshot of a manifest in a file; a fault in what the operator provides
is reported with the file. -/
def ofManifest (p : FilePath) (es : Entries A) : Except Failure (Snapshot τ) :=
  match Snapshot.ofManifest es with
  | .ok s => .ok s
  | .error .nameless => .error (.config (.keyMissing p.text "name"))
  | .error (.fault f) =>
    if f.isConfiguration then .error (.config (.manifestRejected p.text f))
    else .error (Snapshot.ManifestError.fault f).failure

/-- The kept secret keys; none without a file, and in a file with nothing that counts as true. -/
def secretKeysOver (τ : Type) [TextOver A τ] [DecidableEq τ] (t : Tree) :
    Option FilePath → Except Failure (Option (Snapshot τ))
  | none => .ok none
  | some p => do
    if !t.hasPath p then return none
    let v ← documentOver A t p
    if v.truthy then some <$> (mapping p v >>= ofManifest p) else return none

end Texts

/-- The value of the document in a file, over the characters. -/
def document (t : Tree) (p : FilePath) : Except Failure Value :=
  documentOver .characters t p

/-- The entries of a part, which a value that is no mapping does not have. -/
def partEntries (v : Value) : Except Failure Entries :=
  match v.bare with
  | .map es => .ok es
  | _ => .error (.breach .part)

/-- The text of a value. -/
def textOf (v : Value) : Except Failure String :=
  match v.text? with
  | some s => .ok s
  | none => .error (.breach .range)

/-- Annotations with keys and values as texts. -/
def annotations (metadata : Entries) : Except Failure Entries :=
  match (Value.get? metadata "annotations").filter Value.truthy with
  | none => .ok []
  | some v => do
    let es ← partEntries v
    let texts ← es.mapM fun e => do
      let k ← textOf e.1
      let v ← textOf e.2
      return (Value.str k, Value.str v)
    return Value.ofList texts

/-- The registry that metadata describe. -/
def ofMetadata (p : FilePath) (metadata : Value) : Except Failure Descriptor := do
  let es ← partEntries metadata
  match (Value.get? es "name").filter Value.truthy with
  | none => throw (.config (.nameless p.text))
  | some name =>
    let notes ← annotations es
    let fields := [("name", name),
      ("namespace", (Value.get? es "namespace").getD (.str defaultSpace)),
      ("annotations", Value.map notes)]
    (Descriptor.ofValue (.record fields)).orFail .invalid

/-- The registry that a file describes, under `metadata` or at the top. -/
def descriptor (t : Tree) (p : FilePath) : Except Failure Descriptor := do
  let v ← document t p
  let es ← mapping p v
  ofMetadata p ((Value.get? es "metadata").getD v)

/-- The user's configuration; without a file, and in a file with nothing that
counts as true, it is empty. -/
def userConfig (t : Tree) : Option FilePath → Except Failure Entries
  | none => .ok []
  | some p => do
    let v ← document t p
    if v.truthy then mapping p v else return []

/-- The kept secret keys that are texts of characters. -/
def secretKeys (t : Tree) (p : Option FilePath) : Except Failure (Option Snapshot) :=
  secretKeysOver String t p

end RegistryBundle.Loading
