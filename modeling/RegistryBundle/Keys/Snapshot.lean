import RegistryBundle.Descriptor
import RegistryBundle.Failure

/-!
# Snapshots of secret keys

The secret keys of a registry as they are kept between runs: texts by name, and octets by name from
times when they were kept so. A name stands once among the texts, and once among the octets.

* `Snapshot.lookup` finds a key, `Snapshot.withValue` writes one;
* `Snapshot.manifest` and `Snapshot.ofManifest` write and read the form that is kept.
-/

namespace RegistryBundle

-- Snapshots compare octets by the core instance, where Batteries would bring its own,
-- `instDecidableEq_batteries`.
attribute [local instance (high)] ByteArray.instDecidableEq

/-- A name under which a secret key is kept. -/
inductive ManagedKey where
  | secret
  | database
deriving DecidableEq, Repr

/-- The name of a managed key, in the configuration and in the snapshot. -/
def ManagedKey.name : ManagedKey → String
  | secret => "SECRET_KEY"
  | database => "DATABASE_SECRET_KEY"

/-- The kept keys of a registry, under names that are texts of some kind, as the keys are. -/
structure Snapshot (τ : Type := String) where
  name : τ
  /-- The namespace of the registry. -/
  space : τ
  texts : Table τ τ := []
  octets : Table ByteArray τ := []
  nodupTexts : (texts.map Prod.fst).Nodup := by decide
  nodupOctets : (octets.map Prod.fst).Nodup := by decide
deriving DecidableEq

namespace Snapshot

/-- The snapshot of a registry without keys. -/
def emptyFor (d : Descriptor) : Snapshot :=
  { name := d.secretKeysName, space := d.space }

/-- The text that octets encode. -/
def decode (b : ByteArray) : Except Failure String :=
  match String.fromUTF8? b with
  | some s => .ok s
  | none => .error (.breach .encoding)

/-- The key of a name, an empty one counting as absent; a text is preferred to octets. -/
def lookup (s : Snapshot) (name : String) : Except Failure (Option String) :=
  match s.texts.lookup name with
  | some t => if t = "" then ofOctets else .ok (some t)
  | none => ofOctets
where
  /-- The key among the octets. -/
  ofOctets : Except Failure (Option String) :=
    match s.octets.lookup name with
    | some b => if b.size = 0 then .ok none else (decode b).map some
    | none => .ok none

/-- The snapshot with a text under a name. -/
def withValue (s : Snapshot) (name value : String) : Snapshot :=
  { s with
    texts := Table.put name value s.texts
    nodupTexts := Table.nodup_put s.nodupTexts name value }

/-- The form in which a snapshot is kept. -/
def manifest (s : Snapshot) : Except Failure Value := do
  let texts := Value.record (s.texts.map fun e => (e.1, .str e.2))
  let base := [("name", .str s.name), ("namespace", .str s.space), ("string_data", texts)]
  if s.octets.isEmpty then return .record base
  else
    let decoded ← s.octets.mapM fun e => do
      let t ← decode e.2
      return (e.1, Value.str t)
    return .record (base ++ [("data", .record decoded)])

section Manifests

variable {A : Alphabet} {τ : Type} [TextOver A τ] [DecidableEq τ]

/-- Octets, given as such or as a text. -/
def checkOctets (v : Value A) : Checked ByteArray :=
  match v.bare with
  | .bytes b => .fits b
  | .str s => .fits s.toUTF8
  | .broken .. => .issue .textEncoding
  | _ => .issue .octetsExpected

/-- The snapshot of entries, of which the last under a name counts. -/
def ofEntries (name space : τ) (texts : List (τ × τ)) (octets : List (τ × ByteArray)) :
    Snapshot τ where
  name := name
  space := space
  texts := Table.ofList texts
  octets := Table.ofList octets
  nodupTexts := Table.nodup_ofList texts
  nodupOctets := Table.nodup_ofList octets

/-- The snapshot that a mapping of its parts holds. -/
def ofValue : Value A → Checked (Snapshot τ) :=
  Schema.record fun es =>
    ofEntries <$> Schema.required Schema.text "name" es
      <*> Schema.field Schema.text (TextOver.ofString defaultSpace) ["namespace"] es
      <*> Schema.field (Schema.entriesOf Schema.text) [] ["string_data"] es
      <*> Schema.field (Schema.entriesOf checkOctets) [] ["data"] es

/-- A letter as a text. -/
def ofLetter (h : A = .letters) : Letter → Value A
  | .char c => .str (String.singleton c)
  | .half n => .broken h ⟨[.half n], rfl⟩

/-- The items of a value that has items: those of a list, the keys of a mapping,
the letters of a text. -/
def itemsOf (v : Value A) : Except ManifestFault (List (Value A)) :=
  match v.bare with
  | .list xs | .set xs => .ok xs
  | .pair a b => .ok [a, b]
  | .map es => .ok (es.map Prod.fst)
  | .str s => .ok (s.toList.map fun c => .str (String.singleton c))
  | .broken h t => .ok (t.letters.map (ofLetter h))
  | .bytes b => .ok (b.toList.map fun (o : UInt8) => .int o.toNat)
  | _ => .error (.breach .operation)

/-- The entry that an item of two items is. -/
def entryOfItem (item : Value A) : Except ManifestFault (Value A × Value A) := do
  match ← itemsOf item with
  | [a, b] => if a.hashable then return (a, b) else throw (.breach .operation)
  | _ => throw (.breach .range)

/-- A value as a mapping: it is one, or its items are entries. -/
def asEntries (v : Value A) : Except ManifestFault (Entries A) :=
  match v.bare with
  | .map es => .ok es
  | v => do
    let entries ← (← itemsOf v).mapM entryOfItem
    return Value.ofList entries

/-- What stands under a name, anything empty or null counting as the empty mapping. -/
def partOf (es : Entries A) (name : String) : Value A :=
  match Value.get? es name with
  | some v => if v.truthy then v else .map []
  | none => .map []

/-- Why a value has no octets: it is a broken text, or has no text. -/
def textBreach (v : Value A) : Breach :=
  match v.bare with
  | .broken .. => .unencodable
  | _ => .range

/-- The octets of the text of a value. -/
def octetsOf (e : Value A × Value A) : Except ManifestFault (Value A × Value A) :=
  match e.2.text? with
  | some t => .ok (e.1, .bytes t.toUTF8)
  | none => .error (.breach (textBreach e.2))

/-- Why a mapping is no manifest. -/
inductive ManifestError where
  /-- It has no name. -/
  | nameless
  | fault (f : ManifestFault)
deriving DecidableEq, Repr

/-- The parts of a snapshot that a mapping holds; each kept octet sequence
is the text of its value. -/
def partsOfManifest (es : Entries A) : Except ManifestError (List (String × Value A)) :=
  match Value.get? es "name" with
  | none => .error .nameless
  | some name => do
    let texts ← (asEntries (partOf es "string_data")).mapError .fault
    match (partOf es "data").bare with
    | .map entries =>
      let octets ← (entries.mapM octetsOf).mapError .fault
      return [("name", name), ("namespace", (Value.get? es "namespace").getD (.str defaultSpace)),
        ("string_data", .map texts), ("data", .map octets)]
    | _ => .error (.fault (.breach .part))

/-- The snapshot that a manifest holds. -/
def ofManifest (es : Entries A) : Except ManifestError (Snapshot τ) := do
  match ofValue (.record (← partsOfManifest es)) with
  | .fits s => return s
  | .issues all => .error (.fault (.invalid all))

end Manifests

/-- The failure of a manifest that comes from no file. -/
def ManifestError.failure : ManifestError → Failure
  | nameless => .breach .key
  | fault (.breach b) => .breach b
  | fault (.invalid issues) => .invalid issues

end Snapshot

end RegistryBundle
