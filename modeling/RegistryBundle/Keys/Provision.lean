import RegistryBundle.Keys.Snapshot
import RegistryBundle.Run.Action

/-!
# Provision of secret keys

A secret key that the user's configuration holds is taken from there, else one that the snapshot
holds; only where neither has it a new key is made of random octets and kept in a new snapshot.

* `SecretKey.ofOctets` makes a key of octets, one symbol of each;
* `SecretKey.resolve` finds or makes one key, `SecretKey.resolvePair` both managed keys.
-/

namespace RegistryBundle

namespace SecretKey

/-- The symbols of generated keys. -/
def alphabet : List Char :=
  "0123456789ABCDEFGHIJKLMNOPQRSTUVWXYZabcdefghijklmnopqrstuvwxyz-".toList

/-- How many octets make a key. -/
def usualLength : Int := 80

/-- The symbol of an octet, counting from the start again where the alphabet ends. -/
def symbol (o : UInt8) : Char :=
  alphabet.getD (o.toNat % alphabet.length) '0'

/-- The key that octets make. -/
def ofOctets (octets : List UInt8) : String :=
  String.ofList (octets.map symbol)

/-- A new key of as many symbols as octets are asked for. -/
def generate (length : Int) : Action String := do
  let octets ← Action.draw length
  if (octets.length : Int) = length then return ofOctets octets
  else throw (.random (.wrongCount octets.length length))

/-- A key with the snapshot to keep. -/
structure Resolved where
  key : String
  snapshot : Option Snapshot
  /-- Whether the key was made anew, which makes the snapshot a new one. -/
  generated : Bool
deriving DecidableEq

/-- The text that the user's configuration holds under a name. -/
def provided? (config : Entries) (name : String) : Except Failure (Option String) :=
  match Value.get? config name with
  | none => .ok none
  | some v =>
    match v.bare with
    | .str s => .ok (some s)
    | v => .error (.malformedUserValue name (.notText v.typeName))

/-- The key of a name: from the configuration, from the snapshot, or made anew. -/
def resolve (d : Descriptor) (length : Int) (config : Entries) (snapshot : Option Snapshot)
    (name : String) :
    Action Resolved := do
  match ← Action.ofExcept (provided? config name) with
  | some key =>
    Action.report .info .secretKeys s!"Secret key {name} found in provided config"
    return ⟨key, snapshot, false⟩
  | none =>
    match snapshot with
    | some s =>
      match ← Action.ofExcept (s.lookup name) with
      | some key =>
        Action.report .info .secretKeys s!"Secret key {name} found in managed secret {s.name}"
        return ⟨key, snapshot, false⟩
      | none => make s
    | none =>
      Action.report .info .secretKeys s!"Creating a new managed secret for {d.name}"
      make (Snapshot.emptyFor d)
where
  /-- A new key and the snapshot that holds it. -/
  make (s : Snapshot) : Action Resolved := do
    Action.report .info .secretKeys s!"Generating secret key {name}"
    let key ← generate length
    return ⟨key, some (s.withValue name key), true⟩

/-- Both managed keys with the snapshot to keep. -/
structure ResolvedPair where
  secret : String
  database : String
  snapshot : Option Snapshot
  generated : Bool
deriving DecidableEq

/-- Both managed keys, the secret key first. -/
def resolvePair (d : Descriptor) (length : Int) (config : Entries) (snapshot : Option Snapshot) :
    Action ResolvedPair := do
  let first ← resolve d length config snapshot ManagedKey.secret.name
  let second ← resolve d length config first.snapshot ManagedKey.database.name
  return ⟨first.key, second.key, second.snapshot, first.generated || second.generated⟩

/-- A key has one symbol for each octet. -/
theorem length_ofOctets (octets : List UInt8) : (ofOctets octets).length = octets.length := by
  simp [ofOctets]

/-- Every symbol of a key is of the alphabet. -/
theorem symbol_mem_alphabet (o : UInt8) : symbol o ∈ alphabet := by
  have h : o.toNat % alphabet.length < alphabet.length := Nat.mod_lt _ (by decide +kernel)
  simp [symbol, List.getD_eq_getElem?_getD, List.getElem?_eq_getElem h]

end SecretKey

end RegistryBundle
