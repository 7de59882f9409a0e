import RegistryBundle.Text.Base64
import RegistryBundle.Value.Order
import RegistryBundle.Value.Text
import RegistryBundle.Yaml.Node.Layout

/-!
# The node of a value

Every value but an object that no document can hold has a node: a scalar for what has no parts, a
sequence for a list, a mapping in the order of its keys for a mapping.

* `Node.ofValue` is the node of a value;
* `WriteError` says why there is none.
-/

namespace RegistryBundle.Yaml

/-- Why a value cannot be written. -/
inductive WriteError where
  /-- An object that no document can hold. -/
  | foreignObject
  /-- A whole number with too many digits. -/
  | longInteger
deriving DecidableEq, Repr

/-- The spelling of doubles in a document. -/
def floatFormat : FloatFormat := ⟨".nan", ".inf", true⟩

namespace Node

/-- A scalar with the text of a `String`. -/
def word (t : Tag) (s : String) : Node :=
  .scalar t s.toList

mutual

/-- The node of a value. -/
def ofValue : Value → Except WriteError Node
  | .null => .ok (word .null "null")
  | .bool b => .ok (word .bool (if b then "true" else "false"))
  | .int n =>
    match intText? n with
    | some s => .ok (.scalar .int s)
    | none => .error .longInteger
  | .float x => .ok (.scalar .float (x.toText floatFormat))
  | .str s => .ok (.scalar .str s.toList)
  | .bytes b => .ok (.scalar .binary (Base64.encode b.toList))
  | .date d => .ok (.scalar .timestamp d.toText)
  | .moment t => .ok (.scalar .timestamp (t.toText ' '))
  | .list items => (ofItems items).map (.sequence .seq)
  | .pair a b => do
    let x ← ofValue a
    let y ← ofValue b
    return .sequence .seq [x, y]
  | .set items => do
    let entries ← (Value.sortByKey (ofMembers items)).mapM Prod.snd
    return .mapping .set entries
  | .map entries => do
    let entries ← (Value.sortByKey (ofEntries entries)).mapM Prod.snd
    return .mapping .map entries
  | .foreign => .error .foreignObject
  | .shared l v => (ofValue v).map (.anchored l)
  | .cycle l => .ok (.reference l)

/-- The nodes of items. -/
def ofItems : List Value → Except WriteError (List Node)
  | [] => .ok []
  | v :: rest => do
    let n ← ofValue v
    let ns ← ofItems rest
    return n :: ns

/-- The members of a set as entries with null for a value. -/
def ofMembers : List Value → List (Value × Except WriteError (Node × Node))
  | [] => []
  | v :: rest => (v, (ofValue v).map fun n => (n, word .null "null")) :: ofMembers rest

/-- Entries as nodes, each with its key for the order. -/
def ofEntries : List (Value × Value) → List (Value × Except WriteError (Node × Node))
  | [] => []
  | (k, v) :: rest =>
    (k, do
      let x ← ofValue k
      let y ← ofValue v
      return (x, y)) :: ofEntries rest

end

end Node

/-- The page of a value: a document in block style with sorted keys. -/
def write (v : Value) : Except WriteError String :=
  (Node.ofValue v).map fun n => String.ofList n.page

end RegistryBundle.Yaml
