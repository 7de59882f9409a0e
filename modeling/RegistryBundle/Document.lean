import RegistryBundle.Failure
import RegistryBundle.Yaml.Node.OfValue
import RegistryBundle.Yaml.Node.ToValue

/-!
# Documents

The page of a value and the value of a page, with the failures of both.

* `Document.encode` writes a value with sorted keys in block style; `Document.decode` reads a page;
* `Document.plainForm` gives values the form that any reader of plain data knows.
-/

namespace RegistryBundle.Document

/-- The failure behind an error of the writer; `v` is the document. -/
def writeFailure (v : Value) : Yaml.WriteError → Failure
  | .foreignObject => .unwritable v.typeName
  | .longInteger => .breach .range

/-- The page of a value. -/
def encode (v : Value) : Except Failure String :=
  (Yaml.write v).mapError (writeFailure v)

/-- The value of a page. -/
def decode (s : String) : Except Failure Value :=
  (Yaml.read s).mapError fun f => .breach (.ofFault f)

/-- A key of plain data, which is a text. -/
def plainKey (k : Value) : Except Failure String :=
  match k.bare with
  | .str s => .ok s
  | .bool b => .ok (if b then "true" else "false")
  | .bytes b =>
    match String.fromUTF8? b with
    | some s => .ok s
    | none => .error (.breach .writing)
  | .foreign => .error (.breach .writing)
  | v =>
    match v.text? with
    | some s => .ok s
    | none => .error (.breach .range)

mutual

/-- A value as plain data: octets as the text they encode, keys as texts, no foreign objects. -/
def plainForm : Value → Except Failure Value
  | .bytes b =>
    match String.fromUTF8? b with
    | some s => .ok (.str s)
    | none => .error (.breach .writing)
  | .list items => (plainItems items).map .list
  | .pair a b => do
    let x ← plainForm a
    let y ← plainForm b
    return .list [x, y]
  | .set items => (plainItems items).map .list
  | .map entries => (plainEntries entries).map fun es => .map (Value.ofList es)
  | .date d => .ok (.str (String.ofList d.toText))
  | .moment t => .ok (.str (String.ofList (t.toText 'T')))
  | .foreign => .error (.breach .writing)
  | .shared _ v => plainForm v
  | v => .ok v

/-- Items as plain data. -/
def plainItems : List Value → Except Failure (List Value)
  | [] => .ok []
  | v :: rest => do
    let x ← plainForm v
    let xs ← plainItems rest
    return x :: xs

/-- Entries as plain data. -/
def plainEntries : List (Value × Value) → Except Failure (List (Value × Value))
  | [] => .ok []
  | (k, v) :: rest => do
    let key ← plainKey k
    let x ← plainForm v
    let xs ← plainEntries rest
    return (.str key, x) :: xs

end

end RegistryBundle.Document
