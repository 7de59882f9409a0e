import RegistryBundle.Document

/-!
# Forms of field groups

A field group as a tree of named fields, from which its documents are made. A field has a name of
its own and the key that the registry knows.

* `Form.dump` gives every field by name or by key;
* `Form.written` gives the fields that have a value, by key, as plain data,
  and `Form.encode` its page.
-/

namespace RegistryBundle

/-- A field by its own name and by the key that the registry knows. -/
structure FieldName where
  name : String
  key : String
deriving DecidableEq, Repr

/-- A field whose key is its name. -/
def FieldName.same (s : String) : FieldName := ⟨s, s⟩

/-- A tree of fields. -/
inductive Form where
  | value (v : Value)
  | record (fields : List (FieldName × Form))
  | table (entries : List (String × Form))
  | items (forms : List Form)

namespace Form

/-- A field without a value. -/
def absent : Form := .value .null

/-- Whether a field has no value. -/
def isAbsent : Form → Bool
  | .value v => match v.bare with
    | .null => true
    | _ => false
  | _ => false

mutual

/-- The whole tree, its fields by the names that `choose` takes. -/
def dump (choose : FieldName → String) : Form → Value
  | .value v => v
  | .record fields => .map (dumpFields choose fields)
  | .table entries => .map (dumpEntries choose entries)
  | .items forms => .list (dumpItems choose forms)

/-- Each field. -/
def dumpFields (choose : FieldName → String) : List (FieldName × Form) → Entries
  | [] => []
  | (n, f) :: rest => (.str (choose n), dump choose f) :: dumpFields choose rest

/-- Each entry. -/
def dumpEntries (choose : FieldName → String) : List (String × Form) → Entries
  | [] => []
  | (n, f) :: rest => (.str n, dump choose f) :: dumpEntries choose rest

/-- Each item. -/
def dumpItems (choose : FieldName → String) : List Form → List Value
  | [] => []
  | f :: rest => dump choose f :: dumpItems choose rest

end

mutual

/-- The fields that have a value, by key and as plain data. -/
def written : Form → Except Failure Value
  | .value v => Document.plainForm v
  | .record fields => (writtenFields fields).map .map
  | .table entries => (writtenEntries entries).map .map
  | .items forms => (writtenItems forms).map .list

/-- Each field that has a value. -/
def writtenFields : List (FieldName × Form) → Except Failure Entries
  | [] => .ok []
  | (n, f) :: rest =>
    if f.isAbsent then writtenFields rest
    else do
      let v ← written f
      let vs ← writtenFields rest
      return (.str n.key, v) :: vs

/-- Each entry. -/
def writtenEntries : List (String × Form) → Except Failure Entries
  | [] => .ok []
  | (n, f) :: rest => do
    let v ← written f
    let vs ← writtenEntries rest
    return (.str n, v) :: vs

/-- Each item. -/
def writtenItems : List Form → Except Failure (List Value)
  | [] => .ok []
  | f :: rest => do
    let v ← written f
    let vs ← writtenItems rest
    return v :: vs

end

/-- The page of a form. -/
def encode (f : Form) : Except Failure String := do
  Document.encode (← f.written)

end Form

end RegistryBundle
