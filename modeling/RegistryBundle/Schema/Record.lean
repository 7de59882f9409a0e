import RegistryBundle.Schema.Scalar
import RegistryBundle.Table
import RegistryBundle.Value.Text

/-!
# Collections of a schema

Lists, mappings and records. A record is read from a mapping field by field; a field may
go by several names, of which the first that is present counts, and entries of other names
are left out of account.

* `Schema.required` and `Schema.field` read one field; `required_put`,
  `field_absent` say what they find.
-/

namespace RegistryBundle.Schema

-- The bound `2 ^ 63` is a power of `Nat` by core's `instPowNat`, not by the monoid that Mathlib
-- makes of `Nat`.
attribute [local instance (high)] instPowNat

variable {A : Alphabet}

/-- A value or null. -/
def optional (check : Value A → Checked α) (v : Value A) : Checked (Option α) :=
  match v.bare with
  | .null => .fits none
  | v => (check v).map some

/-- The items of a list, a pair or a set. -/
def items? (v : Value) : Option (List Value) :=
  match v.bare with
  | .list items | .set items => some items
  | .pair a b => some [a, b]
  | _ => none

/-- A list of values. -/
def listOf (check : Value → Checked α) (v : Value) : Checked (List α) :=
  match items? v with
  | some items => Checked.each (items.zipIdx.map fun p => (check p.1).under (.index p.2))
  | none => .issue .listExpected

/-- The step to an entry: its key as a text, or as a number where the key is one. -/
def stepOf (key : Value A) : Step :=
  match key.bare with
  | .str s => .name s
  | .broken _ t => .name t.marked
  | .bool b => .index (if b then 1 else 0)
  | .int n =>
    if -(2 ^ (63 : Nat)) ≤ n ∧ n < 2 ^ (63 : Nat) then .index n
      else .name (String.ofList (intText n))
  | k => .name (((k.quoted?).map String.ofList).getD "")

/-- The entries of a mapping from texts; a key that is no text is an issue of its own. -/
def entriesOf {κ : Type} [TextOver A κ] (check : Value A → Checked α) (v : Value A) :
    Checked (List (κ × α)) :=
  match v.bare with
  | .map entries =>
    Checked.each (entries.map fun e =>
      Prod.mk <$> ((text e.1).under (.name "[key]")).under (stepOf e.1) <*>
        (check e.2).under (stepOf e.1))
  | _ => .issue .mappingExpected

/-- A mapping from texts, of which equal ones count once, with the last value. -/
def mappingOf {κ : Type} [TextOver A κ] [DecidableEq κ] (check : Value A → Checked α)
    (v : Value A) : Checked (Table α κ) :=
  (entriesOf check v).map Table.ofList

/-- The entries of a record. -/
def record (fields : Entries A → Checked α) (v : Value A) : Checked α :=
  match v.bare with
  | .map entries => fields entries
  | _ => .issue .recordExpected

/-- What stands under the first of several names that is present, with that name. -/
def findFirst (entries : Entries A) : List String → Option (String × Value A)
  | [] => none
  | name :: rest =>
    match Value.get? entries name with
    | some v => some (name, v)
    | none => findFirst entries rest

/-- A field that has a default; it goes by any of several names. -/
def field (check : Value A → Checked α) (default : α) (names : List String)
    (entries : Entries A) : Checked α :=
  match findFirst entries names with
  | some (name, v) => (check v).under (.name name)
  | none => .fits default

/-- A field that must be present. -/
def required (check : Value A → Checked α) (name : String) (entries : Entries A) : Checked α :=
  match Value.get? entries name with
  | some v => (check v).under (.name name)
  | none => (Checked.issue .missing).under (.name name)

/-- A field that is present is read, whatever else the record holds. -/
theorem required_put (check : Value A → Checked α) (name : String) (entries : Entries A)
    (v : Value A) :
    required check name (Value.put entries (.str name) v) = (check v).under (.name name) := by
  simp [required, Value.get?_put_self]

/-- A field that is absent has its default. -/
theorem field_absent (check : Value A → Checked α) (default : α) (name : String)
    (entries : Entries A) (h : Value.get? entries name = none) :
    field check default [name] entries = .fits default := by
  simp [field, findFirst, h]

end RegistryBundle.Schema
