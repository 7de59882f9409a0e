import RegistryBundle.Number.Binary64
import RegistryBundle.Text.Letter
import RegistryBundle.Time.Calendar

/-!
# Document values

`Value` is whatever a configuration document can hold. Mappings keep the order in which their
entries were made, and a key occurs once: `put` replaces the value of an equal key and leaves the
key where it was.

* `Value.sameKey` is equality of keys: numbers of every kind are equal when
  they denote the same number;
* `get?_put_self`, `get?_put_other`: what a mapping holds under a text key after a write;
* `Value.plain` forgets which parts are one object, and nothing else.
-/

namespace RegistryBundle

/-- A value of a configuration document over an alphabet. -/
inductive Value (A : Alphabet := .characters) where
  | null
  | bool (b : Bool)
  | int (n : Int)
  | float (x : Binary64)
  | str (s : String)
  /-- A text that no octets encode. -/
  | broken (h : A = .letters) (t : BrokenText)
  | bytes (b : ByteArray)
  | date (d : Date)
  | moment (t : Moment)
  | list (items : List (Value A))
  /-- One entry of a list of entries. -/
  | pair (first second : Value A)
  | set (items : List (Value A))
  | map (entries : List (Value A × Value A))
  /-- An object that no document can hold. -/
  | foreign
  /-- An object that may occur at several places, all of which carry its label. -/
  | shared (label : Nat) (value : Value A)
  /-- An object inside itself. -/
  | cycle (label : Nat)

variable {A : Alphabet}

instance : Inhabited (Value A) := ⟨.null⟩

/-- The entries of a mapping, in the order they were made. -/
abbrev Entries (A : Alphabet := .characters) := List (Value A × Value A)

/-- The two kinds of numbers that keys and orders compare. -/
inductive Quantity where
  | whole (n : Int)
  | double (x : Binary64)

namespace Quantity

/-- The order of two numbers by what they denote; none where one of them is a NaN. -/
def compare : Quantity → Quantity → Option Ordering
  | .whole a, .whole b => some (Ord.compare a b)
  | .double x, .double y => x.compare y
  | .whole a, .double y => wholeDouble a y
  | .double x, .whole b => (wholeDouble b x).map Ordering.swap
where
  /-- The order of a whole number and a double. -/
  wholeDouble (a : Int) : Binary64 → Option Ordering
    | .nan => none
    | .infinite s => some (if s then .gt else .lt)
    | .finite s m e =>
      let (n, d) := Binary64.toRatio s m e
      some (Ord.compare (a * d) n)

end Quantity

namespace Value

/-- The name of a value's type, as messages give it. -/
def typeName : Value → String
  | null => "NoneType"
  | bool _ => "bool"
  | int _ => "int"
  | float _ => "float"
  | str _ => "str"
  | bytes _ => "bytes"
  | date _ => "date"
  | moment _ => "datetime"
  | list _ => "list"
  | pair .. => "tuple"
  | set _ => "set"
  | map _ => "dict"
  | foreign => "Opaque"
  | shared _ v => v.typeName
  | cycle _ => "list"

/-- A value counts as true unless it is null, false, zero or empty. -/
def truthy : Value A → Bool
  | null => false
  | bool b => b
  | int n => n != 0
  | float x => !x.isZero
  | str s => s != ""
  | bytes b => b.size != 0
  | list items => !items.isEmpty
  | set items => !items.isEmpty
  | map entries => !entries.isEmpty
  | shared _ v => v.truthy
  | _ => true

/-- The number a value is, truth values counting as one and zero. -/
def quantity? : Value A → Option Quantity
  | bool b => some (.whole (if b then 1 else 0))
  | int n => some (.whole n)
  | float x => some (.double x)
  | _ => none

/-- The value at the top, without the label of its object. -/
def bare : Value A → Value A
  | shared _ v => v.bare
  | v => v

/-- Whether two values are the same key. -/
def sameKey (a b : Value A) : Bool :=
  match a.bare, b.bare with
  | null, null => true
  | str s, str t => s == t
  | broken _ s, broken _ t => s == t
  | bytes x, bytes y => x == y
  | date x, date y => x == y
  | moment x, moment y =>
    x.offset.isSome == y.offset.isSome && x.universalSeconds == y.universalSeconds &&
      x.microsecond == y.microsecond
  | x, y =>
    match x.quantity?, y.quantity? with
    | some p, some q => p.compare q == some .eq
    | _, _ => false

/-- Whether a value can be a key. -/
def hashable : Value A → Bool
  | list _ | set _ | map _ | cycle _ => false
  | pair a b => a.hashable && b.hashable
  | shared _ v => v.hashable
  | _ => true

/-- The entries with `value` under `key`: in the place of an equal key, else at the end. -/
def put (entries : List (Value A × α)) (key : Value A) (value : α) : List (Value A × α) :=
  match entries with
  | [] => [(key, value)]
  | (k, v) :: rest => if k.sameKey key then (k, value) :: rest else (k, v) :: put rest key value

/-- The entries made by writing one after another. -/
def ofList (entries : List (Value A × α)) : List (Value A × α) :=
  entries.foldl (fun acc e => put acc e.1 e.2) []

/-- What the entries hold under a key. -/
def find? (entries : List (Value A × α)) (key : Value A) : Option α :=
  (entries.find? fun e => e.1.sameKey key).map Prod.snd

/-- What the entries hold under a text. -/
def get? (entries : List (Value A × α)) (name : String) : Option α :=
  find? entries (.str name)

/-- The entries without the one under a text. -/
def erase (entries : List (Value A × α)) (name : String) : List (Value A × α) :=
  entries.filter fun e => !e.1.sameKey (.str name)

/-- A mapping whose keys are texts. -/
def record (fields : List (String × Value A)) : Value A :=
  .map (fields.map fun f => (.str f.1, f.2))

theorem sameKey_str_str (s t : String) : sameKey (A := A) (.str s) (.str t) = (s == t) := rfl

/-- Only a text is the same key as a text. -/
theorem sameKey_str_iff (k : Value A) (s : String) :
    k.sameKey (.str s) = true ↔ k.bare = .str s := by
  unfold sameKey
  cases h : k.bare <;> simp [bare, quantity?]

@[simp] theorem get?_nil (name : String) : get? ([] : List (Value A × α)) name = none := rfl

theorem get?_cons (e : Value A × α) (rest : List (Value A × α)) (name : String) :
    get? (e :: rest) name = if e.1.sameKey (.str name) then some e.2 else get? rest name := by
  unfold get? find?
  rw [List.find?_cons]
  cases e.1.sameKey (.str name) <;> rfl

/-- Under the text just written stands the value just written. -/
theorem get?_put_self (entries : List (Value A × α)) (name : String) (v : α) :
    get? (put entries (.str name) v) name = some v := by
  induction entries with
  | nil => simp [put, get?_cons, sameKey_str_str]
  | cons e rest ih =>
    unfold put
    split
    · next h => simp [get?_cons, h]
    · next h => simp [get?_cons, h, ih]

/-- A write under one text changes nothing under another. -/
theorem get?_put_other {entries : List (Value A × α)} {key name : String} (h : key ≠ name) (v : α) :
    get? (put entries (.str key) v) name = get? entries name := by
  have hk : sameKey (A := A) (.str key) (.str name) = false := by simpa [sameKey_str_str] using h
  induction entries with
  | nil => simp [put, get?_cons, hk]
  | cons e rest ih =>
    unfold put
    split
    · next he =>
      have hn : e.1.sameKey (.str name) = false := by
        rw [Bool.eq_false_iff, Ne, sameKey_str_iff, (sameKey_str_iff _ _).mp he]
        simpa using h
      simp [get?_cons, hn]
    · simp [get?_cons, ih]

/-- Nothing stands under a text that was erased. -/
theorem get?_erase_self (entries : List (Value A × α)) (name : String) :
    get? (erase entries name) name = none := by
  unfold get? find? erase
  rw [List.find?_filter]
  simp

mutual

/-- The value without the labels of its objects. -/
def plain : Value → Value
  | .list items => .list (plainItems items)
  | .pair a b => .pair a.plain b.plain
  | .set items => .set (plainItems items)
  | .map entries => .map (plainEntries entries)
  | .shared _ v => v.plain
  | v => v

/-- Each item without labels. -/
def plainItems : List Value → List Value
  | [] => []
  | v :: rest => v.plain :: plainItems rest

/-- Each key and value without labels. -/
def plainEntries : List (Value × Value) → List (Value × Value)
  | [] => []
  | (k, v) :: rest => (k.plain, v.plain) :: plainEntries rest

end

end Value

end RegistryBundle
