import RegistryBundle.Settings.Marker
import RegistryBundle.Settings.Merging
import RegistryBundle.Settings.Template
import RegistryBundle.Table

/-!
# Collected settings

The settings that the sources have given so far, by name. Names are kept in capitals at the
top and as written below it. A name without parts sets a whole setting, a name of several
parts one entry of a group.

* `Collection.place` sets what stands under a name: `lookup_place_text`;
* `Collection.assign` does the same for a name of several parts;
* `Collection.cook` finds the value of a recipe, `Collection.entries` all values.
-/

namespace RegistryBundle

-- The sum below starts at the numeral `0`; where Mathlib is imported, it would start at the zero of
-- a semiring.
attribute [local instance (high)] Zero.ofOfNat0

/-- Settings by name. -/
abbrev Collection := Table Setting

namespace Collection

/-! ## Names -/

/-- The text with a point for every two underscores. -/
def pointed : List Char → List Char
  | '_' :: '_' :: rest => '.' :: pointed rest
  | c :: rest => c :: pointed rest
  | [] => []

/-- A name at the top: in capitals, without blanks around it. -/
def topName (cs : List Char) : String :=
  String.ofList (LetterCase.upperText (Unicode.trim Unicode.isBlank cs))

/-! ## Values -/

/-- A reference to a setting: its name, what its value is turned into, and what stands in for it. -/
structure Reference where
  name : List Char
  conversion : Option (List Char) := none
  fallback : List Char := []
deriving DecidableEq, Repr

namespace Reference

/-- A character of a name. -/
def isNameChar (c : Char) : Bool :=
  c.isAlphanum || c == '_' || !LetterCase.isAscii c

/-- The reference that a text is. -/
def ofText (cs : List Char) : Reference :=
  let cs := Unicode.trim Unicode.isBlank cs
  let name := cs.takeWhile fun c => isNameChar c || c == '.'
  match (cs.drop name.length).dropWhile Unicode.isBlank with
  | '@' :: rest =>
    let word := rest.takeWhile isNameChar
    { name := name, conversion := some ('@' :: word)
      fallback := (rest.drop word.length).dropWhile Unicode.isBlank }
  | rest => { name := name, fallback := rest }

/-- The value that stands in for a setting that is not there: a text in quotes, or a value in the
notation of TOML. -/
def fallbackValue? (r : Reference) : Except Breach (Option Setting) :=
  match r.fallback with
  | [] => .ok none
  | quote :: rest =>
    if (quote = '"' || quote = '\'') && rest.getLast? == some quote then
      .ok (some (.text rest.dropLast))
    else (Setting.ofNotation r.fallback).map some

/-- A value turned into what the reference asks for. -/
def converted (r : Reference) (v : Value) : Except Breach Value :=
  match r.conversion with
  | none => .ok v
  | some word =>
    match (Conversion.words.lookup (String.ofList word)).bind (·.convert? v) with
    | some v => .ok v
    | none => .error .marker

/-- The value of a reference; one to a setting that is not there is refused unless
something stands in for it. -/
def value (scope : Template.Scope) (r : Reference) : Except Breach Value := do
  let found ← if r.name.isEmpty then pure none else scope.find? r.name
  match found.or (← r.fallbackValue?) with
  | some s => r.converted (← scope.evaluate s)
  | none => throw .marker

end Reference

/-- What a recipe converts: in a text of JSON single quotes count as double ones. -/
def convertLater (c : Conversion) (v : Value) : Except Breach Value :=
  let v := match c, v with
    | .json, .str s => Value.str (s.map fun x => if x = '\'' then '"' else x)
    | _, v => v
  match c.convert? v with
  | some v => .ok v
  | none => .error .range

/-- The value of a recipe; `fuel` bounds the recipes that lead to one another. -/
def cook (settings : Collection) (environment : Table String) : Nat → Recipe → Except Breach Value
  | 0, _ => .error .circle
  | fuel + 1, r => do
    let scope : Template.Scope :=
      { setting? := fun name => settings.lookup name
        environment? := fun name => environment.lookup name
        evaluate := Setting.evaluate (cook settings environment fuel) }
    let v ← match r.method with
      | .template => (Template.fill scope r.text).map .str
      | .reference => (Reference.ofText r.text).value scope
      | .script => throw .language
    match r.conversion with
    | some c => convertLater c v
    | none => return v

/-- How many recipes there are. -/
def recipes (settings : Collection) : Nat :=
  (settings.map fun e => e.2.recipes).sum

/-- The values of all settings. -/
def entries (settings : Collection) (environment : Table String) : Except Breach Entries :=
  settings.mapM fun e => do
    let v ← Setting.evaluate (cook settings environment (settings.recipes + 1)) e.2
    return (Value.str e.1, v)

/-! ## Writing -/

/-- A list with an item inserted; what is there and no list has no place for one. -/
def inserted (old : Option Setting) (spot : Int) (s : Setting) : Except Breach Setting :=
  match old with
  | none => .ok (.list [s])
  | some (.list items) => if items.isEmpty then .ok (.list [s]) else .ok (.list
      (Setting.insertAt spot s items))
  | some old => if old.truthy then .error .part else .ok (.list [s])

/-- What an order makes of a setting at the top and the old one; none if nothing is left. -/
def carriedOut (old : Option Setting) : Setting → Except Breach (Option Setting)
  | .order .delete _ => .ok none
  | .order .reset s => .ok (some s)
  | .order (.merge unique) s =>
    match old.filter Setting.truthy with
    | some old => .ok (some (Setting.merge unique old s))
    | none => .ok (some s)
  | .order (.insert spot) s => (inserted old spot s).map some
  | s => .ok (some s)

/-- The settings with one under a name at the top, merged into the old one if `merging` says so or
if it asks for that itself. -/
def place (settings : Collection) (merging : Bool) (name : List Char) (s : Setting) :
    Except Breach Collection := do
  let key := topName name
  let s ← s.read
  match s with
  | .later _ => return settings.put key s
  | s =>
    let old := settings.lookup key
    match ← carriedOut old s with
    | none => return settings.erase key
    | some s =>
      match old.filter fun o => !o.isNull with
      | some old => return settings.put key (if merging then Setting.merge false old s
          else Setting.selfMerged old s)
      | none => return settings.put key s

/-- A setting inside groups along a path of names. -/
def nested (s : Setting) : List String → Setting
  | [] => s
  | name :: rest => .group [(.str name, nested s rest)]

/-- The setting of a first name with one more setting along a path below it. -/
def extended (old : Option Setting) (head : String) (path : List String) (s : Setting) : Setting :=
  let new := nested s path
  match old.filter Setting.truthy with
  | none => new
  | some old =>
    let whole := Setting.mergeAlong (head :: path) (.group [(.str head, old)])
      (.group [(.str head, new)])
    (Value.get? whole.entries head).getD new

/-- The settings with one under a name, whose parts stand between points or pairs of underscores;
`parts` tells whether a name has parts. -/
def assign (settings : Collection) (merging parts : Bool) (name : List Char) (s : Setting) :
    Except Breach Collection := do
  let name := pointed name
  match Reading.fields '.' name with
  | head :: next :: rest =>
    if parts then
      let old := settings.lookup (String.ofList (LetterCase.upperText head))
      let path := (next :: rest).map String.ofList
      settings.place false head (extended old (String.ofList head) path (← s.read))
    else settings.place merging name s
  | _ => settings.place merging name s

/-- A text without a marker stands under its name as it is. -/
theorem lookup_place_text {settings : Collection} {name : List Char} {s : String} (merging : Bool)
    (h : s.toList.head? ≠ some '@') :
    ((settings.place merging name (.value (.str s))).toOption.bind fun t => t.lookup (topName name))
      = some (.value (.str s)) := by
  unfold place
  rw [Setting.read_text h]
  cases ho : (settings.lookup (topName name)).filter fun o => !o.isNull <;>
    cases merging <;>
    simp [bind, Except.bind, carriedOut, ho, pure, Except.pure, Except.toOption,
      Table.lookup_put_self, Setting.merge_value, Setting.selfMerged, Setting.selfMergedInto]

end Collection

end RegistryBundle
