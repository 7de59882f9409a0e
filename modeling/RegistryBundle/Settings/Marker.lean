import RegistryBundle.Failure
import RegistryBundle.Settings.Setting
import RegistryBundle.Toml

/-!
# Markers

A text that begins with a marker such as `@int` says how the rest of it is to be taken. Any other
text stands for itself, or is read in the notation of TOML where a source has no other way to give
numbers and lists.

* `Marker.split?` finds the marker of a text: `split?_of_head_ne`;
* `Setting.ofText` takes a text, `Setting.read` all texts of a setting.
-/

namespace RegistryBundle

/-- What stands in front of a text. -/
inductive Marker where
  | convert (c : Conversion)
  | recipe (m : Recipe.Method)
  | order (o : Order)
  /-- The text is a remark; the setting is null. -/
  | remark
  /-- There is no value at all. -/
  | absent
deriving DecidableEq, Repr

namespace Marker

/-- The markers by their words. -/
def words : List (String × Marker) :=
  Conversion.words.map (fun w => (w.1, .convert w.2)) ++
    [("@format", .recipe .template), ("@jinja", .recipe .script), ("@get", .recipe .reference),
      ("@reset", .order .reset), ("@del", .order .delete), ("@merge", .order (.merge false)),
      ("@merge_unique", .order (.merge true)), ("@insert", .order (.insert 0)),
      ("@note", .remark), ("@comment", .remark), ("@null", .remark), ("@none", .remark),
        ("@empty", .absent)]

/-- The marker that a word is. -/
def ofWord? (word : List Char) : Option Marker :=
  words.lookup (String.ofList word)

/-- The markers that may follow another. -/
def second? (cs : List Char) : Option (Marker × List Char) :=
  ["@format", "@jinja"].findSome? fun w =>
    if w.toList.isPrefixOf cs then (ofWord? w.toList).map fun m => (m, cs.drop w.length) else none

/-- The markers of a text, in their order, and the text behind them. -/
def split? (cs : List Char) : Option (List Marker × List Char) :=
  if cs.head? == some '@' then
    (ofWord? (cs.takeWhile (· != ' '))).map fun first =>
      let rest := (cs.dropWhile (· != ' ')).drop 1
      match second? rest with
      | some (second, text) => ([first, second], Unicode.trim Unicode.isBlank text)
      | none => ([first], rest)
  else none

/-- A text that does not begin with `@` has no marker. -/
theorem split?_of_head_ne {cs : List Char} (h : cs.head? ≠ some '@') : split? cs = none := by
  simp [split?, h]

end Marker

namespace Setting

/-! ## What is merged -/

/-- A character of a key of an assignment. -/
def isKeyChar (c : Char) : Bool :=
  c.isAlphanum || c == ' '

/-- A character of the value of an assignment. -/
def isWordChar (c : Char) : Bool :=
  isKeyChar c || c == '-' || c == ':'

/-- The assignments `key=value` in a text; `key` holds the characters before, the last one first. -/
def assignmentsFrom : Nat → List Char → List Char → List (List Char × List Char)
  | 0, _, _ => []
  | _, _, [] => []
  | fuel + 1, key, c :: rest =>
    if c = '=' then
      (Unicode.trim Unicode.isBlank key.reverse,
          Unicode.trimEnd Unicode.isBlank (rest.takeWhile isWordChar)) ::
        assignmentsFrom fuel [] (rest.dropWhile isWordChar)
    else assignmentsFrom fuel (if isKeyChar c then c :: key else []) rest

/-- The assignments in a text. -/
def assignments (cs : List Char) : List (List Char × List Char) :=
  assignmentsFrom cs.length [] cs

/-- A text with the words for values of other notations replaced by those of JSON. -/
def jsonWords (s : String) : String :=
  [("True", "true"), ("False", "false"), ("None", "null")].foldl (fun s w =>
    (s.replace (": " ++ w.1) (": " ++ w.2)).replace (":" ++ w.1) (":" ++ w.2)) s

/-- What a text brings into a merge: the one object in it, else its assignments, else its parts
between commas; `read` reads the value of an assignment. -/
def mergedText (read : List Char → Except Breach Setting) (s : String) : Except Breach Setting :=
  match Json.objects (jsonWords s).toList with
  | [v] => .ok (ofValue v)
  | _ =>
    match assignments s.toList with
    | [] => .ok (.list ((Reading.fields ',' s.toList).map text))
    | pairs => do
      let es ← pairs.mapM fun p => do
        let v ← read p.2
        return (Value.str (String.ofList p.1), v)
      return .group (Value.ofList es)

/-- What a setting brings into a merge: numbers and truth values come as lists. -/
def merged (read : List Char → Except Breach Setting) (s : Setting) : Except Breach Setting :=
  match s with
  | .value (.str t) => mergedText read t
  | .value (.int _) | .value (.float _) | .value (.bool _) => .ok (.list [s])
  | s => .ok s

/-- The place in front of an item to insert, and the item; without a place it goes to the front. -/
def insertion (cs : List Char) : Int × List Char :=
  let place := cs.takeWhile (· != ' ')
  if (place.dropWhile fun c => c == '-' || c == '+').head?.any Char.isDigit && place.length <
    cs.length then
    ((Numeral.ofText? 10 place).getD 0, cs.drop (place.length + 1))
  else (0, cs)

/-! ## Texts -/

/-- The value of a text in the notation of TOML, else the text itself. A whole number with too many
digits is refused. -/
def ofNotation (cs : List Char) : Except Breach Setting :=
  match Toml.value? cs with
  | some (.int n) => if (intText? n).isSome then .ok (.value (.int n)) else .error .range
  | some v => .ok (ofValue v)
  | none => .ok (text cs)

/-- The setting that an order is about; `read` reads a text. -/
def ordered (read : List Char → Except Breach Setting) (o : Order) (s : Setting) :
    Except Breach Setting :=
  match o, s with
  | .insert _, .value (.str t) => do
    let (place, rest) := insertion t.toList
    return .order (.insert place) (← read rest)
  | .merge _, .value (.str t) => do
    let s ← read t.toList
    return .order o (← merged read s)
  | o, .value (.str t) => (read t.toList).map (.order o)
  | o, s => .ok (.order o s)

/-- A setting behind a marker; a text that cannot be converted is refused. -/
def marked (read : List Char → Except Breach Setting) (m : Marker) (s : Setting) :
    Except Breach Setting :=
  match m, s with
  | .convert c, .later r => .ok (.later { r with conversion := some c })
  | .convert c, .value v =>
    match c.convert? v with
    | some v => .ok (ofValue v)
    | none => .error .marker
  | .recipe m, .value (.str t) => .ok (.later { method := m, text := t.toList })
  | .order o, s => ordered read o s
  | .remark, _ => .ok (.value .null)
  | .absent, _ => .ok (.value .foreign)
  | _, _ => .error .marker

/-- A text as a setting, `notation?` telling whether one without a marker is read in the notation of
TOML; `fuel` bounds the markers one behind the other. -/
def ofChars : Nat → Bool → List Char → Except Breach Setting
  | 0, _, cs => .ok (text cs)
  | fuel + 1, inNotation, cs =>
    match Marker.split? cs with
    | some (markers, rest) => markers.reverse.foldlM (fun s m =>
        marked (ofChars fuel true) m s) (text rest)
    | none => if inNotation then ofNotation cs else .ok (text cs)

/-- A text as a setting. -/
def ofText (inNotation : Bool) (cs : List Char) : Except Breach Setting :=
  ofChars (cs.length + 1) inNotation cs

mutual

/-- A setting with all its texts read. -/
def read : Setting → Except Breach Setting
  | .value (.str s) => ofText false s.toList
  | .list items => (readItems items).map .list
  | .group entries => (readGroup entries).map .group
  | s => .ok s

/-- Each item with its texts read. -/
def readItems : List Setting → Except Breach (List Setting)
  | [] => .ok []
  | s :: rest => do
    let s ← read s
    let more ← readItems rest
    return s :: more

/-- A group with its texts read. -/
def readGroup : List (Value × Setting) → Except Breach Group
  | [] => .ok []
  | (k, s) :: rest => do
    let s ← read s
    let more ← readGroup rest
    return (k, s) :: more

end

/-- A text without a marker stands for itself. -/
theorem read_text {s : String} (h : s.toList.head? ≠ some '@') :
    read (.value (.str s)) = .ok (.value (.str s)) := by
  simp [read, ofText, ofChars, Marker.split?_of_head_ne h, text, String.ofList_toList]

end Setting

end RegistryBundle
