import RegistryBundle.Text.Reading
import RegistryBundle.Text.Unicode
import RegistryBundle.Value.Basic

/-!
# INI documents

Documents of sections and entries: a section has its name in brackets, one more pair of them for
each section around it, and an entry is `name = value`. Values are texts, or lists of texts between
commas; quotes around a name or a text do not belong to it, and a number sign begins a remark.

* `Ini.read` reads a document, or gives its faults in their order;
* `Ini.read_nil`: a document without lines is empty.
-/

namespace RegistryBundle.Ini

open Reading (Taken)

/-- What is wrong with a line. -/
inductive Fault where
  /-- The line is no section and no entry. -/
  | malformed
  /-- The section or the entry is there already. -/
  | twice
  /-- The brackets of a section fit no section around it. -/
  | nesting
deriving DecidableEq, Repr

/-- A text without blanks around it. -/
def trimmed (cs : List Char) : List Char :=
  Unicode.trim Unicode.isBlank cs

/-- A text without the quotes around it. -/
def unquoted (cs : List Char) : List Char :=
  match cs with
  | q :: rest => if (q = '"' || q = '\'') && rest.getLast? == some q then rest.dropLast else cs
  | [] => []

/-- Whether a text is empty but for a remark. -/
def isRemark (cs : List Char) : Bool :=
  match cs.dropWhile Unicode.isBlank with
  | [] => true
  | c :: _ => c == '#'

/-- A text in quotes and what is behind it. -/
def quotedItem (cs : List Char) : Option (Taken (List Char)) :=
  match cs with
  | q :: rest =>
    if q = '"' || q = '\'' then
      match rest.dropWhile (· != q) with
      | _ :: left => some (rest.takeWhile (· != q), left)
      | [] => none
    else none
  | [] => none

/-- One text of a value and what is behind it: quoted, or up to a comma or a remark. -/
def item (cs : List Char) : Option (Taken (List Char)) :=
  match cs with
  | [] => some ([], [])
  | c :: _ =>
    if c = '"' || c = '\'' then quotedItem cs
    else
      let text := cs.takeWhile fun c => c != ',' && c != '#'
      some (trimmed text, cs.drop text.length)

/-- The texts of a value behind the first one; `fuel` bounds them. -/
def moreItems : Nat → List Char → Option (List (List Char))
  | 0, _ => none
  | fuel + 1, cs =>
    match cs.dropWhile Unicode.isBlank with
    | ',' :: rest =>
      let rest := rest.dropWhile Unicode.isBlank
      if isRemark rest then some []
      else do
        let (text, rest) ← item rest
        let more ← moreItems fuel rest
        return text :: more
    | rest => if isRemark rest then some [] else none

/-- The value of an entry: a text, or a list of texts if there is a comma. -/
def value? (cs : List Char) : Option Value := do
  let cs := trimmed cs
  if cs.head? == some ',' then
    if isRemark (cs.drop 1) then return .list [] else none
  else
    let (text, rest) ← item cs
    let more ← moreItems (cs.length + 1) rest
    let texts := (text :: more).map fun t => Value.str (String.ofList t)
    if (rest.dropWhile Unicode.isBlank).head? == some ',' then return .list texts
    else return .str (String.ofList text)

/-- What a line says. -/
inductive Line where
  | blank
  /-- A section inside some others. -/
  | group (depth : Nat) (name : List Char)
  | entry (name value : List Char)
  | fault (f : Fault)
deriving DecidableEq, Repr

/-- Whether a character is a bracket or a blank. -/
def isBracketOrBlank (bracket c : Char) : Bool :=
  c == bracket || Unicode.isBlank c

/-- The section that a line behind its first bracket names. -/
def groupLine (cs : List Char) : Line :=
  let opening := cs.takeWhile (isBracketOrBlank '[')
  let rest := cs.drop opening.length
  let name := rest.takeWhile (· != ']')
  let left := rest.drop name.length
  let closing := left.takeWhile (isBracketOrBlank ']')
  if name.isEmpty || left.isEmpty || !isRemark (left.drop closing.length) then .fault .malformed
  else if opening.count '[' = closing.count ']' then
    .group (opening.count '[') (unquoted (trimmed name))
  else .fault .nesting

/-- The name in front of the sign of an entry, and the text behind it. -/
def entryLine (cs : List Char) : Line :=
  let (name, rest) :=
    match quotedItem cs with
    | some (name, rest) => (name, rest.dropWhile Unicode.isBlank)
    | none => (trimmed (cs.takeWhile (· != '=')), cs.dropWhile (· != '='))
  match rest with
  | '=' :: rest => if name.isEmpty then .fault .malformed else .entry name rest
  | _ => .fault .malformed

/-- What a line says. -/
def Line.ofText (cs : List Char) : Line :=
  let cs := trimmed cs
  if isRemark cs then .blank else if cs.head? == some '[' then groupLine cs else entryLine cs

/-- A document so far: its entries, the names of the section they go to, and the faults met. -/
structure Draft where
  entries : Entries := []
  here : List String := []
  faults : List Fault := []

/-- The entries with something under a name in a section; nothing if the name is there already. -/
def insert? (name : String) (v : Value) : List String → Entries → Option Entries
  | [], es =>
    match Value.get? es name with
    | some _ => none
    | none => some (Value.put es (.str name) v)
  | head :: rest, es =>
    match Value.get? es head with
    | some (.map inner) => (insert? name v rest inner).map fun inner =>
        Value.put es (.str head) (.map inner)
    | _ => none

/-- The draft with one more fault. -/
def Draft.withFault (d : Draft) (f : Fault) : Draft :=
  { d with faults := d.faults ++ [f] }

/-- The draft behind a line. -/
def Draft.next (d : Draft) (cs : List Char) : Draft :=
  match Line.ofText cs with
  | .blank => d
  | .fault f => d.withFault f
  | .group depth name =>
    if d.here.length + 1 < depth then d.withFault .nesting
    else
      let outer := d.here.take (depth - 1)
      let name := String.ofList name
      match insert? name (.map []) outer d.entries with
      | some es => { d with entries := es, here := outer ++ [name] }
      | none => d.withFault .twice
  | .entry name text =>
    match value? text with
    | none => d.withFault .malformed
    | some v =>
      match insert? (String.ofList name) v d.here d.entries with
      | some es => { d with entries := es }
      | none => d.withFault .twice

/-- The entries of a document, or its faults. -/
def read (cs : List Char) : Except (List Fault) Entries :=
  let d := (Reading.fields '\n' cs).foldl Draft.next {}
  if d.faults.isEmpty then .ok d.entries else .error d.faults

/-- A document without lines is empty. -/
theorem read_nil : read [] = .ok [] := rfl

end RegistryBundle.Ini
