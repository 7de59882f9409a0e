import RegistryBundle.Files.Text
import RegistryBundle.Files.Tree
import RegistryBundle.Ini
import RegistryBundle.Settings.Basic
import RegistryBundle.Settings.Collection
import RegistryBundle.Yaml.Node.ToValue

/-!
# Sources of settings

Operator settings come from a file, if one is named, from the local file beside it, from the files
that these include, and from the environment; what comes later counts.

* `Sources.ofFile` and `Sources.ofEnvironment` say what a source sets;
* `Settings.load` reads all sources.
-/

namespace RegistryBundle

namespace Sources

/-! ## Files -/

/-- The name of an entry of a file: in capitals before the first two underscores. -/
def fileName : List Char → List Char
  | '_' :: '_' :: rest => '_' :: '_' :: rest
  | c :: rest => LetterCase.upper c ++ fileName rest
  | [] => []

/-- An entry of a file with its name. -/
def named (e : Value × Value) : Except Breach (Value × Value) :=
  match e.1.text? with
  | some s => .ok (.str (String.ofList (fileName s.toList)), e.2)
  | none => .error .range

/-- The entry of a file that asks for a merge of all others. -/
def mergeName : String := "DYNACONF_MERGE"

/-- The entry of a file that forbids names with parts. -/
def partsName : String := "DYNACONF_DOTTED_LOOKUP"

/-- The setting that names more files. -/
def includeName : String := "DYNACONF_INCLUDE"

/-- Whether the names of a file have parts. -/
def hasParts (es : Entries) : Bool :=
  match (Value.get? es partsName).map Value.bare with
  | none | some (.bool true) => true
  | _ => false

/-- The settings with the entries of a file. -/
def withEntries (settings : Collection) (es : Entries) : Except Breach Collection := do
  let named := Value.ofList (← es.mapM named)
  let merging := (Value.get? named mergeName).any Value.truthy
  (Value.erase (Value.erase named mergeName) partsName).foldlM (fun acc e =>
    match e.1 with
    | .str name => Collection.assign acc merging (hasParts named) name.toList (.ofValue e.2)
    | _ => .ok acc) settings

/-- The settings with the entries of a document.  A document that counts as false has none. -/
def withDocument (settings : Collection) (v : Value) : Except Breach Collection :=
  if v.truthy then
    match v.bare with
    | .map es => withEntries settings es
    | _ => .error .part
  else .ok settings

/-- Whether a text ends with one of several. -/
def endsWithAny (endings : List String) (text : String) : Bool :=
  endings.any fun e => e.toList.isSuffixOf text.toList

/-- The breach behind the faults of an INI document. -/
def iniBreach : List Ini.Fault → Breach
  | [.malformed] => .settings .ini
  | [.twice] => .settings .iniTwice
  | [.nesting] => .settings .iniNesting
  | _ => .settings .iniSeveral

/-- The value of a text in the format that the name of its file shows; none for any other name. -/
def parse (path text : String) : Except Breach (Option Value) :=
  if endsWithAny [".yaml", ".yml"] path then
    ((Yaml.readAs .newer text).mapError .ofSettingsFault).map some
  else if endsWithAny [".json"] path then
    match Json.value? text.toList with
    | some v => .ok (some v)
    | none => .error (.settings .json)
  else if endsWithAny [".toml", ".tml"] path then
    match Toml.document? text.toList with
    | some es => .ok (some (.map es))
    | none => .error (.settings .toml)
  else if endsWithAny [".ini", ".conf", ".properties"] path then
    ((Ini.read text.toList).mapError iniBreach).map fun es => some (.map es)
  else .ok none

/-- The settings with those of a file.  A file that is not there sets nothing. -/
def ofFile (t : Tree) (settings : Collection) (p : FilePath) : Except Breach Collection :=
  match t.read p with
  | .error _ => .ok settings
  | .ok octets =>
    match FileText.ofBytes? octets with
    | none => .error .encoding
    | some text => do
      match ← parse p.text text with
      | some v => withDocument settings v
      | none => return settings

/-- The name of the local file beside a file: `local` stands before its ending. -/
def localName (name : String) : String :=
  match (Reading.fields '.' name.toList).reverse with
  | ending :: rest =>
    String.ofList (['.'].intercalate rest.reverse ++ ".local.".toList ++ ending)
  | [] => name

/-- The files to read for a file: itself, and the local one unless it is that. -/
def files (p : FilePath) : List FilePath :=
  if (p.text.splitOn ".local.").length = 1 then [p, p.parent.child (localName p.lastName)] else [p]

/-- The settings with those of a file and the local one beside it. -/
def ofFiles (t : Tree) (settings : Collection) (p : FilePath) : Except Breach Collection :=
  (files p).foldlM (ofFile t) settings

/-- The directory that the files to include lie below: that of the file that is named. -/
def directory (file : Option FilePath) : FilePath :=
  (file.map FilePath.parent).getD { names := [] }

/-- The paths of the files to include, below a directory. -/
def included (settings : Collection) (directory : FilePath) : List FilePath :=
  let path (name : String) : FilePath :=
    let p := FilePath.ofText name
    if p.absolute then p else { directory with names := directory.names ++ p.names }
  match settings.lookup includeName with
  | some (.value (.str s)) =>
    if s = "" then []
    else (Reading.fields ',' s.toList).map fun f =>
      path (String.ofList (Unicode.trim Unicode.isBlank f))
  | some (.list items) =>
    items.filterMap fun s =>
      match s with
      | .value (.str name) => some (path name)
      | _ => none
  | _ => []

/-! ## The environment -/

/-- How the names of variables begin that are settings; what begins with a later one counts. -/
def variableMarks : List String := ["DYNACONF_", "QUAYCONFIG_"]

/-- The text of a variable: the words `True` and `False` count in lower case. -/
def variableText (text : String) : List Char :=
  let word := Unicode.trim Unicode.isBlank text.toList
  if word = "True".toList || word = "False".toList then LetterCase.lowerText text.toList
    else text.toList

/-- The settings of variables whose names begin with a mark, the mark left out. -/
def marked (environment : Table String) (mark : String) :
    Except Breach (List (List Char × Setting)) :=
  (environment.filter fun e => mark.toList.isPrefixOf e.1.toList).mapM fun e => do
    let s ← Setting.ofText true (variableText e.2)
    return (e.1.toList.drop mark.length, s)

/-- The settings with those of the environment. -/
def ofEnvironment (environment : Table String) (settings : Collection) : Except Breach Collection :=
  variableMarks.foldlM (fun acc mark => do
    (← marked environment mark).foldlM (fun acc e => Collection.assign acc false true e.1 e.2) acc)
      settings

/-! ## All sources -/

/-- The settings of a file, if one is named, and of the environment. -/
def own (t : Tree) (file : Option FilePath) (environment : Table String) :
    Except Breach Collection := do
  let read ← match file with
    | none => pure []
    | some p => ofFiles t [] p
  ofEnvironment environment read

/-- The settings of all sources, by name: after the files to include the
environment counts once more. -/
def collect (t : Tree) (file : Option FilePath) (environment : Table String) :
    Except Breach Collection := do
  let settings ← own t file environment
  match included settings (directory file) with
  | [] => return settings
  | paths => ofEnvironment environment (← paths.foldlM (ofFiles t) settings)

/-- The files that are read beside the one that is named. -/
def includedFiles (t : Tree) (file : Option FilePath) (environment : Table String) :
    List FilePath :=
  match own t file environment with
  | .ok settings => (included settings (directory file)).flatMap files
  | .error _ => []

end Sources

/-- The settings of a file, if one is named, and of the environment. -/
def Settings.load (t : Tree) (file : Option FilePath) (environment : Table String) :
    Except Failure Settings := do
  match file with
  | some p => if !t.hasPath p then throw (.config (.settingsAbsent p.text))
  | none => pure ()
  let raw ← ((Sources.collect t file environment).bind fun c => c.entries environment).mapError
    .breach
  Settings.ofEntries raw

end RegistryBundle
