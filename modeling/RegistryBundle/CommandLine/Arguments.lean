import RegistryBundle.Files.Path
import RegistryBundle.Text.Unicode

/-!
# Arguments of the command line

An argument is a flag, perhaps with a value attached behind `=`, or a word. A long flag may
be cut short as long as only one flag begins so. Flags with a value take an attached one, or
else the word behind them.

* `Flag.ofText?` finds a flag by its full form (`ofText?_text`),
  `Flag.beginningWith` by a start of it;
* `Argument.ofTexts` tells flags from words; everything behind `--` is a word;
* `Arguments.ofTexts` reads all arguments from the first to the last: what counts is the first
  misuse, or the call for help if that comes before it.
-/

namespace RegistryBundle

/-- A flag of the command line. -/
inductive Flag where
  | help
  | descriptor
  | config
  | secretKeys
  | component
  | settings
  | outputDir
  | noTls
  | logLevel
deriving DecidableEq, Repr

namespace Flag

/-- All flags. -/
def all : List Flag :=
  [help, descriptor, config, secretKeys, component, settings, outputDir, noTls, logLevel]

/-- The long form of a flag. -/
def text : Flag → String
  | help => "--help"
  | descriptor => "--descriptor"
  | config => "--config"
  | secretKeys => "--secret-keys"
  | component => "--component"
  | settings => "--settings"
  | outputDir => "--output-dir"
  | noTls => "--no-tls"
  | logLevel => "--log-level"

/-- The short form of the only flag that has one. -/
def shortHelp : List Char := ['-', 'h']

/-- Whether a flag takes a value. -/
def takesValue : Flag → Bool
  | help | noTls => false
  | _ => true

/-- The flag of a form. -/
def ofText? (cs : List Char) : Option Flag :=
  if cs = shortHelp then some help else all.find? fun f => f.text.toList = cs

/-- The flags whose long form begins with a text. -/
def beginningWith (cs : List Char) : List Flag :=
  all.filter fun f => cs.isPrefixOf f.text.toList

/-- Every flag is among all. -/
theorem mem_flags (f : Flag) : f ∈ all := by
  cases f <;> decide

/-- Every flag is found by its long form. -/
theorem ofText?_text (f : Flag) : ofText? f.text.toList = some f := by
  cases f <;> decide

end Flag

/-- A misuse of the command line. -/
inductive Misuse where
  /-- A flag that is cut too short. -/
  | ambiguous (text : String)
  | valueMissing (flag : Flag)
  /-- A value attached to a flag that takes none. -/
  | valueRefused (flag : Flag)
  | flagsMissing (flags : List Flag)
  | unrecognized (texts : List String)
deriving DecidableEq, Repr

/-- What an argument is. -/
inductive Argument where
  | word (text : String)
  | flag (f : Flag) (attached : Option String)
  /-- A short flag with more letters behind it. -/
  | shortHelp (more : List Char)
  | unknown (text : String)
deriving DecidableEq, Repr

namespace Argument

/-- A text at its first equals sign. -/
def splitValue (cs : List Char) : Option (List Char × List Char) :=
  if cs.contains '=' then some (cs.takeWhile (· != '='), (cs.dropWhile (· != '=')).drop 1) else none

/-- Whether a text is a negative number, of digits with at most one point among them. -/
def isNegativeNumber : List Char → Bool
  | '-' :: body =>
    let body := if body.getLast? == some '\n' then body.dropLast else body
    let isDigit (c : Char) : Bool := (Unicode.digitValue? c).isSome
    let rest := body.dropWhile isDigit
    match rest with
    | [] => !body.isEmpty
    | '.' :: fraction => !fraction.isEmpty && fraction.all isDigit
    | _ => false
  | _ => false

/-- An argument that is no flag by its full form. -/
def ofLoose (cs : List Char) : Except Misuse Argument :=
  let text := String.ofList cs
  let otherwise := if isNegativeNumber cs || cs.contains ' ' then word text else unknown text
  match cs with
  | '-' :: '-' :: _ =>
    let (start, attached) := match splitValue cs with
      | some (s, v) => (s, some (String.ofList v))
      | none => (cs, none)
    match Flag.beginningWith start with
    | [] => .ok otherwise
    | [f] => .ok (flag f attached)
    | _ => .error (.ambiguous text)
  | '-' :: 'h' :: more => .ok (shortHelp more)
  | _ => .ok otherwise

/-- What a text is as an argument. -/
def ofText (s : String) : Except Misuse Argument :=
  let cs := s.toList
  match cs with
  | '-' :: _ :: _ =>
    match Flag.ofText? cs with
    | some f => .ok (flag f none)
    | none =>
      match splitValue cs with
      | some (start, v) =>
        match Flag.ofText? start with
        | some .help => .ok (if start = Flag.shortHelp then shortHelp v
            else flag .help (some (String.ofList v)))
        | some f => .ok (flag f (some (String.ofList v)))
        | none => ofLoose cs
      | none => ofLoose cs
  | _ => .ok (word s)

/-- What texts are as arguments. -/
def ofTexts : List String → Except Misuse (List Argument)
  | [] => .ok []
  | "--" :: rest => .ok (unknown "--" :: rest.map word)
  | s :: rest => do
    let a ← ofText s
    let more ← ofTexts rest
    return a :: more

end Argument

/-- What a call is asked to do. -/
structure Arguments where
  descriptor : FilePath
  outputDir : FilePath
  config : Option FilePath := none
  secretKeys : Option FilePath := none
  settings : Option FilePath := none
  components : List String := []
  issueCertificate : Bool := true
  logLevel : String := "INFO"
deriving DecidableEq, Repr

/-- What texts ask for. -/
inductive Asked where
  | help
  | misuse (m : Misuse)
  | run (a : Arguments)
deriving DecidableEq, Repr

/-- The values of flags so far. -/
structure Draft where
  descriptor : Option FilePath := none
  outputDir : Option FilePath := none
  config : Option FilePath := none
  secretKeys : Option FilePath := none
  settings : Option FilePath := none
  components : List String := []
  issueCertificate : Bool := true
  logLevel : String := "INFO"
  /-- Arguments that nothing takes. -/
  unused : List String := []

namespace Draft

/-- The draft with a flag, and its value if it takes one. -/
def set (d : Draft) (f : Flag) (v : String) : Draft :=
  match f with
  | .help => d
  | .descriptor => { d with descriptor := some (.ofText v) }
  | .config => { d with config := some (.ofText v) }
  | .secretKeys => { d with secretKeys := some (.ofText v) }
  | .component => { d with components := d.components ++ [v] }
  | .settings => { d with settings := some (.ofText v) }
  | .outputDir => { d with outputDir := some (.ofText v) }
  | .noTls => { d with issueCertificate := false }
  | .logLevel => { d with logLevel := v }

/-- The draft with an argument that nothing takes. -/
def leave (d : Draft) (text : String) : Draft :=
  { d with unused := d.unused ++ [text] }

/-- The arguments that a draft makes. -/
def finish (d : Draft) : Asked :=
  match d.descriptor, d.outputDir with
  | some descriptor, some outputDir =>
    if d.unused.isEmpty then
      .run
        { descriptor := descriptor, outputDir := outputDir, config := d.config
          secretKeys := d.secretKeys, settings := d.settings, components := d.components
          issueCertificate := d.issueCertificate, logLevel := d.logLevel }
    else .misuse (.unrecognized d.unused)
  | descriptor, outputDir =>
    .misuse (.flagsMissing ((if descriptor.isNone then [.descriptor] else []) ++
      if outputDir.isNone then [.outputDir] else []))

/-- The draft after more arguments. -/
def read (d : Draft) : List Argument → Asked
  | [] => d.finish
  | .word s :: rest => (d.leave s).read rest
  | .unknown s :: rest => (d.leave s).read rest
  | .shortHelp more :: _ =>
      if !more.isEmpty && more.all (· == 'h') then .help else .misuse (.valueRefused .help)
  | .flag f (some v) :: rest =>
      if f.takesValue then (d.set f v).read rest else .misuse (.valueRefused f)
  | .flag f none :: rest =>
    if f = .help then .help
    else if f.takesValue then
      match rest with
      | .word v :: rest => (d.set f v).read rest
      | _ => .misuse (.valueMissing f)
    else (d.set f "").read rest

end Draft

/-- The arguments of a call. -/
def Arguments.ofTexts (texts : List String) : Asked :=
  match Argument.ofTexts texts with
  | .ok as => Draft.read {} as
  | .error m => .misuse m

end RegistryBundle
