import RegistryBundle.Schema.Checked
import RegistryBundle.Value.Text
import RegistryBundle.Yaml.Token.Lexeme

/-!
# Failures

Every way in which an operation fails, by its cause. A cause that an operator can mend carries a
message; any other is known by its word alone.

* `Failure.word` and `Failure.message?` say what is reported;
* `Failure.isConfiguration` tells the faults of the input, which a run reports
  without a trace, from crashes.
-/

namespace RegistryBundle

/-- The formats of settings, and where a text shows that it is not in one. -/
inductive SettingsFormat where
  | yaml (layer : Yaml.Layer)
  | json
  | toml
  /-- A line that is no section and no entry. -/
  | ini
  /-- A section or an entry that is there already. -/
  | iniTwice
  /-- A section whose brackets fit no section around it. -/
  | iniNesting
  /-- Several faults of the last three kinds. -/
  | iniSeveral
deriving DecidableEq, Repr

namespace SettingsFormat

/-- The word that reports a text that is not in its format. -/
def word : SettingsFormat → String
  | yaml .characters => "ReaderError"
  | yaml .tokens => "ScannerError"
  | yaml .grammar => "ParserError"
  | yaml .references => "ComposerError"
  | yaml .types => "ConstructorError"
  | yaml .keys => "DuplicateKeyError"
  | json => "JSONDecodeError"
  | toml => "TOMLDecodeError"
  | ini => "ParseError"
  | iniTwice => "DuplicateError"
  | iniNesting => "NestingError"
  | iniSeveral => "ConfigObjError"

end SettingsFormat

/-- What a value or a text does not allow. -/
inductive Breach where
  /-- A document that is not in the format. -/
  | document
  /-- A value out of its range. -/
  | range
  /-- An operation that the type of a value lacks. -/
  | operation
  /-- A part that the type of a value lacks. -/
  | part
  | key
  | index
  | overflow
  /-- Octets that encode no text. -/
  | encoding
  /-- A text that no octets encode. -/
  | unencodable
  /-- An object that has no written form. -/
  | writing
  /-- A text of settings that is not in its format, and where that shows. -/
  | settings (format : SettingsFormat)
  /-- A setting that its marker does not allow. -/
  | marker
  /-- A template that names nothing that is there. -/
  | template
  /-- A language that is not at hand. -/
  | language
  /-- A setting that is made of itself. -/
  | circle
deriving DecidableEq, Repr

namespace Breach

/-- The word that reports a breach. -/
def word : Breach → String
  | document => "YAMLError"
  | range => "ValueError"
  | operation => "TypeError"
  | part => "AttributeError"
  | key => "KeyError"
  | index => "IndexError"
  | overflow => "OverflowError"
  | encoding => "UnicodeDecodeError"
  | unencodable => "UnicodeEncodeError"
  | writing => "PydanticSerializationError"
  | settings format => format.word
  | marker => "DynaconfParseError"
  | template => "DynaconfFormatError"
  | language => "ImportError"
  | circle => "RecursionError"

/-- The breach behind a fault of a document. -/
def ofFault : Yaml.Fault → Breach
  | .malformed _ => document
  | .badValue => range
  | .unknownWord => key
  | .emptyNumber => index
  | .badTimestamp => part
  | .overflow => overflow

/-- The breach behind a fault of settings. -/
def ofSettingsFault : Yaml.Fault → Breach
  | .malformed layer => settings (.yaml layer)
  | f => ofFault f

end Breach

/-- Why a file or a directory cannot be used. -/
inductive Trouble where
  | absent
  | occupied
  | notDirectory
  | isDirectory
deriving DecidableEq, Repr

namespace Trouble

/-- The number of a trouble. -/
def number : Trouble → Nat
  | absent => 2
  | occupied => 17
  | notDirectory => 20
  | isDirectory => 21

/-- The text of a trouble. -/
def text : Trouble → String
  | absent => "No such file or directory"
  | occupied => "File exists"
  | notDirectory => "Not a directory"
  | isDirectory => "Is a directory"

/-- The word that reports a trouble. -/
def word : Trouble → String
  | absent => "FileNotFoundError"
  | occupied => "FileExistsError"
  | notDirectory => "NotADirectoryError"
  | isDirectory => "IsADirectoryError"

/-- A trouble with the path that it concerns. -/
def describe (t : Trouble) (path : String) : String :=
  s!"[Errno {t.number}] {t.text}: " ++ String.ofList (Quoted.text path.toList)

end Trouble

/-- Why a file gives no document. -/
inductive Unreadable where
  | malformed
  | trouble (t : Trouble)
deriving DecidableEq, Repr

/-- What makes a value no manifest of secret keys. -/
inductive ManifestFault where
  | breach (b : Breach)
  | invalid (issues : List Issue)
deriving DecidableEq, Repr

/-- A fault in what the operator provides. -/
inductive ConfigFault where
  | settingsRejected (issues : List Issue)
  | settingsAbsent (path : String)
  | unreadable (path : String) (cause : Unreadable)
  | notMapping (path : String)
  | nameless (path : String)
  | keyMissing (path key : String)
  | manifestRejected (path : String) (cause : ManifestFault)
deriving DecidableEq, Repr

/-- What is wrong with a value of the user's configuration. -/
inductive Complaint where
  | notText (typeName : String)
  | empty
deriving DecidableEq, Repr

/-- What a source of random octets did instead of delivering. -/
inductive RandomFault where
  | failed
  | wrongCount (delivered : Nat) (expected : Int)
deriving DecidableEq, Repr

/-- Why an operation fails. -/
inductive Failure where
  | config (fault : ConfigFault)
  | unknownComponent (shown : String)
  | malformedUserValue (key : String) (complaint : Complaint)
  | random (fault : RandomFault)
  | unwritable (typeName : String)
  | hostMissing
  | invalid (issues : List Issue)
  | breach (b : Breach)
  | trouble (t : Trouble)
deriving DecidableEq, Repr

namespace ManifestFault

/-- The word that reports a fault. -/
def word : ManifestFault → String
  | breach b => b.word
  | invalid _ => "ValidationError"

/-- Whether a fault lies in what the operator provides: issues, and a part, an operation, a range or
an encoding that values do not allow. -/
def isConfiguration : ManifestFault → Bool
  | invalid _ | breach .part | breach .operation | breach .range | breach .encoding
  | breach .unencodable => true
  | breach _ => false

end ManifestFault

/-- A word that stands for a text of its own. -/
def placeholder (word : String) : String :=
  "<" ++ word ++ ">"

namespace ConfigFault

/-- The message of a fault. -/
def message : ConfigFault → String
  | settingsRejected _ => "Operator settings validation failed"
  | settingsAbsent path => s!"Settings file {path} does not exist."
  | unreadable path .malformed => s!"Unable to read {path}: " ++ placeholder Breach.document.word
  | unreadable path (.trouble t) => s!"Unable to read {path}: " ++ t.describe path
  | notMapping path => s!"{path} must contain a mapping"
  | nameless path => s!"{path} does not name the registry"
  | keyMissing path key => s!"{path} is missing " ++ String.ofList (Quoted.text key.toList)
  | manifestRejected path cause =>
    s!"{path} is not a valid secret keys manifest: " ++ placeholder cause.word

/-- The issues behind a fault. -/
def issues? : ConfigFault → Option (List Issue)
  | settingsRejected issues => some issues
  | manifestRejected _ (.invalid issues) => some issues
  | _ => none

end ConfigFault

namespace Complaint

/-- The text of a complaint. -/
def text : Complaint → String
  | notText typeName => s!"must be a string, got {typeName}"
  | empty => "must not be empty"

end Complaint

namespace RandomFault

/-- The text of a fault. -/
def text : RandomFault → String
  | failed => "secure random source failed"
  | wrongCount delivered expected =>
    s!"secure random source returned {delivered} bytes, expected {expected}"

end RandomFault

namespace Failure

/-- The word that reports a failure. -/
def word : Failure → String
  | config _ => "ConfigError"
  | unknownComponent _ => "UnknownComponentError"
  | malformedUserValue .. => "MalformedUserValueError"
  | random _ => "RandomSourceError"
  | unwritable _ => "SerializationError"
  | hostMissing => Breach.range.word
  | invalid _ => "ValidationError"
  | breach b => b.word
  | trouble t => t.word

/-- The message of a failure that has one. -/
def message? : Failure → Option String
  | config fault => some fault.message
  | unknownComponent shown => some s!"unknown component: {shown}"
  | malformedUserValue key complaint => some s!"{key} in the provided config {complaint.text}"
  | random fault => some fault.text
  | unwritable typeName => some s!"failed to encode {typeName}"
  | hostMissing => some "a hostname is required to issue a certificate"
  | _ => none

/-- The issues behind a failure. -/
def issues? : Failure → Option (List Issue)
  | config fault => fault.issues?
  | invalid issues => some issues
  | _ => none

/-- Whether a failure lies in what the operator provides. -/
def isConfiguration : Failure → Bool
  | config _ | unknownComponent _ | malformedUserValue .. => true
  | _ => false

end Failure

/-- The value of a check, or its issues as a failure. -/
def Checked.orFail (failure : List Issue → Failure) : Checked α → Except Failure α
  | .fits a => .ok a
  | .issues all => .error (failure all)

end RegistryBundle
