import RegistryBundle.Failure
import RegistryBundle.Settings.Credentials

/-!
# Operator settings

What the operator may set: the logins of the two databases and the log level of the scanner.

* `Settings.ofEntries` reads them from a mapping whose sections go by a name in lower or upper case.
-/

namespace RegistryBundle

/-- The settings of the operator. -/
structure Settings where
  registry : Credentials := {}
  scanner : Credentials := { database := "clair" }
  scannerLogLevel : String := "debug"
deriving DecidableEq, Repr

namespace Settings

/-- A text with its ASCII letters in lower case. -/
def lower (s : String) : String :=
  String.ofList (s.toList.map Char.toLower)

/-- The first value that counts as true: under a name, or under that name in upper case. -/
def firstTruthy (raw : Entries) (name : String) : Option Value :=
  let upper := String.ofList (name.toList.map Char.toUpper)
  ((Value.get? raw name).filter Value.truthy).or ((Value.get? raw upper).filter Value.truthy)

/-- An entry with its key as a text in lower case. -/
def lowerKey (e : Value × Value) : Except Failure (Value × Value) :=
  match e.1.text? with
  | some s => .ok (.str (lower s), e.2)
  | none => .error (.breach .range)

/-- A section: the mapping of a name with its keys in lower case, of which
the last of each counts. -/
def group (raw : Entries) (name : String) : Except Failure Entries :=
  match (firstTruthy raw name).map Value.bare with
  | some (.map es) => (es.mapM lowerKey).map Value.ofList
  | _ => .ok []

/-- The log level, if it counts as true. -/
def logLevel (raw : Entries) : Checked String :=
  match firstTruthy raw "clair_log_level" with
  | some v => (Schema.text v).under (.name "clair_log_level")
  | none => .fits "debug"

/-- The settings that a mapping holds. -/
def ofEntries (raw : Entries) : Except Failure Settings := do
  let scanner ← group raw "clair_postgres"
  let registry ← group raw "postgres"
  let checked := Settings.mk <$> (Credentials.ofEntries "quay" registry).under (.name "postgres")
    <*> (Credentials.ofEntries "clair" scanner).under (.name "clair_postgres")
    <*> logLevel raw
  checked.orFail fun issues => .config (.settingsRejected issues)

/-- The settings that a value holds, which must be a mapping. -/
def ofValue (v : Value) : Except Failure Settings :=
  match v.bare with
  | .map raw => ofEntries raw
  | _ => .error (.breach .part)

end Settings

end RegistryBundle
