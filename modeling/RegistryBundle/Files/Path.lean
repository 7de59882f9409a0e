import RegistryBundle.Text.Reading

/-!
# File paths

A path is a sequence of names; empty names and the name `.` are not kept, `..` is.

* `FilePath.ofText` reads a path, `FilePath.text` writes it.
-/

namespace RegistryBundle

/-- A path from the working directory, or from the root if it is absolute. -/
structure FilePath where
  absolute : Bool := false
  names : List String
deriving DecidableEq, Repr

namespace FilePath

/-- The path that a text denotes. -/
def ofText (s : String) : FilePath :=
  { absolute := s.toList.head? == some '/'
    names := ((Reading.fields '/' s.toList).map String.ofList).filter fun n => n != "" && n != "." }

/-- The text of a path. -/
def text (p : FilePath) : String :=
  if p.absolute then "/" ++ "/".intercalate p.names
  else if p.names.isEmpty then "."
  else "/".intercalate p.names

/-- The path of a name below a path. -/
def child (p : FilePath) (name : String) : FilePath :=
  { p with names := p.names ++ [name] }

/-- The path without its last name. -/
def parent (p : FilePath) : FilePath :=
  { p with names := p.names.dropLast }

/-- The last name of a path. -/
def lastName (p : FilePath) : String :=
  p.names.getLast?.getD ""

end FilePath

end RegistryBundle
