import RegistryBundle.Document
import RegistryBundle.Files.Tree
import RegistryBundle.Pass

/-!
# Writing what a pass made

The files of a pass go below an output directory: the base document and the overlays, the service
files below the name of their component, the certificate with its key, and last the secret keys.

* `Artifacts.files` lists the files but the last, `Artifacts.write` writes all;
* what was written before a trouble stays, so the tree is part of the answer in any case.
-/

namespace RegistryBundle

/-- A tree that changes while files are written, and what may end that. -/
abbrev Writing := ExceptT Failure (StateM Tree)

namespace Writing

/-- A change of the tree. -/
def change (f : Tree → Except Trouble Unit × Tree) : Writing Unit := do
  let t ← get
  let (done, t) := f t
  set t
  match done with
  | .ok () => return ()
  | .error trouble => throw (.trouble trouble)

/-- A directory and those that lead to it. -/
def makeDirectories (p : FilePath) : Writing Unit :=
  change fun t => Tree.makeDirectories p.names.length t p

/-- A file, in a directory that is made if need be. -/
def writeFile (p : FilePath) (c : Content) : Writing FilePath := do
  makeDirectories p.parent
  change fun t =>
    match t.write p c with
    | .ok t => (.ok (), t)
    | .error e => (.error e, t)
  return p

end Writing

/-- The file of the secret keys. -/
def secretKeysFile : String := "secret-keys.yaml"

/-- The file of the certificate. -/
def certificateFile : String := "ssl.cert"

/-- The file of the certificate's key. -/
def privateKeyFile : String := "ssl.key"

namespace Artifacts

/-- The files of a pass but the secret keys, by the names that lead to them
from the output directory. -/
def files (a : Artifacts) : List (List String × Content) :=
  a.configFiles.map (fun f => ([f.1], Content.ofText f.2)) ++
    a.serviceFiles.flatMap (fun s => s.2.map fun f => ([s.1.name, f.1], Content.ofText f.2)) ++
    match a.certificate with
    | some c => [([certificateFile], .certificate c), ([privateKeyFile], .privateKey c)]
    | none => []

/-- The page of the secret keys. -/
def manifestPage (s : Snapshot) : Except Failure String := do
  Document.encode (← s.manifest)

/-- All files of a pass below a directory; the paths of those written. -/
def writeAll (a : Artifacts) (directory : FilePath) : Writing (List FilePath) := do
  Writing.makeDirectories directory
  let written ← a.files.mapM fun f =>
    Writing.writeFile { directory with names := directory.names ++ f.1 } f.2
  match a.snapshot with
  | none => return written
  | some s =>
    match manifestPage s with
    | .error f => throw f
    | .ok page =>
      let last ← Writing.writeFile (directory.child secretKeysFile) (Content.ofText page)
      return written ++ [last]

/-- All files of a pass below a directory of a tree: the paths of those written,
and the tree after that. -/
def write (a : Artifacts) (directory : FilePath) (t : Tree) :
    Except Failure (List FilePath) × Tree :=
  (a.writeAll directory).run.run t

end Artifacts

end RegistryBundle
