import RegistryBundle.CommandLine.Call
import Std.Time.DateTime.Timestamp

/-!
# The program

The command as a process: it looks at the part of the file system that a call may touch, lets
the call answer, and then makes the directories and writes the files that are new. All
decisions lie in `Call.answer`.
-/

namespace RegistryBundle.Program

/-- How the program is called. -/
def usage : String :=
  "usage: registry-bundle --descriptor FILE --output-dir DIR [--config FILE]" ++
    " [--secret-keys FILE]\n" ++
  "         [--component KIND]... [--settings FILE] [--no-tls] [--log-level LEVEL]"

/-- The place of a text that denotes an absolute path. -/
def placeOf (path : String) : Place :=
  (FilePath.ofText path).names

/-- The absolute path of a place. -/
def pathOf (place : Place) : String :=
  "/" ++ "/".intercalate place

/-- The places that a path goes through, the last one included. -/
def placesOf (home : Place) (p : FilePath) : List Place :=
  let step (acc : Place × List Place) (name : String) : Place × List Place :=
    let next := if name = ".." then acc.1.dropLast else acc.1 ++ [name]
    (next, acc.2 ++ [next])
  let start := if p.absolute then [] else home
  (p.names.foldl step (start, [start])).2

/-- The tree with what is at a place of the file system. -/
def look (t : Tree) (place : Place) : IO Tree := do
  let path := (← IO.currentDir) / pathOf place
  if t.directories.contains place then return t
  else if ← path.isDir then return { t with directories := t.directories ++ [place] }
  else if ← path.pathExists then
    let octets ← IO.FS.readBinFile path
    return { t with files := Tree.putFile place (.octets octets) t.files }
  else return t

/-- The paths below an output directory at which files are written. -/
def outputs (p : FilePath) : List FilePath :=
  p :: ([Pass.baseFile, certificateFile, privateKeyFile, secretKeysFile].map p.child) ++
    Component.all.flatMap fun c =>
      [p.child c.configFile, p.child c.name, (p.child c.name).child ScannerConfig.fileName]

/-- The paths that a call names. -/
def touched (a : Arguments) : List FilePath :=
  [a.descriptor] ++ a.config.toList ++ a.secretKeys.toList ++
    a.settings.toList.flatMap Sources.files ++ outputs a.outputDir

/-- The tree with what is at the places of paths. -/
def gather (t : Tree) (paths : List FilePath) : IO Tree :=
  (paths.flatMap (placesOf t.home)).foldlM look t

/-- The part of the file system that a call may touch: what it names, and
what its settings include. -/
def treeFor (environment : Table String) (texts : List String) : IO Tree := do
  let home := placeOf (← IO.currentDir).toString
  let empty ← gather { home := home } [.ofText ""]
  match Arguments.ofTexts texts with
  | .run a =>
    let tree ← gather empty (touched a)
    gather tree (Sources.includedFiles tree a.settings environment)
  | _ => return empty

/-- A block of octets of the system's random source, used again from its start after its end. -/
def randomSource : IO RandomSource := do
  let block ← IO.getRandomBytes 65536
  return { octet := fun i => block.data.getD (i %
    block.size) 0, reply := fun _ size => .octets size.toNat }

/-- The variables of the environment. -/
def environment : IO (Table String) := do
  let octets ← try IO.FS.readBinFile "/proc/self/environ" catch _ => pure ByteArray.empty
  let lines := Reading.fields '\x00' ((String.fromUTF8? octets).getD "").toList
  return lines.filterMap fun line =>
    if line.contains '=' then
      some (String.ofList (line.takeWhile (· != '=')),
        String.ofList ((line.dropWhile (· != '=')).drop 1))
    else none

/-- The first moment of the year 1970. -/
def epoch : Moment := ⟨⟨1970, 1, 1⟩, 0, 0, 0, 0, some 0⟩

/-- The present moment, in universal time. -/
def now : IO Moment := do
  let t ← Std.Time.Timestamp.now
  return (epoch.shift? t.toSecondsSinceUnixEpoch.val).getD epoch

/-- The changes from one tree to another, made in the file system. -/
def carryOut (before after : Tree) : IO Unit := do
  for place in after.directories do
    if !before.directories.contains place then IO.FS.createDirAll (pathOf place)
  for f in after.files do
    if !before.files.contains f then IO.FS.writeBinFile (pathOf f.1) f.2.bytes

/-- A record as a line. -/
def line (r : LogRecord) : String :=
  s!"{r.level.name} | {r.speaker.name} | {r.message}" ++
    match r.failure with
    | some word => s!" ({word})"
    | none => ""

/-- The program. -/
def run (texts : List String) : IO UInt32 := do
  let around : Surroundings := { environment := ← environment, now := ← now }
  let tree ← treeFor around.environment texts
  let place : Workplace := { tree := tree, session := { random := { source := ← randomSource } } }
  let (answer, after) := Call.answer around texts place
  carryOut tree after.tree
  match answer.ending with
  | .help => IO.println usage
  | .misuse _ => IO.eprintln usage
  | .unlogged f => IO.eprintln f.word
  | _ => answer.log.forM fun r => IO.eprintln (line r)
  return answer.ending.code.toUInt32

end RegistryBundle.Program

def main (texts : List String) : IO UInt32 :=
  RegistryBundle.Program.run texts
