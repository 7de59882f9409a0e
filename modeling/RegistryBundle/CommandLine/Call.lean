import RegistryBundle.CommandLine.Arguments
import RegistryBundle.Loading
import RegistryBundle.Output
import RegistryBundle.Settings.Sources

/-!
# Calls of the command

A call reads its inputs, makes one pass and writes what it made. Calls share the file tree, the
source of random octets and the count of certificates.

* `Call.inputs` reads the settings and the request of a pass, `Call.make` is the pass, and only then
  files are written: `Call.perform`, `perform_of_error`;
* `Call.answer` is a whole call with its exit code and the records that its log level lets through.
-/

namespace RegistryBundle

/-- What calls share. -/
structure Workplace where
  tree : Tree
  session : Session

/-- What a call finds around it. -/
structure Surroundings where
  environment : Table String
  now : Moment

/-- How a call ends. -/
inductive Ending where
  | help
  | misuse (m : Misuse)
  /-- The log cannot be set up. -/
  | unlogged (f : Failure)
  | failed (f : Failure)
  | written (paths : List FilePath)
deriving DecidableEq, Repr

namespace Ending

/-- The exit code of a call: 2 if its arguments or its inputs are at fault,
1 for any other failure. -/
def code : Ending → Nat
  | help => 0
  | misuse _ => 2
  | unlogged _ => 1
  | failed f => if f.isConfiguration then 2 else 1
  | written _ => 0

end Ending

/-- What a call answers. -/
structure Answer where
  ending : Ending
  log : List LogRecord

namespace Call

/-- The settings and the request that the inputs of a call make. -/
def inputs (t : Tree) (environment : Table String) (a : Arguments) :
    Except Failure (Settings × Pass.Request) := do
  let settings ← Settings.load t a.settings environment
  let descriptor ← Loading.descriptor t a.descriptor
  let config ← Loading.userConfig t a.config
  let snapshot ← Loading.secretKeys t a.secretKeys
  let request : Pass.Request :=
    { descriptor := descriptor, config := config, snapshot := snapshot
      issueCertificate := a.issueCertificate }
  if a.components.isEmpty then return (settings, request)
  else return (settings, { request with components := a.components.map .str })

/-- What a call makes, before it writes. -/
def make (around : Surroundings) (t : Tree) (a : Arguments) : Action Artifacts := do
  let (settings, request) ← Action.ofExcept (inputs t around.environment a)
  Pass.run settings around.now request

/-- The paths that a call writes, and the workplace after it. -/
def perform (around : Surroundings) (a : Arguments) (w : Workplace) :
    Except Failure (List FilePath) × Workplace :=
  let (made, session) := (make around w.tree a).perform w.session
  match made with
  | .error f => (.error f, { w with session := session })
  | .ok artifacts =>
    let (paths, tree) := artifacts.write a.outputDir w.tree
    (paths, { tree := tree, session := session })

/-- A call that makes nothing leaves the file tree as it was. -/
theorem perform_of_error {around : Surroundings} {a : Arguments} {w : Workplace} {f : Failure}
    (h : ((make around w.tree a).perform w.session).1 = .error f) :
    (perform around a w).1 = .error f ∧ (perform around a w).2.tree = w.tree := by
  simp [perform, h]

/-- The last record of a call. -/
def closing (outputDir : FilePath) : Except Failure (List FilePath) → LogRecord
  | .ok paths =>
    { level := .info, speaker := .commandLine
      message := s!"Wrote {paths.length} files to {outputDir.text}" }
  | .error f =>
    if f.isConfiguration then
      { level := .error, speaker := .commandLine
        message := "Configuration failed: " ++ f.message?.getD f.word }
    else
      { level := .error, speaker := .commandLine, message := "Config synthesis crashed."
        failure := some f.word }

/-- The ending of a call that was performed. -/
def ending : Except Failure (List FilePath) → Ending
  | .ok paths => .written paths
  | .error f => .failed f

/-- A call with arguments that are in order.  Nothing happens before its log is set up. -/
def run (around : Surroundings) (a : Arguments) (w : Workplace) : Answer × Workplace :=
  match Level.threshold a.logLevel with
  | .error f => ({ ending := .unlogged f, log := [] }, w)
  | .ok threshold =>
    let (result, after) := perform around a { w with session := { w.session with log := [] } }
    let log := after.session.log ++ [closing a.outputDir result]
    ({ ending := ending result, log := log.filter (LogRecord.passes threshold) }, after)

/-- A call with any arguments. -/
def answer (around : Surroundings) (texts : List String) (w : Workplace) : Answer × Workplace :=
  match Arguments.ofTexts texts with
  | .help => ({ ending := .help, log := [] }, w)
  | .misuse m => ({ ending := .misuse m, log := [] }, w)
  | .run a => run around a w

end Call

end RegistryBundle
