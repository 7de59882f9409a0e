import RegistryBundle.Run.Log
import RegistryBundle.Run.Random

/-!
# Actions

What takes random octets and reports: the state is the source, the records so far and the count of
certificates, and it stays when an action fails.

* `Action.report` adds a record, `Action.draw` takes octets.
-/

namespace RegistryBundle

/-- What actions share. -/
structure Session where
  random : Randomness
  log : List LogRecord := []
  /-- How many certificates were issued. -/
  issued : Nat := 0

/-- A computation that may fail, takes random octets and reports. -/
abbrev Action := ExceptT Failure (StateM Session)

namespace Action

/-- One record more. -/
def report (level : Level) (speaker : Speaker) (message : String) : Action Unit := do
  modify fun s =>
    { s with log := s.log ++ [{ level := level, speaker := speaker, message := message }] }

/-- A result as an action. -/
def ofExcept (x : Except Failure α) : Action α :=
  match x with
  | .ok a => pure a
  | .error f => throw f

/-- Octets of the source. -/
def draw (size : Int) : Action (List UInt8) := do
  let s ← get
  let (octets, after) := s.random.draw size
  set { s with random := after }
  ofExcept octets

/-- An action run in a session. -/
def perform (a : Action α) (s : Session) : Except Failure α × Session :=
  a.run.run s

end Action

end RegistryBundle
