import RegistryBundle.Failure
import RegistryBundle.Text.LetterCase

/-!
# Log records

What a run reports on its way: a level, the part of the program that speaks, and a message.

* `LogRecord.passes` tells which records a chosen level lets through.
-/

namespace RegistryBundle

/-- The weight of a record. -/
inductive Level where
  | debug
  | info
  | warning
  | error
  | critical
deriving DecidableEq, Repr

namespace Level

/-- The name of a level. -/
def name : Level → String
  | debug => "DEBUG"
  | info => "INFO"
  | warning => "WARNING"
  | error => "ERROR"
  | critical => "CRITICAL"

/-- Levels by weight. -/
def weight : Level → Nat
  | debug => 10
  | info => 20
  | warning => 30
  | error => 40
  | critical => 50

/-- The least weight that a word lets through: that of its level in any case, all for `NOTSET`, and
that of `INFO` for a word that names nothing. The word `BASIC_FORMAT` names the layout of a line and
`_STYLES` the table of layouts, and neither of these is a weight. -/
def threshold (word : String) : Except Failure Nat :=
  match String.ofList (LetterCase.upperText word.toList) with
  | "CRITICAL" | "FATAL" => .ok critical.weight
  | "ERROR" => .ok error.weight
  | "WARNING" | "WARN" => .ok warning.weight
  | "DEBUG" => .ok debug.weight
  | "NOTSET" => .ok 0
  | "BASIC_FORMAT" => .error (.breach .range)
  | "_STYLES" => .error (.breach .operation)
  | _ => .ok info.weight

end Level

/-- The part of the program that speaks. -/
inductive Speaker where
  | secretKeys
  | fieldGroups
  | overlays
  | services
  | certificates
  | pass
  | commandLine
deriving DecidableEq, Repr

/-- The name of a speaker. -/
def Speaker.name : Speaker → String
  | secretKeys => "quayconfig.modules.secrets.key_provisioner"
  | fieldGroups => "quayconfig.modules.synthesis.field_groups"
  | overlays => "quayconfig.modules.render.overlay_renderer"
  | services => "quayconfig.modules.render.dependent_services"
  | certificates => "quayconfig.modules.tls.self_signed"
  | pass => "quayconfig.pipeline"
  | commandLine => "quayconfig.entrypoint"

/-- One report. -/
structure LogRecord where
  level : Level
  speaker : Speaker
  message : String
  /-- The word of the failure that the record reports. -/
  failure : Option String := none
deriving DecidableEq, Repr

/-- Whether a record has at least a weight. -/
def LogRecord.passes (threshold : Nat) (r : LogRecord) : Bool :=
  threshold ≤ r.level.weight

end RegistryBundle
