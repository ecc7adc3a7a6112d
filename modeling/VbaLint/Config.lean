import VbaLint.Inspection.Severity
import VbaLint.NameTable

/-!
# Configurations

A configuration tells which rules do not run, which severities their findings get, how single rules
are set up, and in which format results are printed. Names of rules are compared in any ASCII case.
-/

namespace VbaLint

open Text

structure RuleSettings where
  /-- The rule on missing `Set` also reports `Set x = Nothing`. -/
  flagSetNothing : Bool
  deriving DecidableEq, Repr

def RuleSettings.default : RuleSettings := ⟨false⟩

/-- A configuration. -/
structure Config where
  /-- The rules that never run. -/
  disabled : List String
  /-- The severities of rules. -/
  severity : NameTable Severity
  /-- The settings of rules. -/
  inspections : NameTable RuleSettings
  /-- The output format. -/
  format : Option String
  deriving DecidableEq

namespace Config

def default : Config := ⟨[], .empty, .empty, none⟩

instance : Inhabited Config := ⟨default⟩

def isEnabled (config : Config) (rule : String) : Bool :=
  !config.disabled.any fun name ↦ sameName name rule

def disable (config : Config) (rule : String) : Config :=
  if config.isEnabled rule then { config with disabled := config.disabled ++ [rule] } else config

def setSeverity (config : Config) (rule : String) (severity : Severity) : Config :=
  { config with severity := config.severity.insert rule severity }

/-- The severities by lowered name; of two entries whose lowered names agree the later counts. -/
def overrides (config : Config) : NameTable Severity :=
  .ofList <| config.severity.entries.map fun entry ↦ (lowerAsciiString entry.1, entry.2)

/-- The settings of a rule: the first entry whose name agrees. -/
def settingsFor (config : Config) (rule : String) : RuleSettings :=
  ((config.inspections.entries.find? fun entry ↦ sameName entry.1 rule).map (·.2)).getD .default

def wantsJson (config : Config) : Bool := config.format.any fun format ↦ sameName format "json"

def mentionedNames (config : Config) : List String :=
  config.disabled ++ config.severity.names ++ config.inspections.names

end Config

end VbaLint
