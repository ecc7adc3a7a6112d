import VbaLint.Config
import VbaLint.Files.Entry
import VbaLint.Toml.Document

/-!
# Configuration files

A configuration is written in TOML. Every key may be missing and unknown keys are passed over, but a
known key must hold a value of its shape. Settings may also be written as a list, in the order of
their keys; a date or time counts as settings without any known key.
-/

namespace VbaLint

open Files

def configFileName : String := "vbinspect.toml"

namespace Config

open Toml

def readNames? : Value → Option (List String)
  | .array items => items.mapM fun
    | .text name => some name
    | _ => none
  | _ => none

/-- A severity: its name, or a table with the name as its only key and an empty table or array. -/
def readSeverity? : Value → Option Severity
  | .text name => Severity.ofLabel? name
  | .table _ [(name, .table _ [])] => Severity.ofLabel? name
  | .table _ [(name, .array [])] => Severity.ofLabel? name
  | _ => none

/-- A table with the value of each key read by `read`. -/
def readTable? {α : Type} (read : Value → Option α) : Value → Option (NameTable α)
  | .table _ entries => do
    let entries ← entries.mapM fun (name, value) ↦ (read value).map (name, ·)
    return .ofList entries
  | _ => none

/-- Settings with the one key `key`, whose value is read by `read`. -/
def readSetting? {α : Type} (key : String) (read : Value → Option α) : Value → Option (Option α)
  | .table _ entries => (entries.lookup key).elim (some none) fun value ↦ (read value).map some
  | .array items => items.head?.elim (some none) fun value ↦ (read value).map some
  | .moment _ => some none
  | _ => none

def readBoolean? : Value → Option Bool
  | .boolean value => some value
  | _ => none

def readText? : Value → Option String
  | .text value => some value
  | _ => none

def readSettings? (value : Value) : Option RuleSettings :=
  (readSetting? "flag_set_nothing" readBoolean? value).map fun flag ↦
    (flag.map RuleSettings.mk).getD .default

/-- The value of a key, or the default if the key is missing. -/
def readKey? {α : Type} (table : Table) (key : String) (fallback : α) (read : Value → Option α) :
    Option α :=
  (table.find? key).elim (some fallback) read

/-- The configuration in a document; none if a value has the wrong shape. -/
def ofTable? (table : Table) : Option Config := do
  return {
    disabled := ← readKey? table "disabled" [] readNames?
    severity := ← readKey? table "severity" .empty (readTable? readSeverity?)
    inspections := ← readKey? table "inspections" .empty (readTable? readSettings?)
    format := ← readKey? table "output" none (readSetting? "format" readText?) }

/-- The configuration in a text; none if the text is no TOML or a value has the wrong shape. -/
def parse? (text : String) : Option Config := (Toml.parse? text).bind ofTable?

end Config

/-- Why a configuration file gave no configuration. -/
inductive ConfigFileError where
  | unreadable (path : String)
  | invalid (path : String)
  deriving DecidableEq, Repr

def ConfigFileError.message : ConfigFileError → String
  | unreadable path => "Failed to read " ++ path
  | invalid path => "Invalid " ++ path

section

variable (parse? : String → Option Config) (files : FileView)

/-- The configuration in a file whose texts are read by `parse?`. -/
def loadConfigFileBy (path : String) : Except ConfigFileError Config :=
  match files.readText? path with
  | none => .error (.unreadable path)
  | some text =>
    match parse? text with
    | none => .error (.invalid path)
    | some config => .ok config

/-- The configuration in the directory of a project, if there is a file. -/
def loadConfigBy (root : String) : Except ConfigFileError (Option Config) :=
  let path := join root configFileName
  if (files path).isSome then (loadConfigFileBy parse? files path).map some else .ok none

end

/-- The configuration in the directory of a project, if there is a file. -/
def loadConfig (files : FileView) (root : String) : Except ConfigFileError (Option Config) :=
  loadConfigBy Config.parse? files root

end VbaLint
