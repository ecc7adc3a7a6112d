import VbaLint.Inspection.Severity

/-!
# Command line options

A long option takes its value behind an equals sign or as the next argument, which then must not look
like an option. Only some options may be given more than once. Behind two hyphens everything is a
path, and there is at most one path.
-/

namespace VbaLint.Command

inductive OptionName where
  | json
  | list
  | config
  | severity
  | disable
  | minSeverity
  | project
  | jobs
  deriving DecidableEq, Repr

namespace OptionName

def all : List OptionName := [json, list, config, severity, disable, minSeverity, project, jobs]

def spelling : OptionName → String
  | json => "--json"
  | list => "--list"
  | config => "--config"
  | severity => "--severity"
  | disable => "--disable"
  | minSeverity => "--min-severity"
  | project => "--project"
  | jobs => "--jobs"

def takesValue (option : OptionName) : Bool := option != json && option != list

def isRepeatable (option : OptionName) : Bool := option == severity || option == disable

end OptionName

/-- What the user asks for. -/
structure Options where
  /-- The file or directory with the exported components. -/
  path : Option String
  /-- Print results as data. -/
  json : Bool
  /-- Only list the rules. -/
  list : Bool
  /-- The configuration file. -/
  config : Option String
  /-- Severities of rules, as `NAME=LEVEL`. -/
  severity : List String
  /-- Rules that are not to run. -/
  disable : List String
  /-- Report only findings that are at least so serious. -/
  minSeverity : Option Severity
  /-- The name of the project. -/
  project : Option String
  /-- The number of threads asked for; it changes no result. -/
  jobs : Option Nat
  deriving DecidableEq, Repr

def Options.none : Options := ⟨.none, false, false, .none, [], [], .none, .none, .none⟩

inductive UsageError where
  | unexpected (argument : String)
  | repeated (option : OptionName)
  | missingValue (option : OptionName)
  | unexpectedValue (option : OptionName) (value : String)
  | invalidValue (option : OptionName) (value : String)
  deriving DecidableEq, Repr

def UsageError.message : UsageError → String
  | unexpected argument => "error: unexpected argument '" ++ argument ++ "' found"
  | repeated option =>
    "error: the argument '" ++ option.spelling ++ "' cannot be used multiple times"
  | missingValue option => "error: a value is required for '" ++ option.spelling ++ "'"
  | unexpectedValue option value =>
    "error: unexpected value '" ++ value ++ "' for '" ++ option.spelling ++ "' found"
  | invalidValue option value =>
    "error: invalid value '" ++ value ++ "' for '" ++ option.spelling ++ "'"

/-- A number of threads: digits, with or without a plus sign, of at most 64 bits. -/
def readCount? (text : String) : Option Nat :=
  let digits :=
    match text.toList with
    | '+' :: digits => digits
    | digits => digits
  let value := digits.foldl (fun value digit ↦ 10 * value + (digit.toNat - '0'.toNat)) 0
  if !digits.isEmpty && digits.all Char.isDigit && value < Nat.pow 2 64 then some value else .none

namespace Options

def has (options : Options) : OptionName → Bool
  | .json => options.json
  | .list => options.list
  | .config => options.config.isSome
  | .severity => !options.severity.isEmpty
  | .disable => !options.disable.isEmpty
  | .minSeverity => options.minSeverity.isSome
  | .project => options.project.isSome
  | .jobs => options.jobs.isSome

def give (options : Options) (option : OptionName) (value : String) :
    Except UsageError Options :=
  if options.has option && !option.isRepeatable then .error (.repeated option)
  else
    match option with
    | .json => .ok { options with json := true }
    | .list => .ok { options with list := true }
    | .config =>
      if value = "" then .error (.missingValue option)
      else .ok { options with config := some value }
    | .severity => .ok { options with severity := options.severity ++ [value] }
    | .disable => .ok { options with disable := options.disable ++ [value] }
    | .minSeverity =>
      match Severity.parse value with
      | .ok minimum => .ok { options with minSeverity := some minimum }
      | .error _ => .error (.invalidValue option value)
    | .project => .ok { options with project := some value }
    | .jobs =>
      match readCount? value with
      | some count => .ok { options with jobs := some count }
      | .none => .error (.invalidValue option value)

def givePath (options : Options) (path : String) : Except UsageError Options :=
  if options.path.isSome then .error (.unexpected path) else .ok { options with path := some path }

end Options

inductive Argument where
  | path (text : String)
  /-- Two hyphens. -/
  | separator
  | option (name : OptionName) (value : Option String)
  | unknown (text : String)
  deriving DecidableEq, Repr

namespace Argument

def splitValue (text : List Char) : String × Option String :=
  match text.dropWhile (· != '=') with
  | [] => (String.ofList text, .none)
  | _ :: value => (String.ofList (text.takeWhile (· != '=')), some (String.ofList value))

def ofText (text : String) : Argument :=
  match text.toList with
  | ['-', '-'] => .separator
  | '-' :: '-' :: _ =>
    let (spelling, value) := splitValue text.toList
    match OptionName.all.find? (·.spelling == spelling) with
    | some name => .option name value
    | .none => .unknown text
  | ['-', 'j'] => .option .jobs .none
  | '-' :: 'j' :: '=' :: value => .option .jobs (some (String.ofList value))
  | '-' :: 'j' :: value => .option .jobs (some (String.ofList value))
  | '-' :: _ :: _ => .unknown text
  | _ => .path text

def isValue (text : String) : Bool :=
  match text.toList with
  | '-' :: _ :: _ => false
  | _ => true

end Argument

namespace Options

/-- Read arguments after others; `onlyPaths` tells that two hyphens came before. -/
def readFrom (onlyPaths : Bool) (options : Options) : List String → Except UsageError Options
  | [] => .ok options
  | text :: rest =>
    if onlyPaths then (options.givePath text).bind fun options ↦ readFrom true options rest
    else
      match Argument.ofText text with
      | .path path => (options.givePath path).bind fun options ↦ readFrom false options rest
      | .separator => readFrom true options rest
      | .unknown text => .error (.unexpected text)
      | .option name (some value) =>
        if name.takesValue then
          (options.give name value).bind fun options ↦ readFrom false options rest
        else .error (.unexpectedValue name value)
      | .option name .none =>
        if name.takesValue then
          match rest with
          | [] => .error (.missingValue name)
          | value :: rest =>
            if Argument.isValue value then
              (options.give name value).bind fun options ↦ readFrom false options rest
            else .error (.missingValue name)
        else (options.give name "").bind fun options ↦ readFrom false options rest

def read (arguments : List String) : Except UsageError Options := readFrom false .none arguments

end Options

end VbaLint.Command
