import VbaLint.Command.Options
import VbaLint.Host
import VbaLint.Json.Results
import VbaLint.Pass.Engine

/-!
# The command

A run either lists the rules, or loads a project, makes one pass over it and prints what was found.
The exit code is zero if nothing is reported, one if something is or if the run fails, and two if the
arguments make no sense.
-/

namespace VbaLint.Command

open Files Text

structure Outcome where
  exitCode : Nat
  output : String
  /-- What is said on the error channel. -/
  messages : List String
  deriving DecidableEq, Repr

inductive RunError where
  | config (error : ConfigFileError)
  | overrideWithoutLevel (text : String)
  | overrideWithoutName (text : String)
  | overrideWithoutSeverity (text : String)
  | missingPath (path : String)
  | unreadableProject (path : String)
  | incompletePass
  deriving DecidableEq, Repr

def RunError.message : RunError → String
  | config error => error.message
  | overrideWithoutLevel text => "expected NAME=LEVEL, got '" ++ text ++ "'"
  | overrideWithoutName text => "missing inspection name in '" ++ text ++ "'"
  | overrideWithoutSeverity text => "invalid severity override '" ++ text ++ "'"
  | missingPath path => "Path does not exist: " ++ path
  | unreadableProject path => "Failed to load VBA project from " ++ path
  | incompletePass => "Inspection pass did not complete"

/-- Read a severity for a rule: its name, an equals sign and a level. -/
def readOverride (text : String) : Except RunError (String × Severity) :=
  match Argument.splitValue text.toList with
  | (_, .none) => .error (.overrideWithoutLevel text)
  | (name, some level) =>
    let name := trimString name
    if name = "" then .error (.overrideWithoutName text)
    else
      match Severity.parse level with
      | .ok severity => .ok (name, severity)
      | .error _ => .error (.overrideWithoutSeverity text)

def configDirectory (files : FileView) (path : String) : String :=
  if files.isFile path then parentPath path else path

def Options.pathOrHere (options : Options) : String := options.path.getD "."

/-- The places that a run looks at; what stands there and below is all that it needs to know. -/
def Options.places (options : Options) : List String :=
  let path := options.pathOrHere
  [path, join path configFileName, join (parentPath path) configFileName] ++ options.config.toList

def Options.projectOrDefault (options : Options) : String := options.project.getD "VBAProject"

/-- The configuration of a run: from the file, with the options on top of it. -/
def resolveConfig (host : Host) (files : FileView) (options : Options) : Except RunError Config := do
  let config ←
    match options.config with
    | some path => (loadConfigFileBy host.parseConfig? files path).mapError .config
    | .none =>
      let found := loadConfigBy host.parseConfig? files (configDirectory files options.pathOrHere)
      (found.mapError .config).map (·.getD .default)
  let config := options.disable.foldl Config.disable config
  let config ← options.severity.foldlM (fun config text ↦ do
    let (name, severity) ← readOverride text
    return config.setSeverity name severity) config
  return if options.json then { config with format := some "json" } else config

def listAsJson (config : Config) (rules : List RuleInfo) : String :=
  (Json.list <| rules.map fun rule ↦
    .record
      [("name", .text rule.name), ("default_severity", .text rule.defaultSeverity.label),
        ("type", .text rule.category.title), ("enabled", .boolean (config.isEnabled rule.name)),
        ("description", .text rule.description)]).pretty ++ "\n"

def listAsText (config : Config) (rules : List RuleInfo) : String :=
  let line (rule : RuleInfo) :=
    "- " ++ rule.name ++ " [" ++ rule.defaultSeverity.label ++ "]" ++
      (if config.isEnabled rule.name then "" else " (disabled)") ++ " " ++ rule.description ++ "\n"
  "INSPECTIONS (" ++ toString rules.length ++ "):\n" ++ String.join (rules.map line)

def listRules (config : Config) : Outcome :=
  let rules := (Catalog.builtIn.instantiate config).map (·.info)
  ⟨0, if config.wantsJson then listAsJson config rules else listAsText config rules, []⟩

def inspect (host : Host) (files : FileView) (options : Options) (config : Config) :
    Except RunError Outcome := do
  let path := options.pathOrHere
  if (files path).isNone then throw (.missingPath path)
  let some snapshot := loadProjectBy host.walk files path options.projectOrDefault 1
    | throw (.unreadableProject path)
  let warnings :=
    if snapshot.modules.isEmpty then ["[WARN] No VBA components found under " ++ path] else []
  let .ok set := ((Engine.builtIn config).runAll snapshot).1
    | throw .incompletePass
  let set := options.minSeverity.elim set set.retainAtLeast
  return ⟨if set.findings.isEmpty then 0 else 1,
    if config.wantsJson then set.jsonReport else set.report, warnings⟩

def perform (host : Host) (files : FileView) (options : Options) : Except RunError Outcome := do
  let config ← resolveConfig host files options
  if options.list then return listRules config
  inspect host files options config

def runOn (host : Host) (files : FileView) (arguments : List String) : Outcome :=
  match Options.read arguments with
  | .error error => ⟨2, "", [error.message]⟩
  | .ok options =>
    match perform host files options with
    | .error error => ⟨1, "", ["Error: " ++ error.message]⟩
    | .ok outcome => outcome

def run (files : FileView) (arguments : List String) : Outcome := runOn .plain files arguments

end VbaLint.Command
