/-!
# Failures

Every way in which reading a project, configuring a pass or running it can fail. After a module that
cannot be read or a rule that fails the rest of a pass still makes sense; after any other failure it
does not.
-/

namespace VbaLint

inductive Failure where
  /-- A file could not be read. -/
  | io (path cause : String)
  /-- A module could not be read. -/
  | parse (module message : String)
  /-- A configuration file is wrong. -/
  | config (path message : String)
  /-- A rule failed while it ran. -/
  | inspection (name message : String)
  /-- The pass was cancelled. -/
  | cancelled
  | invalidArgument (message : String)
  | internal (message : String)
  deriving DecidableEq, Repr

namespace Failure

def message : Failure → String
  | io path cause => "I/O error at " ++ path ++ ": " ++ cause
  | parse module message => "Parse error in " ++ module ++ ": " ++ message
  | config path message => "Config error at " ++ path ++ ": " ++ message
  | inspection name message => "Inspection '" ++ name ++ "' failed: " ++ message
  | cancelled => "Inspection pass cancelled"
  | invalidArgument message => "Invalid argument: " ++ message
  | internal message => "Internal error: " ++ message

def isRecoverable : Failure → Bool
  | parse .. | inspection .. => true
  | _ => false

def isCancelled (failure : Failure) : Bool := failure == cancelled

def path? : Failure → Option String
  | io path _ | config path _ => some path
  | _ => none

/-- The failure of the system below that led to this one. -/
def cause? : Failure → Option String
  | io _ cause => some cause
  | _ => none

end Failure

end VbaLint
