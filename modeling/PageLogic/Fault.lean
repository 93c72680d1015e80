/-!
What can go wrong. A fault comes from the party that answers questions about the page; an error is
what a search or a command of the program ends with. `Fault.isRecognized` draws the line between
faults that mean "no value here" and faults that end a search.
-/
namespace PageLogic

/-- How the page refused an answer. -/
inductive FaultKind where
  /-- The element is gone, or was never part of this page. -/
  | invalidElementState
  /-- The browser reported an error of its own. -/
  | unknownServer
  /-- Anything else, such as a lost connection. -/
  | unexpected
  deriving DecidableEq, Repr

/-- A refused answer and its explanation. -/
structure Fault where
  kind : FaultKind
  detail : String
  deriving DecidableEq, Repr

/-- Recognized faults read as an absent value; every other fault ends the search. -/
def FaultKind.isRecognized : FaultKind → Bool
  | .invalidElementState | .unknownServer => true
  | .unexpected => false

def Fault.isRecognized (f : Fault) : Bool :=
  f.kind.isRecognized

def Fault.message (f : Fault) : String :=
  match f.kind with
  | .invalidElementState => "Invalid element state: " ++ f.detail
  | .unknownServer => "Unknown server error: " ++ f.detail
  | .unexpected => "Unexpected oracle fault: " ++ f.detail

/-- Why a search or a command failed. -/
inductive Error where
  | config (detail : String)
  /-- A file could not be read or written. -/
  | io
  /-- A text is no JSON, or JSON of the wrong shape. -/
  | json
  | oracle (fault : Fault)
  | session (detail : String)
  | query (detail : String)
  | other (detail : String)
  deriving DecidableEq, Repr

def Error.message : Error → String
  | .config detail => "Config error: " ++ detail
  | .io => "IO error"
  | .json => "JSON error"
  | .oracle fault => "Oracle error: " ++ fault.message
  | .session detail => "Session error: " ++ detail
  | .query detail => "Query error: " ++ detail
  | .other detail => detail

end PageLogic
