import PageLogic.Fault
import PageLogic.Text.Blank
import PageLogic.Text.Lowercase
/-!
How a command to a browser fails, and which fault of the page that is. What the browser reports
about a missing node, and what a script throws, concerns one element; other reports are errors of
the browser; trouble on the way is neither.
-/
namespace PageLogic.DevTools

inductive Failure where
  /-- The browser answered with an error. -/
  | protocol (code : Int) (message : String)
  | transport (detail : String)
  | timeout (method : String) (secs : Nat)
  /-- The answer lacks what was asked for. -/
  | malformed (detail : String)
  deriving DecidableEq, Repr

/-- The code under which a thrown exception is reported. -/
def thrownCode : Int := -1

/-- Parts of messages, in lower case, that mean that a node or its document is gone. -/
def staleMarkers : List String := [
  "no node with given id", "could not find node with given id",
  "no node found for given backend id", "node with given id does not belong to the document",
  "node is detached", "cannot find context with specified id",
  "could not find object with given id"]

namespace Failure

def message : Failure → String
  | .protocol code message => "CDP error " ++ toString code ++ ": " ++ message
  | .transport detail => "CDP transport error: " ++ detail
  | .timeout method secs =>
    "CDP command '" ++ method ++ "' timed out after " ++ toString secs ++ "s"
  | .malformed detail => "Malformed CDP response: " ++ detail

/-- Whether a message says that a node is gone; letters are compared without case. -/
def isStale (message : String) : Bool :=
  let lower := (Text.lowercase message).toList
  staleMarkers.any fun marker => Text.occursIn marker.toList lower

/-- The fault that a failed command amounts to. -/
def toFault (f : Failure) : Fault :=
  match f with
  | .protocol code message =>
    if code = thrownCode || isStale message then ⟨.invalidElementState, message⟩
    else ⟨.unknownServer, message ++ " (code " ++ toString code ++ ")"⟩
  | f => ⟨.unexpected, f.message⟩

end Failure

end PageLogic.DevTools
