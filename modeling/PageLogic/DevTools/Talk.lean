import PageLogic.DevTools.Failure
import PageLogic.Json
/-!
Talks: programs that send commands to a page until they have a value. What comes back for a command
is its result or a failure; a talk may go on after a failure.
-/
namespace PageLogic.DevTools

inductive Talk (α : Type) where
  | value (a : α)
  | failure (f : Failure)
  | send (method : String) (params : Json) (next : Except Failure Json → Talk α)

/-- A connection to a page, of state `σ`, over which commands are sent one at a time. -/
structure Link (σ : Type) where
  exchange : (method : String) → (params : Json) → σ → Except Failure Json × σ

namespace Talk

/-- Goes on with the value; a failure ends the talk. -/
def andThen {α β : Type} : Talk α → (α → Talk β) → Talk β
  | .value a, f => f a
  | .failure e, _ => .failure e
  | .send method params next, f => .send method params fun r => (next r).andThen f

/-- Goes on with the value or the failure. -/
def attempt {α β : Type} : Talk α → (Except Failure α → Talk β) → Talk β
  | .value a, f => f (.ok a)
  | .failure e, f => f (.error e)
  | .send method params next, f => .send method params fun r => (next r).attempt f

def map {α β : Type} (f : α → β) (t : Talk α) : Talk β :=
  t.andThen fun a => .value (f a)

def ofExcept {α : Type} : Except Failure α → Talk α
  | .ok a => .value a
  | .error e => .failure e

/-- A value that may be missing from a reply. -/
def required {α : Type} (missing : String) : Option α → Talk α
  | some a => .value a
  | none => .failure (.malformed missing)

/-- One command and its result. -/
def command (method : String) (params : Json) : Talk Json :=
  .send method params ofExcept

/-- Carries out a talk over a link. -/
def run {σ α : Type} (link : Link σ) : Talk α → σ → Except Failure α × σ
  | .value a, s => (.ok a, s)
  | .failure e, s => (.error e, s)
  | .send method params next, s =>
    let (r, s) := link.exchange method params s
    run link (next r) s

/-! ### Commands -/

def int (i : Int) : Json := .number (.whole i)

/-- Whole numbers of a list in a reply; whatever else is in the list is passed over. -/
def ints (items : List Json) : List Int :=
  items.filterMap Json.int?

/-- Switches on a group of commands. -/
def enableDomain (domain : String) : Talk Unit :=
  (command (domain ++ ".enable") (.object [])).map fun _ => ()

/-- Goes to an address. -/
def navigate (url : String) : Talk Json :=
  (command "Page.navigate" (.object [("url", .string url)])).andThen fun result =>
    match (result.get? "errorText").bind Json.string? with
    | some reason => .failure (.protocol 0 ("Navigation to " ++ url ++ " failed: " ++ reason))
    | none => .value result

/-- What a script that threw an exception says. -/
def exceptionMessage (details : Json) : String :=
  (((details.get? "exception").bind (·.get? "description")).bind Json.string?).getD
    (((details.get? "text").bind Json.string?).getD "JavaScript exception")

/-- The value of a script, or the exception that it threw. -/
def scriptValue (result : Json) : Talk Json :=
  match result.get? "exceptionDetails" with
  | some details => .failure (.protocol thrownCode (exceptionMessage details))
  | none => .value (((result.get? "result").bind (·.get? "value")).getD .null)

/-- The value of an expression in the page. -/
def evaluate (expression : String) : Talk Json :=
  (command "Runtime.evaluate" (.object [
    ("awaitPromise", .bool true), ("expression", .string expression),
    ("returnByValue", .bool true)])).andThen scriptValue

/-- The whole tree of nodes. Numbers of nodes that were given out before are void afterwards. -/
def document : Talk Json :=
  (command "DOM.getDocument" (.object [("depth", int (-1))])).andThen fun result =>
    required "DOM.getDocument without root" (result.get? "root")

/-- Numbers of the nodes below one that a selector matches. A reply without numbers has none. -/
def querySelectorAll (node : Int) (selector : String) : Talk (List Int) :=
  (command "DOM.querySelectorAll"
    (.object [("nodeId", int node), ("selector", .string selector)])).map fun result =>
      (((result.get? "nodeIds").bind Json.array?).map ints).getD []

/-- Numbers of nodes that are known by their lasting numbers; zero for a node that is gone. -/
def pushNodes (backendIds : List Int) : Talk (List Int) :=
  (command "DOM.pushNodesByBackendIdsToFrontend"
    (.object [("backendNodeIds", .array (backendIds.map int))])).andThen fun result =>
      required "pushNodesByBackendIdsToFrontend"
        (((result.get? "nodeIds").bind Json.array?).map ints)

/-- The lasting number of a node. -/
def describe (node : Int) : Talk Int :=
  (command "DOM.describeNode" (.object [("nodeId", int node)])).andThen fun result =>
    required "DOM.describeNode without backendNodeId"
      (((result.get? "node").bind (·.get? "backendNodeId")).bind Json.int?)

/-- The object by which scripts know a node. -/
def resolveNode (backendId : Int) (group : String) : Talk String :=
  (command "DOM.resolveNode"
    (.object [("backendNodeId", int backendId), ("objectGroup", .string group)])).andThen
      fun result =>
        required "DOM.resolveNode without objectId"
          (((result.get? "object").bind (·.get? "objectId")).bind Json.string?)

/-- The value of a function that is called on an object. -/
def callFunctionOn (object function : String) (arguments : List Json) : Talk Json :=
  (command "Runtime.callFunctionOn" (.object [
    ("arguments", .array (arguments.map fun a => .object [("value", a)])),
    ("functionDeclaration", .string function), ("objectId", .string object),
    ("returnByValue", .bool true)])).andThen scriptValue

/-- Lets go of all objects of a group. -/
def releaseGroup (group : String) : Talk Unit :=
  (command "Runtime.releaseObjectGroup" (.object [("objectGroup", .string group)])).map fun _ => ()

def closeBrowser : Talk Unit :=
  (command "Browser.close" (.object [])).map fun _ => ()

end Talk

end PageLogic.DevTools
