import PageLogic.DevTools.Dispatch
import PageLogic.DevTools.Talk
/-!
Endpoints that follow a script: for each command that they receive they take one reply from a list.
When the list is used up, every command succeeds with an empty result.
-/
namespace PageLogic.DevTools

/-- What happens when a command is received. -/
structure Scripted where
  /-- Messages that come first, as they are. -/
  before : List String
  /-- Whether the connection is closed then. -/
  closes : Bool
  /-- The fields of the reply; the number of the command is added to them. -/
  body : Option (List (String × Json))
  deriving Repr

/-- The reply when the list is used up. -/
def Scripted.fallback : Scripted :=
  ⟨[], false, some [("result", .object [])]⟩

structure Endpoint where
  dispatch : Dispatch
  replies : List Scripted
  /-- The commands received so far, the newest first. -/
  received : List Request
  deriving Repr

namespace Endpoint

def start (replies : List Scripted) : Endpoint :=
  ⟨.start, replies, []⟩

/-- The list of replies is replaced. -/
def script (e : Endpoint) (replies : List Scripted) : Endpoint :=
  { e with replies }

/-- The text of a reply to a command. -/
def replyText (id : Nat) (fields : List (String × Json)) : String :=
  Json.compact (.object (Json.putField "id" (.number (.whole id)) fields))

/-- What the client sees after a command was received. -/
def reaction (id : Nat) (s : Scripted) : List Event :=
  s.before.map .receive ++
    if s.closes then [.stopReading, .clear]
    else (s.body.map fun fields => Event.receive (replyText id fields)).toList

/-- How a command comes to its end: by what came for it, or because its time is up. -/
def ending (id : Nat) : List Event :=
  [.wake id, .giveUp id, .withdraw id]

/-- Sends one command and waits until it has ended. After the connection was closed the next
command is lost on the way, and those after it are not sent. -/
def command (e : Endpoint) (method : String) (params : Json) : Outcome × Endpoint :=
  let id := e.dispatch.nextId
  let sent := e.dispatch.follow [.begin method params, .enter id, .handOn id]
  let finish (e : Endpoint) : Outcome × Endpoint :=
    ((e.dispatch.outcome? id).getD .timedOut, e)
  if !e.dispatch.writing then finish { e with dispatch := sent }
  else if e.dispatch.reader != .reading then
    finish { e with dispatch := sent.follow (.stopWriting :: ending id) }
  else
    let (reply, replies) : Scripted × List Scripted :=
      match e.replies with
      | reply :: replies => (reply, replies)
      | [] => (.fallback, [])
    finish {
      dispatch := sent.follow (.write :: reaction id reply ++ ending id)
      replies
      received := ⟨id, method, params⟩ :: e.received }

/-- The endpoint as a link, on which a command may take `secs` seconds. -/
def link (secs : Nat) : Link Endpoint where
  exchange method params e :=
    let (outcome, e) := e.command method params
    (outcome.toResult method secs, e)

end Endpoint

end PageLogic.DevTools
