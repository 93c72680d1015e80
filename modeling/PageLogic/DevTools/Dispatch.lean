import PageLogic.DevTools.Failure
import PageLogic.Json.Read
/-!
The table in which a client keeps the commands that wait for their replies, as a system of steps.

Many callers send commands at once, and each command goes its way in steps of its own: it takes a
number, enters itself into the table, is handed to the writer, and waits until its reply comes, its
entry is thrown away or its time is up. Between two steps of one command anything else may happen:
steps of others, the writer's and the reader's. A message that carries the number of an entry takes
the entry out and fills the slot in which its command waits; other messages change nothing.
-/
namespace PageLogic.DevTools

/-- How a command ended. -/
inductive Outcome where
  /-- The message that answered it. -/
  | answered (message : Json)
  | timedOut
  /-- The connection closed while the command was waiting. -/
  | closed
  /-- The command could not be handed to the writer. -/
  | unsent
  deriving Repr

/-- What a command returns, from how it ended. `secs` is the time it had. -/
def Outcome.toResult (method : String) (secs : Nat) : Outcome → Except Failure Json
  | .answered message =>
    match message.get? "error" with
    | some error =>
      .error (.protocol (((error.get? "code").bind Json.int?).getD 0)
        (((error.get? "message").bind Json.string?).getD ""))
    | none => .ok ((message.get? "result").getD .null)
  | .timedOut => .error (.timeout method secs)
  | .closed => .error (.transport "CDP response channel closed")
  | .unsent => .error (.transport "Failed to send CDP command: channel closed")

/-- How far a command has come. -/
inductive Stage where
  /-- It has a number. -/
  | numbered
  /-- It has an entry in the table. -/
  | entered
  /-- It was handed to the writer, and its time runs. -/
  | waiting
  /-- Its time is up, and it no longer looks for a reply; its entry is still to be taken back. -/
  | overdue
  | ended (outcome : Outcome)
  deriving Repr

/-- The place in which a command finds its reply. -/
inductive Slot where
  | empty
  | filled (message : Json)
  /-- The entry was thrown away, and nothing will come. -/
  | abandoned
  deriving Repr

/-- A command on its way. -/
structure Call where
  method : String
  params : Json
  stage : Stage
  slot : Slot
  deriving Repr

/-- A command as it is written to the connection. -/
structure Request where
  id : Nat
  method : String
  params : Json
  deriving Repr

/-- The part that takes in messages. -/
inductive Reader where
  | reading
  /-- The connection is closed or broken; the table is still to be emptied. -/
  | leaving
  | stopped
  deriving DecidableEq, Repr

structure Dispatch where
  /-- The number of the next command. -/
  nextId : Nat
  /-- All commands so far under their numbers, the newest first. -/
  calls : List (Nat × Call)
  /-- Numbers of the entries in the table, the newest first. -/
  pending : List Nat
  /-- What the writer was handed and has not written, the oldest first. -/
  outbox : List Request
  reader : Reader
  /-- Whether the writer still takes commands. -/
  writing : Bool
  deriving Repr

/-- What can happen next. -/
inductive Event where
  /-- A command takes a number. -/
  | begin (method : String) (params : Json)
  | enter (id : Nat)
  | handOn (id : Nat)
  /-- The writer writes the oldest command that it was handed. -/
  | write
  /-- Writing fails: the writer stops, and what it was handed is lost. -/
  | stopWriting
  | receive (text : String)
  /-- The other side closes the connection, or reading fails. -/
  | stopReading
  /-- The reader, on leaving, throws away all entries. -/
  | clear
  /-- A command finds what came into its slot. -/
  | wake (id : Nat)
  /-- The time of a command is up before anything came. -/
  | giveUp (id : Nat)
  /-- A command whose time is up takes its entry back and ends. -/
  | withdraw (id : Nat)
  deriving Repr

/-- The number that a message carries, and the message, if the text is one and carries a number. -/
def replyOf? (text : String) : Option (Nat × Json) :=
  (Json.parse? text).bind fun message =>
    ((message.get? "id").bind Json.nat?).map fun id => (id, message)

namespace Dispatch

def start : Dispatch := ⟨1, [], [], [], .reading, true⟩

/-- How many commands the writer can be handed ahead of writing them. -/
def capacity : Nat := 256

def call? (d : Dispatch) (id : Nat) : Option Call :=
  d.calls.lookup id

/-- Changes the calls whose numbers are `touched`. -/
def change (d : Dispatch) (touched : Nat → Bool) (f : Call → Call) : Dispatch :=
  { d with calls := d.calls.map fun (id, c) => (id, if touched id then f c else c) }

/-- Moves a command on. -/
def move (d : Dispatch) (id : Nat) (stage : Stage) : Dispatch :=
  d.change (· == id) fun c => { c with stage }

/-- Puts a message into the slot of a command. -/
def fill (d : Dispatch) (id : Nat) (message : Json) : Dispatch :=
  d.change (· == id) fun c => { c with slot := .filled message }

/-- Takes an entry out of the table. -/
def removeEntry (d : Dispatch) (id : Nat) : Dispatch :=
  { d with pending := d.pending.filter (· != id) }

/-- Takes in the text of a message. -/
def take (d : Dispatch) (text : String) : Dispatch :=
  match replyOf? text with
  | some (id, message) =>
    if d.pending.contains id then (d.fill id message).removeEntry id else d
  | none => d

/-- Throws away all entries. -/
def abandonAll (d : Dispatch) : Dispatch :=
  { d.change d.pending.contains fun c => { c with slot := .abandoned } with pending := [] }

/-- The state after an event, if the event can happen. -/
def step (d : Dispatch) : Event → Option Dispatch
  | .begin method params =>
    some { d with
      nextId := d.nextId + 1
      calls := (d.nextId, ⟨method, params, .numbered, .empty⟩) :: d.calls }
  | .enter id =>
    match d.call? id with
    | some ⟨_, _, .numbered, _⟩ => some { d.move id .entered with pending := id :: d.pending }
    | _ => none
  | .handOn id =>
    match d.call? id with
    | some ⟨method, params, .entered, _⟩ =>
      -- The entry stays behind when the writer has stopped.
      if !d.writing then some (d.move id (.ended .unsent))
      else if d.outbox.length < capacity then
        some { d.move id .waiting with outbox := d.outbox ++ [⟨id, method, params⟩] }
      else none
    | _ => none
  | .write =>
    match d.outbox with
    | _ :: rest => some { d with outbox := rest }
    | [] => none
  | .stopWriting =>
    if d.outbox.isEmpty then none else some { d with outbox := [], writing := false }
  | .receive text => if d.reader = .reading then some (d.take text) else none
  | .stopReading => if d.reader = .reading then some { d with reader := .leaving } else none
  | .clear => if d.reader = .leaving then some { d.abandonAll with reader := .stopped } else none
  | .wake id =>
    match d.call? id with
    | some ⟨_, _, .waiting, .filled message⟩ => some (d.move id (.ended (.answered message)))
    | some ⟨_, _, .waiting, .abandoned⟩ => some (d.move id (.ended .closed))
    | _ => none
  | .giveUp id =>
    match d.call? id with
    | some ⟨_, _, .waiting, .empty⟩ => some (d.move id .overdue)
    | _ => none
  | .withdraw id =>
    match d.call? id with
    | some ⟨_, _, .overdue, _⟩ => some ((d.move id (.ended .timedOut)).removeEntry id)
    | _ => none

/-- The state after some events, if they can happen one after the other. -/
def run (d : Dispatch) : List Event → Option Dispatch
  | [] => some d
  | event :: rest => (d.step event).bind fun d => d.run rest

/-- The state after those of some events that can happen when their turn comes. -/
def follow (d : Dispatch) (events : List Event) : Dispatch :=
  events.foldl (fun d event => (d.step event).getD d) d

/-- How a command ended, if it has. -/
def outcome? (d : Dispatch) (id : Nat) : Option Outcome :=
  match d.call? id with
  | some ⟨_, _, .ended outcome, _⟩ => some outcome
  | _ => none

end Dispatch

end PageLogic.DevTools
