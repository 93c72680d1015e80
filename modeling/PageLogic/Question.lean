import PageLogic.Fault
import PageLogic.Term
/-!
Questions about a page and the party that answers them.

An oracle answers one question at a time, from a state that the answer may change. A reading is a
small program that asks questions until it knows one value.
-/
namespace PageLogic

/-- What can be asked about a page. -/
inductive Question where
  /-- The elements that a selector matches, in document order. -/
  | elements (scope : String)
  /-- The elements beneath a parent that a selector matches, in document order. -/
  | descendants (parent : Handle) (scope : String)
  | attribute (element : Handle) (name : String)
  | tagName (element : Handle)
  | text (element : Handle)
  | size (element : Handle)
  | location (element : Handle)
  | displayed (element : Handle)
  | enabled (element : Handle)
  | exists (element : Handle)
  | selected (element : Handle)
  | visible (element : Handle)
  | title
  | currentUrl
  deriving DecidableEq, Repr

/-- The type of the answer. -/
abbrev Question.Value : Question → Type
  | .elements _ | .descendants _ _ => List Handle
  | .attribute _ _ => Option String
  | .tagName _ | .text _ | .title | .currentUrl => String
  | .size _ => Size
  | .location _ => Location
  | .displayed _ | .enabled _ | .exists _ | .selected _ | .visible _ => Bool

/-- A party that answers questions from a state of type `σ`. -/
structure Oracle (σ : Type) where
  answer : (q : Question) → σ → Except Fault q.Value × σ

/-- A program that asks questions until it has a value or a fault. -/
inductive Reading (α : Type) where
  | value (a : α)
  | fault (f : Fault)
  | ask (q : Question) (next : Except Fault q.Value → Reading α)

namespace Reading

def ofExcept {α : Type} : Except Fault α → Reading α
  | .ok a => .value a
  | .error f => .fault f

/-- One question, its answer mapped. -/
def of {α : Type} (q : Question) (f : q.Value → α) : Reading α :=
  .ask q fun
    | .ok a => .value (f a)
    | .error e => .fault e

/-- Goes on with the value; a fault ends the reading. -/
def andThen {α β : Type} : Reading α → (α → Reading β) → Reading β
  | .value a, f => f a
  | .fault e, _ => .fault e
  | .ask q next, f => .ask q fun r => (next r).andThen f

def map {α β : Type} (f : α → β) (r : Reading α) : Reading β :=
  r.andThen fun a => .value (f a)

/-- Carries out a reading. -/
def run {σ α : Type} (o : Oracle σ) : Reading α → σ → Except Fault α × σ
  | .value a, s => (.ok a, s)
  | .fault e, s => (.error e, s)
  | .ask q next, s =>
    let (r, s) := o.answer q s
    run o (next r) s

/-- Whether an element is there and displayed. Display is not asked about an element that does
not exist. -/
def present (e : Handle) : Reading Bool :=
  (of (.exists e) id).andThen fun there =>
    if there then of (.displayed e) id else .value false

end Reading

end PageLogic
